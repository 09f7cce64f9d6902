import Hdf4.Comp.State

/-!
# Creating a compressed element

`HCcreate` turns a tag/ref pair into a compressed element: it takes an access slot and a free
DD slot, builds the `compinfo_t`, writes the descriptor (`HCIwrite_header`), starts the model,
and, when a regular element already had the pair, pumps its bytes through `HCPwrite` and
deletes it. Every call it makes into the file store, the allocator and the model is given an
outcome, so that every failure point can be taken.
-/

namespace Hdf4

/-- Whether each call `HCcreate` makes succeeds, and what the allocator hands back for the
`compinfo_t` (`none` for `NULL`; otherwise the block's contents, which the code then fills
in). -/
structure CreateOutcome where
  newDDBlock : Bool
  mallocInfo : Option CompInfo
  getDiskBlock : Bool
  writeHeader : Bool
  updateDD : Bool
  addHash : Bool
  stwrite : Bool
  mallocBuf : Bool
  getElement : Bool
  write : WriteOutcome
  seek : Int
  deldd : Bool
  delHash : Bool

/-! ## `HCIwrite_header` -/

/-- `HCIwrite_header`: fill the DD of the access record's slot (`dd`) with the special tag,
the ref and the descriptor's length, allocate the descriptor's block, write it, and enter
the DD in the hash index. `HPwrite` writes `dd->length` bytes, the whole buffer. -/
def hciWriteHeader (o : CreateOutcome) (fid : Int) (slot : Nat) (info : CompInfo)
    (special_tag ref : UInt16) : HM Unit := do
  let buf := compHeaderBytes info
  let l := (← getAcc slot).loc
  modifyFile fid fun f => f.setDD l (({ f.dds l with tag := special_tag, ref := ref } : DD).setLength buf.length)
  let f ← getFile fid
  match if o.getDiskBlock then hpGetDiskBlock f (f.dds l).length else none with
  | none =>
    modifyFile fid fun f => f.setDD l ((f.dds l).setOffset FAIL)
    release slot
    throw .internal
  | some (off, f) =>
    modifyFile fid fun _ => f.setDD l ((f.dds l).setOffset off)
    if !o.writeHeader then
      release slot
      throw .writeError
    modifyFile fid fun f => hpWrite f buf
    if !o.updateDD then
      release slot
      throw .cantUpdate
    if !o.addHash then
      release slot
      throw .cantHash
    modifyFile fid fun f => hiAddHashDD f special_tag ref l

/-- The DD `HCIwrite_header` puts in slot `l`: the special tag, the ref, the descriptor's
length and the offset of the block `HPgetdiskblock` takes at the end of the file. -/
def headerDD (f : FileRec) (l : Loc) (special_tag ref : UInt16) (n : Nat) : DD :=
  (({ f.dds l with tag := special_tag, ref := ref } : DD).setLength n).setOffset f.eof

/-- The file `HCIwrite_header` leaves when its calls succeed. -/
def headerFile (f : FileRec) (l : Loc) (special_tag ref : UInt16) (buf : List UInt8) : FileRec :=
  hiAddHashDD (hpWrite ({ f with eof := f.eof + buf.length, fpos := f.eof }.setDD l
    (headerDD f l special_tag ref buf.length)) buf) special_tag ref l

/-! ## The model's `stwrite` -/

/-- Modelled from the spec: what the model's `stwrite` (`mstdio.c` and the coders, absent)
does to the file store. It creates the backing element `(DFTAG_COMPRESSED, comp_ref)` of
length `COMP_START_BLOCK` (§4.E.4 step 6): a slot from `allocate_dd`, a block at the end of
the file, and its hash entry. -/
def modelStwrite (f : FileRec) (comp_ref : UInt16) : Option FileRec :=
  let (l, f) := hiAllocateDD f
  match hpGetDiskBlock f COMP_START_BLOCK with
  | none => none
  | some (off, f) =>
    let d : DD := (({ f.dds l with tag := DFTAG_COMPRESSED, ref := comp_ref } : DD).setOffset off).setLength
      COMP_START_BLOCK
    some (hiAddHashDD (f.setDD l d) DFTAG_COMPRESSED comp_ref l)

/-! ## `HCcreate` -/

/-- `HCcreate`'s search for an existing element of the pair ("look for existing data element
of the same tag/ref"): an element that is already special cannot be converted. -/
def hcCreateLookup (file_rec : FileRec) (slot : Nat) (tag ref : UInt16) : HM (Option Loc) := do
  match hiLookupDD file_rec tag ref with
  | none => return none
  | some l =>
    if SPECIALTAG (file_rec.dds l).tag then
      release slot
      throw .cantMod
    return some l

/-- `HCcreate`'s search for the descriptor's DD ("look for empty dd to use"): a free slot of
the chain, or else the first slot of a new DD block. -/
def hcCreateEmptyDD (o : CreateOutcome) (file_id : Int) (slot : Nat) : HM Unit := do
  let file_rec ← getFile file_id
  match hiLookupDD file_rec DFTAG_NULL DFREF_WILDCARD with
  | some l => modifyAcc slot fun a => { a with loc := l }
  | none =>
    if !o.newDDBlock then
      release slot
      throw .noFreeDD
    modifyFile file_id fun f => hiNewDDBlock f FILE_NDDS
    modifyAcc slot fun a => { a with loc := ⟨file_rec.ndds.length, 0⟩ }

/-- `HCcreate`'s set-up of the special element information: the length of the old element
or `COMP_START_BLOCK`, a new ref for the backing element, and the model and coder records
from `HCIinit_model` and `HCIinit_coder`, whose results the code does not check. -/
def hcCreateInfo (DFKNTsize : Int → Int) (o : CreateOutcome) (file_id : Int) (slot : Nat)
    (data_dd : Option Loc) (model_type coder_type : Nat) (c_info : CompParams) : HM CompInfo := do
  let some info := o.mallocInfo | do release slot; throw .noSpace
  let f ← getFile file_id
  let length := match data_dd with
    | some l => (f.dds l).length
    | none => COMP_START_BLOCK
  let (comp_ref, f) := hNewref f
  modifyFile file_id fun _ => f
  let info := { info with
    length := length
    attached := 1
    compRef := comp_ref
    minfo := (hciInitModel info.minfo model_type).1
    cinfo := (hciInitCoder DFKNTsize info.cinfo coder_type c_info).1 }
  modifyAcc slot fun a => { a with info := info }
  return info

/-- `HCcreate`'s call of the model's `stwrite` ("propagate the initialization down to the
modeling layer"). -/
def hcCreateStwrite (o : CreateOutcome) (file_id : Int) (slot : Nat) : HM Unit := do
  let f ← getFile file_id
  let access_rec ← getAcc slot
  match if o.stwrite then modelStwrite f access_rec.info.compRef else none with
  | none =>
    release slot
    throw .model
  | some f => modifyFile file_id fun _ => f

/-- `Hdeldd` of the old element, as `HCcreate` calls it through `data_dd`. -/
def hcCreateDeldd (o : CreateOutcome) (file_id : Int) (slot : Nat) (l : Loc) : HM Unit := do
  let f ← getFile file_id
  match if o.deldd then hDeldd f (f.dds l).tag (f.dds l).ref else none with
  | none =>
    release slot
    throw .cantDelDD
  | some f => modifyFile file_id fun _ => f

/-- `HCcreate`'s migration of the old element in slot `l` ("compress the old DD and get rid of
it"): its bytes go through `HCPwrite`, the position goes back to the start, and the old DD
is deleted. `data_dd` points into the DD block, so after `Hdeldd` the hash entry removed is
that of the freed slot. -/
def hcCreateMigrate (o : CreateOutcome) (file_id : Int) (slot : Nat) (l : Loc) : HM Unit := do
  let len := ((← getFile file_id).dds l).length
  if !o.mallocBuf then
    release slot
    throw .noSpace
  if !o.getElement then
    release slot
    throw .readError
  tryCatch (discard <| hcpAt slot fun f a => hcpWrite f a len o.write) fun _ => do
    release slot
    throw .model
  tryCatch (discard <| hcpAt slot fun f a => let r := hcpSeek a 0 DF_START o.seek; (f, r.1, r.2))
    fun _ => do
      release slot
      throw .model
  hcCreateDeldd o file_id slot l
  if !o.delHash then
    release slot
    throw .cantDelHash
  modifyFile file_id fun f => hiDelHashDD f (f.dds l).tag (f.dds l).ref

/-- `HCcreate`. Each failure after the access slot is taken gives the slot back
(`access_rec->used = FALSE`) and keeps every other change. -/
def hcCreate (DFKNTsize : Int → Int) (o : CreateOutcome) (file_id : Int) (tag ref : UInt16)
    (model_type coder_type : Nat) (c_info : CompParams) : HM Int := do
  let file_rec ← getFile file_id
  if BADFREC file_rec || SPECIALTAG tag || MKSPECIALTAG tag == DFTAG_NULL then throw .args
  let special_tag := MKSPECIALTAG tag
  if file_rec.access &&& DFACC_WRITE = 0 then throw .denied
  let some slot ← hiGetAccessSlot | throw .tooMany
  let data_dd ← hcCreateLookup file_rec slot tag ref
  hcCreateEmptyDD o file_id slot
  let info ← hcCreateInfo DFKNTsize o file_id slot data_dd model_type coder_type c_info
  tryCatch (hciWriteHeader o file_id slot info special_tag ref) fun _ => do
    release slot
    throw .writeError
  -- update the access record and the file record
  modifyAcc slot fun a => { a with
    special := SPECIAL_COMP
    posn := 0
    access := DFACC_RDWR
    fileId := file_id
    appendable := false
    flush := false }
  modifyFile file_id fun f => { f with attach := f.attach + 1 }
  modifyFile file_id fun f => if f.maxref < ref then { f with maxref := ref } else f
  hcCreateStwrite o file_id slot
  if let some l := data_dd then hcCreateMigrate o file_id slot l
  return ASLOT2ID slot

/-! ## The model's `stwrite` -/

/-- `stwrite` grows the file by at most a block and a byte, and fills a free slot of the grown
file with the backing element, entered in the hash index. -/
theorem modelStwrite_eq_some {f f' : FileRec} {c : UInt16} (h : modelStwrite f c = some f') :
    ∃ g lb d, f.Grows g ∧ g.eof ≤ f.eof + (6 + 12 * FILE_NDDS) + 1 ∧ g.Valid lb ∧
      (g.dds lb).tag = DFTAG_NULL ∧ d.tag = DFTAG_COMPRESSED ∧ d.ref = c ∧
      f' = hiAddHashDD (g.setDD lb d) DFTAG_COMPRESSED c lb := by
  obtain ⟨hg, heof⟩ := hiAllocateDD_grows f
  obtain ⟨hv, hfree⟩ := @FileRec.hiAllocateDD_free f
  rcases ha : hiAllocateDD f with ⟨lb, g⟩
  simp only [ha] at hg heof hv hfree
  simp only [modelStwrite, ha] at h
  unfold hpGetDiskBlock at h
  split_ifs at h with hfit
  cases h
  exact ⟨_, _, _, hg.trans (.setEof _ _ _ (Nat.le_add_right _ _)),
    by simp [COMP_START_BLOCK]; omega, hv, hfree, rfl, rfl, rfl⟩

/-- `stwrite` keeps `attach` and every hash entry but those of `DFTAG_COMPRESSED`. -/
theorem modelStwrite_keeps {f f' : FileRec} {c : UInt16} (h : modelStwrite f c = some f') :
    f'.attach = f.attach ∧ ∀ t r, t ≠ DFTAG_COMPRESSED → f'.hash t r = f.hash t r := by
  obtain ⟨g, lb, d, hg, -, -, -, -, -, rfl⟩ := modelStwrite_eq_some h
  exact ⟨hg.attach, fun t r ht => by simp [hiAddHashDD, ht, hg.hash]⟩

/-- `stwrite` enters the backing pair at a slot that held no live DD. -/
theorem modelStwrite_backing {f f' : FileRec} {c : UInt16} (h : modelStwrite f c = some f') :
    ∃ lb, f'.hash DFTAG_COMPRESSED c = some lb ∧ ¬f.Live lb := by
  obtain ⟨g, lb, d, hg, -, -, hfree, -, -, rfl⟩ := modelStwrite_eq_some h
  refine ⟨lb, by simp [hiAddHashDD], fun hl => hl.2 ?_⟩
  rw [← (hg.valid lb hl.1).2]
  exact hfree

/-! ## What `HCcreate` may change in a file -/

/-- File `f'` is file `f` changed only as `HCcreate` of `(tag, ref)` changes it: every live
slot of `f` but the old element's slot `ld` keeps its DD; every live slot of `f'` is one of
those, or holds the descriptor `(MKSPECIALTAG tag, ref)` or the backing element
`(DFTAG_COMPRESSED, comp_ref)`; and the hash index changed only at those two pairs and, once
the old element is gone, at `(tag, ref)`. -/
structure CreateFrame (f f' : FileRec) (tag ref comp_ref : UInt16) (ld : Option Loc) : Prop where
  kept : ∀ l, f.Live l → ld ≠ some l → f'.Live l ∧ f'.dds l = f.dds l
  only : ∀ l, f'.Live l → (f.Live l ∧ f'.dds l = f.dds l) ∨
    ((f'.dds l).tag = MKSPECIALTAG tag ∧ (f'.dds l).ref = ref) ∨
    ((f'.dds l).tag = DFTAG_COMPRESSED ∧ (f'.dds l).ref = comp_ref)
  hash : ∀ t r, ¬(t = MKSPECIALTAG tag ∧ r = ref) → ¬(t = DFTAG_COMPRESSED ∧ r = comp_ref) →
    (ld = none ∨ ¬(t = tag ∧ r = ref)) → f'.hash t r = f.hash t r

namespace CreateFrame

variable {f g : FileRec} {tag ref c : UInt16} {ld : Option Loc}

theorem refl (f : FileRec) (tag ref c : UInt16) (ld : Option Loc) : CreateFrame f f tag ref c ld :=
  ⟨fun _ h _ => ⟨h, rfl⟩, fun _ h => .inl ⟨h, rfl⟩, fun _ _ _ _ _ => rfl⟩

/-- A frame in which no slot lost its DD allows any one slot to. -/
theorem widen (h : CreateFrame f g tag ref c none) (ld : Option Loc) : CreateFrame f g tag ref c ld :=
  ⟨fun l hl _ => h.kept l hl (by simp), h.only, fun t r h1 h2 _ => h.hash t r h1 h2 (.inl rfl)⟩

/-- Changes that keep the slots, the chain and the hash index (`maxref`, `attach`, the bytes
and the position of the file) keep the frame. -/
theorem of_dir (h : CreateFrame f g tag ref c ld) {g' : FileRec} (hn : g'.ndds = g.ndds)
    (hd : g'.dds = g.dds) (hh : g'.hash = g.hash) : CreateFrame f g' tag ref c ld := by
  have hl : ∀ l, g'.Live l ↔ g.Live l := fun l => by simp [FileRec.Live, FileRec.Valid, hn, hd]
  refine ⟨fun l hl' hne => ?_, fun l hl' => ?_, fun t r h1 h2 h3 => ?_⟩
  · rw [hl, hd]; exact h.kept l hl' hne
  · rw [hd]; exact h.only l ((hl l).1 hl')
  · rw [hh]; exact h.hash t r h1 h2 h3

/-- Filling a slot that was not live in `f` with the descriptor, the backing element or a free
DD keeps the frame. -/
theorem setDD (h : CreateFrame f g tag ref c ld) {l : Loc} {d : DD} (hl : ¬f.Live l)
    (hd : d.tag = DFTAG_NULL ∨ (d.tag = MKSPECIALTAG tag ∧ d.ref = ref) ∨
      (d.tag = DFTAG_COMPRESSED ∧ d.ref = c)) : CreateFrame f (g.setDD l d) tag ref c ld := by
  refine ⟨fun l' hl' hne => ?_, fun l' hl' => ?_, fun t r h1 h2 h3 => h.hash t r h1 h2 h3⟩
  · have hne' : l' ≠ l := fun he => hl (he ▸ hl')
    obtain ⟨h1, h2⟩ := h.kept l' hl' hne
    exact ⟨⟨h1.1, by simp [hne', h1.2]⟩, by simp [hne', h2]⟩
  · by_cases he : l' = l
    · subst he
      simp only [FileRec.Live, FileRec.setDD_dds, if_true] at hl' ⊢
      rcases hd with hd | hd
      · exact absurd hd hl'.2
      · exact .inr hd
    · have : g.Live l' := ⟨hl'.1, by simpa [he] using hl'.2⟩
      simpa [he] using h.only l' this

/-- Changing the hash entry of the descriptor or of the backing element keeps the frame. -/
theorem setHash (h : CreateFrame f g tag ref c ld) {t r : UInt16} {v : Option Loc}
    (hk : (t = MKSPECIALTAG tag ∧ r = ref) ∨ (t = DFTAG_COMPRESSED ∧ r = c)) :
    CreateFrame f (g.setHash t r v) tag ref c ld := by
  refine ⟨fun l hl hne => h.kept l hl hne, fun l hl => h.only l hl, fun t' r' h1 h2 h3 => ?_⟩
  rw [FileRec.setHash_hash, if_neg]
  · exact h.hash t' r' h1 h2 h3
  · rintro ⟨rfl, rfl⟩; rcases hk with hk | hk <;> simp_all

/-- A new block of free slots keeps the frame. -/
theorem newBlock (h : CreateFrame f g tag ref c ld) (n : Nat) :
    CreateFrame f (hiNewDDBlock g n) tag ref c ld := by
  have hl : ∀ l, (hiNewDDBlock g n).Live l → g.Live l ∧ (hiNewDDBlock g n).dds l = g.dds l := by
    intro l hl
    by_cases hb : l.block = g.ndds.length
    · simp [FileRec.Live, hb, DD.empty] at hl
    · simp only [FileRec.Live, FileRec.Valid, hiNewDDBlock_ndds, hiNewDDBlock_dds, hb, if_false,
        List.length_append, List.length_singleton] at hl ⊢
      have hb' : l.block < g.ndds.length := by omega
      rw [List.getD_append _ _ _ _ hb'] at hl
      exact ⟨⟨⟨hb', hl.1.2⟩, hl.2⟩, trivial⟩
  refine ⟨fun l hl' hne => ?_, fun l hl' => ?_, fun t r h1 h2 h3 => h.hash t r h1 h2 h3⟩
  · obtain ⟨⟨hv, ht⟩, hd⟩ := h.kept l hl' hne
    have hb : l.block ≠ g.ndds.length := Nat.ne_of_lt hv.1
    refine ⟨⟨?_, by simp [hb, ht]⟩, by simp [hb, hd]⟩
    simp only [FileRec.Valid, hiNewDDBlock_ndds, List.length_append, List.length_singleton]
    exact ⟨by have := hv.1; omega, by rw [List.getD_append _ _ _ _ hv.1]; exact hv.2⟩
  · obtain ⟨hg, hd⟩ := hl l hl'
    rw [hd]; exact h.only l hg

/-- Growing the chain or the file keeps the frame. -/
theorem grows (h : CreateFrame f g tag ref c ld) {g' : FileRec} (hg : g.Grows g') :
    CreateFrame f g' tag ref c ld := by
  refine ⟨fun l hl hne => ?_, fun l hl => ?_, fun t r h1 h2 h3 => ?_⟩
  · obtain ⟨h1, h2⟩ := h.kept l hl hne
    obtain ⟨h3, h4⟩ := hg.live_of h1
    exact ⟨h3, h4.trans h2⟩
  · have hl' := hg.live l hl
    rw [(hg.valid l hl'.1).2]; exact h.only l hl'
  · rw [hg.hash]; exact h.hash t r h1 h2 h3

/-- A slot that is free in `g` was not live in `f`, unless it is the old element's. -/
theorem not_live (h : CreateFrame f g tag ref c ld) {l : Loc} (hfree : (g.dds l).tag = DFTAG_NULL)
    (hl : ld ≠ some l) : ¬f.Live l := fun hf =>
  (h.kept l hf hl).1.2 hfree

/-- Writing the descriptor into a slot that was not live keeps the frame. -/
theorem headerFile (h : CreateFrame f g tag ref c ld) {l : Loc} (hl : ¬f.Live l) (buf : List UInt8) :
    CreateFrame f (Hdf4.headerFile g l (MKSPECIALTAG tag) ref buf) tag ref c ld := by
  have hw : CreateFrame f (hpWrite { g with eof := g.eof + buf.length, fpos := g.eof } buf) tag ref c ld :=
    h.of_dir rfl rfl rfl
  exact (hw.setDD hl (.inr (.inl ⟨rfl, rfl⟩))).setHash (.inl ⟨rfl, rfl⟩)

/-- The model's `stwrite`, which fills a free slot with the backing element, keeps the frame. -/
theorem stwrite (h : CreateFrame f g tag ref c none) {g' : FileRec} (hs : modelStwrite g c = some g') :
    CreateFrame f g' tag ref c none := by
  obtain ⟨g₁, lb, d, hg, -, -, hfb, ht, hr, rfl⟩ := modelStwrite_eq_some hs
  exact ((h.grows hg).setDD ((h.grows hg).not_live hfb (by simp)) (.inr (.inr ⟨ht, hr⟩))).setHash
    (.inr ⟨rfl, rfl⟩)

/-- Freeing the slot of the old element and dropping its entry keeps the frame, with the old
element now gone. -/
theorem delete (h : CreateFrame f g tag ref c none) {l : Loc} :
    CreateFrame f (hiDelHashDD (g.setDD l { g.dds l with tag := DFTAG_NULL }) tag ref) tag ref c
      (some l) := by
  refine ⟨fun l' hl' hne => ?_, fun l' hl' => ?_, fun t r h1 h2 h3 => ?_⟩
  · have hne' : l' ≠ l := fun he => hne (he ▸ rfl)
    obtain ⟨⟨hv, ht⟩, hd⟩ := h.kept l' hl' (by simp)
    simp only [FileRec.Live, hiDelHashDD, FileRec.valid_setHash, FileRec.valid_setDD,
      FileRec.setHash_dds, FileRec.setDD_dds, if_neg hne']
    exact ⟨⟨hv, ht⟩, hd⟩
  · have hne' : l' ≠ l := by rintro rfl; simp [FileRec.Live, hiDelHashDD] at hl'
    simp only [FileRec.Live, hiDelHashDD, FileRec.valid_setHash, FileRec.valid_setDD,
      FileRec.setHash_dds, FileRec.setDD_dds, if_neg hne'] at hl' ⊢
    exact h.only l' hl'
  · rcases h3 with h3 | h3
    · cases h3
    · simp only [hiDelHashDD, FileRec.setHash_hash, if_neg h3, FileRec.setDD_hash]
      exact h.hash t r h1 h2 (.inl rfl)

/-- Freeing slot `l'`, the old element's slot `l` or one that held no live DD, and dropping the
entry of the pair keeps the frame, with `l` named as the slot that may have lost its DD. -/
theorem delete_of (h : CreateFrame f g tag ref c none) {l l' : Loc} (hl : l' = l ∨ ¬f.Live l') :
    CreateFrame f (hiDelHashDD (g.setDD l' { g.dds l' with tag := DFTAG_NULL }) tag ref) tag ref c
      (some l) := by
  have hd := h.delete (l := l')
  refine ⟨fun l₀ hl₀ hne => hd.kept l₀ hl₀ ?_, hd.only,
    fun t r h1 h2 h3 => hd.hash t r h1 h2 (.inr (h3.resolve_left Option.noConfusion))⟩
  rcases hl with rfl | hl
  exacts [hne, fun he => hl (Option.some_inj.1 he ▸ hl₀)]

/-- After `HCcreate` the invariant holds again: a frame around the old file, a mirror, no
entry for the regular pair, and the two new pairs of their own, below `maxref`. -/
theorem storeInv (hI : StoreInv f) (h : CreateFrame f g tag ref c ld) (hm : g.Mirror)
    (htag : SPECIALTAG tag = false) (hspec : f.hash (MKSPECIALTAG tag) ref = none)
    (hgone : g.hash tag ref = none) (hc : f.maxref < c) (hcol : ¬(tag = DFTAG_COMPRESSED ∧ ref = c))
    (hmax : f.maxref ≤ g.maxref) (hr : ref ≤ g.maxref) (hcm : c ≤ g.maxref) : StoreInv g := by
  have hbase : BASETAG (MKSPECIALTAG tag) = tag :=
    (BASETAG_MKSPECIALTAG tag).trans (BASETAG_of_not_special htag)
  -- a slot kept from `f` shares base tag and ref with neither new element
  have hold : ∀ l l', g.Live l → f.Live l → g.dds l = f.dds l →
      ((g.dds l').tag = MKSPECIALTAG tag ∧ (g.dds l').ref = ref) ∨
        ((g.dds l').tag = DFTAG_COMPRESSED ∧ (g.dds l').ref = c) →
      BASETAG (g.dds l).tag = BASETAG (g.dds l').tag → (g.dds l).ref = (g.dds l').ref → False := by
    rintro l l' hl hf hd (⟨ht, hr'⟩ | ⟨ht, hr'⟩) hb hrr
    · rw [ht, hbase] at hb
      rw [hr'] at hrr
      rcases eq_of_BASETAG_eq htag hb with ht' | ht'
      · rw [(hm _ _ _).2 ⟨hl, ht', hrr⟩] at hgone; cases hgone
      · rw [hd] at ht' hrr
        rw [(hI.mirror _ _ _).2 ⟨hf, ht', hrr⟩] at hspec; cases hspec
    · have := hI.maxref_ge l hf
      rw [← hd, hrr, hr', uint16_le_iff] at this
      rw [uint16_lt_iff] at hc; omega
  refine ⟨fun l₁ l₂ h₁ h₂ hb hrr => ?_, hm, fun l hl => ?_⟩
  · by_cases ht : (g.dds l₁).tag = (g.dds l₂).tag
    · exact hm.eq_of_dds h₁ h₂ ht hrr
    rcases h.only l₁ h₁ with ⟨hf₁, hd₁⟩ | hn₁ <;> rcases h.only l₂ h₂ with ⟨hf₂, hd₂⟩ | hn₂
    · rw [hd₁, hd₂] at hb hrr; exact hI.unique l₁ l₂ hf₁ hf₂ hb hrr
    · exact (hold l₁ l₂ h₁ hf₁ hd₁ hn₂ hb hrr).elim
    · exact (hold l₂ l₁ h₂ hf₂ hd₂ hn₁ hb.symm hrr.symm).elim
    · exfalso
      rcases hn₁ with ⟨ht₁, hr₁⟩ | ⟨ht₁, hr₁⟩ <;> rcases hn₂ with ⟨ht₂, hr₂⟩ | ⟨ht₂, hr₂⟩
      · exact ht (ht₁.trans ht₂.symm)
      · rw [ht₁, ht₂, hbase] at hb; rw [hr₁, hr₂] at hrr; exact hcol ⟨hb, hrr⟩
      · rw [ht₁, ht₂, hbase] at hb; rw [hr₁, hr₂] at hrr; exact hcol ⟨hb.symm, hrr.symm⟩
      · exact ht (ht₁.trans ht₂.symm)
  · rcases h.only l hl with ⟨hf, hd⟩ | ⟨-, hr'⟩ | ⟨-, hr'⟩
    · rw [hd]; exact Nat.le_trans (hI.maxref_ge l hf) hmax
    · rw [hr']; exact hr
    · rw [hr']; exact hcm

end CreateFrame

/-! ## Where `HCcreate` puts its descriptor -/

/-- Slot `l` of `g` holds `d`, the hash index maps `d`'s pair to it, and the file holds `buf` at
`d`'s offset. -/
structure DescAt (g : FileRec) (l : Loc) (d : DD) (buf : List UInt8) : Prop where
  valid : g.Valid l
  dd : g.dds l = d
  hash : g.hash d.tag d.ref = some l
  disk : g.bytesAt d.offset.toNat buf.length = buf

namespace DescAt

variable {g g' : FileRec} {l : Loc} {d : DD} {buf : List UInt8}

theorem live (h : DescAt g l d buf) (hd : d.tag ≠ DFTAG_NULL) : g.Live l := ⟨h.valid, h.dd ▸ hd⟩

theorem grows (h : DescAt g l d buf) (hg : g.Grows g') : DescAt g' l d buf :=
  ⟨(hg.valid l h.valid).1, (hg.valid l h.valid).2.trans h.dd, hg.hash ▸ h.hash,
    (FileRec.bytesAt_congr hg.disk _ _).trans h.disk⟩

theorem of_dir (h : DescAt g l d buf) (hn : g'.ndds = g.ndds) (hd : g'.dds = g.dds)
    (hh : g'.hash = g.hash) (hk : g'.disk = g.disk) : DescAt g' l d buf :=
  ⟨by simpa [FileRec.Valid, hn] using h.valid, hd ▸ h.dd, hh ▸ h.hash,
    (FileRec.bytesAt_congr hk _ _).trans h.disk⟩

theorem setDD (h : DescAt g l d buf) {l' : Loc} (hne : l' ≠ l) (d' : DD) :
    DescAt (g.setDD l' d') l d buf :=
  ⟨h.valid, by simp [h.dd, Ne.symm hne], h.hash, h.disk⟩

theorem setHash (h : DescAt g l d buf) {t r : UInt16} (hk : ¬(d.tag = t ∧ d.ref = r)) (v : Option Loc) :
    DescAt (g.setHash t r v) l d buf :=
  ⟨h.valid, h.dd, by simp [hk, h.hash], h.disk⟩

/-- Freeing the slot of another pair and dropping that pair's entry keeps `d` where it is. -/
theorem delete {F : FileRec} {l₀ : Loc} (h : DescAt F l₀ d buf) (hm : F.Mirror) {tag ref : UInt16} {l : Loc}
    (hl : F.hash tag ref = some l) (hk : ¬(d.tag = tag ∧ d.ref = ref)) :
    DescAt (hiDelHashDD (F.setDD l { F.dds l with tag := DFTAG_NULL }) tag ref) l₀ d buf := by
  have hne : l ≠ l₀ := by
    rintro rfl; obtain ⟨-, ht, hr⟩ := hm.dds_of_hash hl; rw [h.dd] at ht hr; exact hk ⟨ht, hr⟩
  exact (h.setDD hne _).setHash hk none

end DescAt

section Header

variable (f : FileRec) {l : Loc} (st ref : UInt16) (buf : List UInt8)

@[simp] theorem headerDD_tag (n : Nat) : (headerDD f l st ref n).tag = st := rfl
@[simp] theorem headerDD_ref (n : Nat) : (headerDD f l st ref n).ref = ref := rfl

@[simp] theorem headerFile_hash (t r : UInt16) :
    (headerFile f l st ref buf).hash t r = if t = st ∧ r = ref then some l else f.hash t r := rfl
@[simp] theorem headerFile_maxref : (headerFile f l st ref buf).maxref = f.maxref := rfl
@[simp] theorem headerFile_attach : (headerFile f l st ref buf).attach = f.attach := rfl
@[simp] theorem headerFile_ndds : (headerFile f l st ref buf).ndds = f.ndds := rfl

theorem headerFile_dds (l' : Loc) :
    (headerFile f l st ref buf).dds l' = if l' = l then headerDD f l st ref buf.length else f.dds l' := rfl

theorem headerFile_eof : (headerFile f l st ref buf).eof = f.eof + buf.length := max_self _

/-- The descriptor `HCIwrite_header` writes is in its slot, entered in the hash index, and on
disk at the block's offset. -/
theorem headerFile_descAt (hv : f.Valid l) (hfit : f.eof ≤ 2147483647) :
    DescAt (headerFile f l st ref buf) l (headerDD f l st ref buf.length) buf := by
  have hoff : (headerDD f l st ref buf.length).offset.toNat = f.eof := by
    simp [headerDD, wrap32_of_isInt32 (show IsInt32 (f.eof : Int) from ⟨by omega, by omega⟩)]
  refine ⟨hv, by simp [headerFile_dds], by simp, ?_⟩
  rw [hoff]
  exact FileRec.bytesAt_hpWrite_self _ buf

/-- Filling a free slot with the descriptor of a pair with no entry keeps the mirror. -/
theorem headerFile_mirror (hm : f.Mirror) (hv : f.Valid l) (hfree : (f.dds l).tag = DFTAG_NULL)
    (hst : st ≠ DFTAG_NULL) (hnew : f.hash st ref = none) : (headerFile f l st ref buf).Mirror := by
  have hm' : (hpWrite { f with eof := f.eof + buf.length, fpos := f.eof } buf).Mirror :=
    hm.of_live (fun _ => Iff.rfl) (fun _ _ => rfl) rfl
  exact @FileRec.Mirror.insert _ hm' _ (headerDD f l st ref buf.length) hv hfree hst hnew

end Header

/-! ## Between the phases -/

/-- Between two phases of `HCcreate` of `(tag, ref)` on file `f`, with backing ref `c`: file `F`
is within the frame, its hash index mirrors its slots, and slot `lD` holds the descriptor `d`
with the bytes `buf`. -/
structure CreateStage (f F : FileRec) (tag ref c : UInt16) (ld : Option Loc) (lD : Loc) (d : DD)
    (buf : List UInt8) : Prop where
  frame : CreateFrame f F tag ref c ld
  mirror : F.Mirror
  desc : DescAt F lD d buf

namespace CreateStage

variable {f F F' : FileRec} {tag ref c : UInt16} {ld : Option Loc} {lD : Loc} {d : DD}
  {buf : List UInt8}

theorem of_dir (h : CreateStage f F tag ref c ld lD d buf) (hn : F'.ndds = F.ndds)
    (hd : F'.dds = F.dds) (hh : F'.hash = F.hash) (hk : F'.disk = F.disk) :
    CreateStage f F' tag ref c ld lD d buf :=
  ⟨h.frame.of_dir hn hd hh, h.mirror.of_dir hn hd hh, h.desc.of_dir hn hd hh hk⟩

/-- `HCIwrite_header` into a free slot of a grown file starts the stage. -/
theorem header (hI : StoreInv f) {f₁ : FileRec} (hg : f.Grows f₁) (hv : f₁.Valid lD)
    (hfree : (f₁.dds lD).tag = DFTAG_NULL) (hspec : f.hash (MKSPECIALTAG tag) ref = none)
    (hfit : f₁.eof ≤ 2147483647) (m c : UInt16) (buf : List UInt8) :
    CreateStage f (headerFile { f₁ with maxref := m } lD (MKSPECIALTAG tag) ref buf) tag ref c none lD
      (headerDD { f₁ with maxref := m } lD (MKSPECIALTAG tag) ref buf.length) buf := by
  have hm : ({ f₁ with maxref := m } : FileRec).Mirror := (hg.mirror hI.mirror).of_dir rfl rfl rfl
  have hfr : CreateFrame f { f₁ with maxref := m } tag ref c none :=
    ((CreateFrame.refl f tag ref c none).grows hg).of_dir rfl rfl rfl
  refine ⟨hfr.headerFile (fun h => (hg.live_of h).1.2 hfree) buf, ?_, headerFile_descAt _ _ _ _ hv hfit⟩
  exact headerFile_mirror _ _ _ _ hm hv hfree (MKSPECIALTAG_ne_null tag) (hg.hash ▸ hspec)

/-- The model's `stwrite` keeps the stage and adds the backing element. -/
theorem stwrite (h : CreateStage f F tag ref c none lD d buf) (hd : d.tag = MKSPECIALTAG tag)
    (hfresh : F.hash DFTAG_COMPRESSED c = none) (hs : modelStwrite F c = some F') :
    CreateStage f F' tag ref c none lD d buf ∧
      (∃ lb d', DescAt F' lb d' [] ∧ d'.tag = DFTAG_COMPRESSED ∧ d'.ref = c) ∧
      F'.eof ≤ F.eof + (6 + 12 * FILE_NDDS) + 1 ∧ F'.maxref = F.maxref ∧ F'.attach = F.attach := by
  obtain ⟨g, lb, d', hg, heof, hvb, hfb, ht, hr, rfl⟩ := modelStwrite_eq_some hs
  have hdg := h.desc.grows hg
  have hne : lb ≠ lD := fun he => by
    rw [he, hdg.dd, hd] at hfb; exact MKSPECIALTAG_ne_null _ hfb
  have hk : ¬(d.tag = DFTAG_COMPRESSED ∧ d.ref = c) := fun hk =>
    MKSPECIALTAG_ne_compressed tag (hd ▸ hk.1)
  refine ⟨⟨h.frame.stwrite hs, ?_, (hdg.setDD hne d').setHash hk _⟩,
    ⟨lb, d', ⟨hvb, by simp [hiAddHashDD], by simp [ht, hr], rfl⟩, ht, hr⟩, heof, hg.maxref, hg.attach⟩
  rw [← ht, ← hr]
  exact (hg.mirror h.mirror).insert hvb hfb (by rw [ht]; decide) (by rw [ht, hr, hg.hash]; exact hfresh)

/-- `Hdeldd` of the old element keeps the stage, with the old element gone. -/
theorem delete (h : CreateStage f F tag ref c none lD d buf) (hd : d.tag = MKSPECIALTAG tag)
    (htag : SPECIALTAG tag = false) {l : Loc} (hl : F.hash tag ref = some l) :
    CreateStage f (hiDelHashDD (F.setDD l { F.dds l with tag := DFTAG_NULL }) tag ref) tag ref c
      (some l) lD d buf :=
  ⟨h.frame.delete, h.mirror.delete hl,
    h.desc.delete h.mirror hl fun hk => MKSPECIALTAG_ne_self htag (hd ▸ hk.1)⟩

end CreateStage

/-! ## The phases, with every way out -/

/-- A failed `HCIwrite_header` leaves slot `l` holding a DD of the pair, in a file that is
otherwise the old one with other bytes and another end. -/
def HeaderFail (f f' : FileRec) (l : Loc) (special_tag ref : UInt16) : Prop :=
  ∃ g d, f.SameDir g ∧ f' = g.setDD l d ∧ d.tag = special_tag ∧ d.ref = ref

section Phases

variable {E : Dfe → HState → Prop} {s : HState}

theorem wp_hiGetAccessSlot {Q : Option Nat → HState → Prop}
    (hq : ∀ slot, slot < MAX_ACC → (s.acc slot).used = false →
      Q (some slot) (s.setAcc slot { s.acc slot with used := true }))
    (hn : (∀ i < MAX_ACC, (s.acc i).used = true) → Q none s) :
    wp hiGetAccessSlot Q E s := by
  simp only [hiGetAccessSlot, wp_bind, wp_get]
  split
  · rename_i hn'
    exact hn fun i hi => by simpa using List.find?_eq_none.1 hn' i (List.mem_range.2 hi)
  · rename_i slot hs
    obtain ⟨h1, h2⟩ := find_slot_spec hs
    simpa using hq slot h1 h2

theorem wp_hcCreateLookup {f : FileRec} {slot : Nat} {tag ref : UInt16}
    {Q : Option Loc → HState → Prop}
    (hq : (∀ l, hiLookupDD f tag ref = some l → SPECIALTAG (f.dds l).tag = false) →
      Q (hiLookupDD f tag ref) s)
    (he : ∀ l, hiLookupDD f tag ref = some l → SPECIALTAG (f.dds l).tag = true →
      E .cantMod (s.setAcc slot { s.acc slot with used := false })) :
    wp (hcCreateLookup f slot tag ref) Q E s := by
  unfold hcCreateLookup
  split
  · rename_i h; rw [h] at hq; exact hq (by simp)
  · rename_i l h
    cases hs : SPECIALTAG (f.dds l).tag
    · rw [h] at hq; simpa [hs] using hq (by simp [hs])
    · simpa [hs] using he l h hs

theorem wp_hcCreateEmptyDD {o : CreateOutcome} {fid : Int} {slot : Nat}
    {Q : Unit → HState → Prop}
    (hq : ∀ f₁ lD, (s.files fid).Grows f₁ → f₁.eof ≤ (s.files fid).eof + (6 + 12 * FILE_NDDS) →
      f₁.Valid lD → (f₁.dds lD).tag = DFTAG_NULL →
      Q () ((s.setFile fid f₁).setAcc slot { s.acc slot with loc := lD }))
    (he : o.newDDBlock = false → E .noFreeDD (s.setAcc slot { s.acc slot with used := false })) :
    wp (hcCreateEmptyDD o fid slot) Q E s := by
  simp only [hcCreateEmptyDD, wp_bind, wp_getFile]
  split
  · rename_i lD h
    obtain ⟨hv, hfree⟩ := FileRec.hiLookupDD_null_some h
    simpa [HState.setFile_self] using hq _ lD (.refl _) (Nat.le_add_right _ _) hv hfree
  · cases ho : o.newDDBlock
    · simpa [ho] using he ho
    · simpa [ho] using hq _ _ (.newBlock _ _) le_rfl
        (by simp [FileRec.Valid, FILE_NDDS, DEF_NDDS]) (by simp [DD.empty])

theorem wp_hcCreateInfo {DFKNTsize : Int → Int} {o : CreateOutcome} {fid : Int} {slot : Nat}
    {data_dd : Option Loc} {model_type coder_type : Nat} {c_info : CompParams}
    {Q : CompInfo → HState → Prop}
    (hq : ∀ junk info, o.mallocInfo = some junk → info = { junk with
        length := match data_dd with
          | some l => ((s.files fid).dds l).length
          | none => COMP_START_BLOCK
        attached := 1
        compRef := (hNewref (s.files fid)).1
        minfo := (hciInitModel junk.minfo model_type).1
        cinfo := (hciInitCoder DFKNTsize junk.cinfo coder_type c_info).1 } →
      Q info ((s.setFile fid (hNewref (s.files fid)).2).setAcc slot { s.acc slot with info := info }))
    (he : o.mallocInfo = none → E .noSpace (s.setAcc slot { s.acc slot with used := false })) :
    wp (hcCreateInfo DFKNTsize o fid slot data_dd model_type coder_type c_info) Q E s := by
  cases ho : o.mallocInfo with
  | none => simpa [hcCreateInfo, ho] using he ho
  | some junk =>
    simp only [hcCreateInfo, ho, wp_bind, wp_getFile, wp_modifyFile, wp_modifyAcc, wp_pure,
      HState.setFile_acc, HState.setFile_files, if_true]
    exact hq junk _ ho rfl

/-- `HCIwrite_header` with every way out: a failure leaves slot `l` holding a DD of the pair in
a file that is otherwise the old one, with more bytes past its old end. -/
theorem wp_hciWriteHeader_keeps {o : CreateOutcome} {fid : Int} {slot : Nat} {info : CompInfo}
    {st ref : UInt16} {Q : Unit → HState → Prop}
    (hq : o.getDiskBlock = true → o.writeHeader = true → o.updateDD = true → o.addHash = true →
      (s.files fid).eof + (compHeaderBytes info).length ≤ 2147483647 →
      ∀ F, F = headerFile (s.files fid) (s.acc slot).loc st ref (compHeaderBytes info) →
      Q () (s.setFile fid F))
    (he : ∀ e g d, (s.files fid).SameDir g → (s.files fid).Keeps g → d.tag = st → d.ref = ref →
      ¬(o.getDiskBlock = true ∧ o.writeHeader = true ∧ o.updateDD = true ∧ o.addHash = true ∧
        (s.files fid).eof + (compHeaderBytes info).length ≤ 2147483647) →
      E e ((s.setFile fid (g.setDD (s.acc slot).loc d)).setAcc slot { s.acc slot with used := false })) :
    wp (hciWriteHeader o fid slot info st ref) Q E s := by
  have hlen : wrap32 (compHeaderBytes info).length = (compHeaderBytes info).length := by
    apply wrap32_of_isInt32
    have := length_compHeaderBytes_le info
    constructor <;> omega
  set F := s.files fid
  set l := (s.acc slot).loc
  set buf := compHeaderBytes info
  set d₀ : DD := ({ F.dds l with tag := st, ref := ref } : DD).setLength buf.length
  simp only [hciWriteHeader, wp_bind, wp_getAcc, wp_modifyFile, wp_getFile, HState.setFile_files,
    if_true, FileRec.setDD_dds, DD.setLength_length, hlen, hpGetDiskBlock_setDD]
  -- the block taken at the end of the file, before and after the descriptor is written there
  have hk : F.Keeps { F with eof := F.eof + buf.length, fpos := F.eof } :=
    .of_dir rfl rfl rfl (Nat.le_add_right _ _)
  have hk' : F.Keeps (hpWrite { F with eof := F.eof + buf.length, fpos := F.eof } buf) := hk.hpWrite le_rfl buf
  cases hg : o.getDiskBlock
  · simpa [FileRec.setDD_setDD] using
      he .internal F (d₀.setOffset FAIL) (.refl _) (.refl _) rfl rfl (by simp [hg])
  rcases hp : hpGetDiskBlock F buf.length with _ | ⟨off, G⟩
  · have hn : ¬(F.eof + buf.length ≤ 2147483647) := fun hfit => by
      rw [hpGetDiskBlock_of_le _ (by simpa using hfit)] at hp; cases hp
    simpa [hp, FileRec.setDD_setDD] using
      he .internal F (d₀.setOffset FAIL) (.refl _) (.refl _) rfl rfl fun h => hn h.2.2.2.2
  obtain ⟨rfl, rfl, hfit⟩ := hpGetDiskBlock_eq_some _ hp
  simp only [if_true, hp, Option.map_some', wp_bind, wp_modifyFile, HState.setFile_files, if_true,
    FileRec.setDD_setDD, FileRec.setDD_dds, HState.setFile_setFile, wp_ite, wp_release, wp_throw,
    HState.setFile_acc, Int.toNat_natCast]
  cases hw : o.writeHeader
  · simp only [Bool.not_false, if_true]
    exact he .writeError _ _ (.setEof F _ _) hk rfl rfl (by simp [hw])
  simp only [Bool.not_true, Bool.false_eq_true, if_false, wp_pure, HState.setFile_files,
    HState.setFile_acc, HState.setFile_setFile, if_true]
  cases hu : o.updateDD
  · simp only [Bool.not_false, if_true, hpWrite_setDD]
    exact he .cantUpdate _ _ ((FileRec.SameDir.setEof F _ _).hpWrite buf) hk' rfl rfl (by simp [hu])
  simp only [Bool.not_true, Bool.false_eq_true, if_false, wp_pure]
  cases ha : o.addHash
  · simp only [Bool.not_false, if_true, hpWrite_setDD]
    exact he .cantHash _ _ ((FileRec.SameDir.setEof F _ _).hpWrite buf) hk' rfl rfl (by simp [ha])
  simp only [Bool.not_true, Bool.false_eq_true, if_false, wp_pure, HState.setFile_files,
    HState.setFile_setFile]
  exact hq hg hw hu ha (by simpa using hfit) _ rfl

theorem wp_hciWriteHeader {o : CreateOutcome} {fid : Int} {slot : Nat} {info : CompInfo}
    {st ref : UInt16} {Q : Unit → HState → Prop}
    (hq : o.getDiskBlock = true → o.writeHeader = true → o.updateDD = true → o.addHash = true →
      (s.files fid).eof + (compHeaderBytes info).length ≤ 2147483647 →
      ∀ F, F = headerFile (s.files fid) (s.acc slot).loc st ref (compHeaderBytes info) →
      Q () (s.setFile fid F))
    (he : ∀ e F, HeaderFail (s.files fid) F (s.acc slot).loc st ref →
      ¬(o.getDiskBlock = true ∧ o.writeHeader = true ∧ o.updateDD = true ∧ o.addHash = true ∧
        (s.files fid).eof + (compHeaderBytes info).length ≤ 2147483647) →
      E e ((s.setFile fid F).setAcc slot { s.acc slot with used := false })) :
    wp (hciWriteHeader o fid slot info st ref) Q E s :=
  wp_hciWriteHeader_keeps hq fun e g d hg _ ht hr => he e _ ⟨g, d, hg, rfl, ht, hr⟩

theorem wp_hcCreateStwrite {o : CreateOutcome} {fid : Int} {slot : Nat}
    {Q : Unit → HState → Prop}
    (hq : ∀ f', o.stwrite = true → modelStwrite (s.files fid) (s.acc slot).info.compRef = some f' →
      Q () (s.setFile fid f'))
    (he : (o.stwrite = true → modelStwrite (s.files fid) (s.acc slot).info.compRef = none) →
      E .model (s.setAcc slot { s.acc slot with used := false })) :
    wp (hcCreateStwrite o fid slot) Q E s := by
  simp only [hcCreateStwrite, wp_bind, wp_getFile, wp_getAcc]
  split
  · rename_i h; exact by simpa using he fun ho => by simpa [ho] using h
  · rename_i f' h
    cases ho : o.stwrite
    · simp [ho] at h
    · simp only [ho, if_true] at h
      simpa using hq f' ho h

/-- The migration of the old element in slot `l`. Every failure before `HIdel_hash_dd` leaves
the file's slots and hash index as they were; a failed `HIdel_hash_dd` comes after `Hdeldd`. -/
theorem wp_hcCreateMigrate {o : CreateOutcome} {fid : Int} {slot : Nat} {l : Loc}
    {Q : Unit → HState → Prop} (hfid : (s.acc slot).fileId = fid)
    (hq : ∀ f₁ a₁ r₁ a₂ r₂ f₂, o.mallocBuf = true → o.getElement = true →
      hcpWrite (s.files fid) (s.acc slot) ((s.files fid).dds l).length o.write = (f₁, a₁, .ok r₁) →
      hcpSeek a₁ 0 DF_START o.seek = (a₂, .ok r₂) → o.deldd = true →
      hDeldd f₁ (f₁.dds l).tag (f₁.dds l).ref = some f₂ → o.delHash = true →
      Q () ((s.setFile fid (hiDelHashDD f₂ (f₂.dds l).tag (f₂.dds l).ref)).setAcc slot a₂))
    (he : ∀ e G (a' : AccRec), (s.files fid).SameDir G →
      (o.mallocBuf = true → o.getElement = true → ∀ f₁ a₁ r₁,
        hcpWrite (s.files fid) (s.acc slot) ((s.files fid).dds l).length o.write = (f₁, a₁, .ok r₁) →
        ∀ a₂ r₂, hcpSeek a₁ 0 DF_START o.seek = (a₂, .ok r₂) → o.deldd = true →
        hDeldd f₁ (f₁.dds l).tag (f₁.dds l).ref = none) →
      E e ((s.setFile fid G).setAcc slot { a' with used := false }))
    (hd : ∀ G f₂ (a' : AccRec), (s.files fid).SameDir G → o.delHash = false →
      hDeldd G (G.dds l).tag (G.dds l).ref = some f₂ →
      E .cantDelHash ((s.setFile fid f₂).setAcc slot { a' with used := false })) :
    wp (hcCreateMigrate o fid slot l) Q E s := by
  simp only [hcCreateMigrate, hcCreateDeldd, hcpAt, wp_bind, wp_getFile, wp_get, wp_set,
    wp_tryCatch, wp_discard, wp_ofExcept, wp_ite, wp_modifyFile, wp_pure, wp_release, wp_throw, hfid]
  cases hb : o.mallocBuf
  · simpa [hfid, HState.setFile_self] using
      he .noSpace (s.files fid) (s.acc slot) (.refl _) fun h => by simp [hb] at h
  cases hg : o.getElement
  · simpa [hfid, HState.setFile_self] using
      he .readError (s.files fid) (s.acc slot) (.refl _) fun _ h => by simp [hg] at h
  have h₁ := hcpWrite_sameDir (s.files fid) (s.acc slot) ((s.files fid).dds l).length o.write
  rcases hw : hcpWrite (s.files fid) (s.acc slot) ((s.files fid).dds l).length o.write with
    ⟨f₁, a₁, e₁ | r₁⟩ <;> rw [hw] at h₁
  · simpa [hw] using he .model f₁ a₁ h₁ fun _ _ _ _ _ h => by simp [hw] at h
  have ha₁ : a₁.fileId = fid := by rw [(hcpWrite_ok hw).2.2.1]; exact hfid
  -- the premise of `he` for the runs that got through the write
  have hpre : ∀ a₂ r₂, hcpSeek a₁ 0 DF_START o.seek = (a₂, .ok r₂) → o.deldd = true →
      hDeldd f₁ (f₁.dds l).tag (f₁.dds l).ref = none →
      o.mallocBuf = true → o.getElement = true → ∀ f₁' a₁' r₁',
        hcpWrite (s.files fid) (s.acc slot) ((s.files fid).dds l).length o.write = (f₁', a₁', .ok r₁') →
        ∀ a₂' r₂', hcpSeek a₁' 0 DF_START o.seek = (a₂', .ok r₂') → o.deldd = true →
        hDeldd f₁' (f₁'.dds l).tag (f₁'.dds l).ref = none := by
    intro _ _ _ _ hn _ _ _ _ _ hw' _ _ _ _
    obtain ⟨rfl, rfl, -⟩ := Prod.mk.inj_iff.1 (hw.symm.trans hw')
    exact hn
  rcases hs : hcpSeek a₁ 0 DF_START o.seek with ⟨a₂, e₂ | r₂⟩ <;>
    simp only [hw, hs, ha₁, HState.setAcc_acc, HState.setFile_files, HState.setAcc_files,
      HState.setFile_acc, HState.setAcc_setFile, HState.setFile_setFile, HState.setAcc_setAcc,
      if_true, Bool.not_true, Bool.false_eq_true, if_false]
  · refine he .model f₁ a₂ h₁ fun _ _ f₁' a₁' r₁' hw' a₂' r₂' hs' _ => ?_
    obtain ⟨rfl, rfl, -⟩ := Prod.mk.inj_iff.1 (hw.symm.trans hw')
    rw [hs] at hs'; cases hs'
  cases hdl : o.deldd
  · exact by simpa using he .cantDelDD f₁ a₂ h₁ fun _ _ _ _ _ _ _ _ _ h => by simp [hdl] at h
  rcases hf₂ : hDeldd f₁ (f₁.dds l).tag (f₁.dds l).ref with _ | f₂
  · simpa [hf₂] using he .cantDelDD f₁ a₂ h₁ (hpre a₂ r₂ hs hdl hf₂)
  cases hdh : o.delHash
  · simpa [hf₂] using hd f₁ f₂ a₂ h₁ hdh hf₂
  simpa [hf₂] using hq f₁ a₁ r₁ a₂ r₂ f₂ hb hg hw hs hdl hf₂ hdh

end Phases

/-- `stwrite` succeeds when the grown file still ends within `int32` offsets. -/
theorem modelStwrite_isSome (f : FileRec) (c : UInt16)
    (h : f.eof + (6 + 12 * FILE_NDDS) + 1 ≤ 2147483647) : (modelStwrite f c).isSome := by
  have heof := (hiAllocateDD_grows f).2
  rcases ha : hiAllocateDD f with ⟨lb, g⟩
  simp only [ha] at heof
  simp only [modelStwrite, ha]
  rw [hpGetDiskBlock_of_le _ (by simp [COMP_START_BLOCK]; omega)]
  rfl

end Hdf4
