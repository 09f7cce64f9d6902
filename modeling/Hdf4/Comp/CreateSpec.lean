import Hdf4.Comp.Create

/-!
# `HCcreate` when every call succeeds

When the file store, the allocator and the model grant every call, `HCcreate` goes through
all its phases: it takes an access slot and a free DD slot, writes the descriptor, starts
the model (which adds the backing element), and migrates the old regular element, if there is
one, through `HCPwrite` before deleting it. This file follows one such run from start to end.

* `CreateOutcome.AllOk` says that every call succeeds; `CreatePre` is what the state needs
  for the run to succeed: the store invariant, a writable file, a free access slot, a
  non-special tag and a ref that is not the wildcard, no special element under the pair, a
  non-negative old length, a ref left for `Hnewref` and room for two blocks;
* `emptyFile` and `oneFile` (a chain holding the regular element `(1, 1)`) are the files the
  examples run on, with `CreateOutcome.success`, in which every call succeeds;
* `wp_hcCreate_ok`: such a run returns an AID and leaves `CreateDone`, assembled from the
  phase rules of `Comp.Create` and the stage lemmas (`CreateStage.header`, `.stwrite`,
  `.delete`);
* `CreateResult` is the state after the conversion in the words of the invariant `I`;
  `hcCreate_converts` derives it from `CreateDone` whenever the descriptor's pair and the
  backing element's pair differ;
* `hcCreate_compressed_collides`: when they do not (a tag of `DFTAG_COMPRESSED` with the ref
  `Hnewref` hands out next), the run succeeds and breaks `I`.
-/

namespace Hdf4

/-- Every call `HCcreate` makes succeeds. -/
structure CreateOutcome.AllOk (o : CreateOutcome) (junk : CompInfo) : Prop where
  newDDBlock : o.newDDBlock = true
  mallocInfo : o.mallocInfo = some junk
  getDiskBlock : o.getDiskBlock = true
  writeHeader : o.writeHeader = true
  updateDD : o.updateDD = true
  addHash : o.addHash = true
  stwrite : o.stwrite = true
  mallocBuf : o.mallocBuf = true
  getElement : o.getElement = true
  write : o.write = ⟨true, true, true⟩
  seek : o.seek ≠ FAIL
  deldd : o.deldd = true
  delHash : o.delHash = true

/-- What `HCcreate` of `(tag, ref)` on file `fid` needs of the state to succeed when every call
it makes succeeds. -/
structure CreatePre (s : HState) (fid : Int) (tag ref : UInt16) : Prop where
  inv : StoreInv (s.files fid)
  valid : BADFREC (s.files fid) = false
  writable : (s.files fid).access &&& DFACC_WRITE ≠ 0
  regular : SPECIALTAG tag = false
  free_slot : ∃ i < MAX_ACC, (s.acc i).used = false
  not_wildcard : ref ≠ DFREF_WILDCARD
  not_special : (s.files fid).hash (MKSPECIALTAG tag) ref = none
  old_length : ∀ l, (s.files fid).hash tag ref = some l → 0 ≤ ((s.files fid).dds l).length
  newref : (s.files fid).maxref < 0xFFFF
  room : (s.files fid).eof + 427 ≤ 2147483647

/-! ## Two files to run `HCcreate` on -/

/-- A file open for reading and writing, with an empty chain, nothing hashed and no byte. -/
def emptyFile : FileRec :=
  ⟨1, DFACC_RDWR, 0, 0, [], fun _ => DD.empty, fun _ _ => none, fun _ => 0, 0, 0⟩

/-- `emptyFile` with a chain of one block of one slot, holding the regular element `(1, 1)`
(four bytes at offset 0) and hashed under its pair. -/
def oneFile : FileRec :=
  { emptyFile with
    maxref := 1
    ndds := [1]
    dds := fun l => if l = ⟨0, 0⟩ then ⟨1, 1, 0, 4, by decide, by decide⟩ else DD.empty
    hash := fun t r => if t = 1 ∧ r = 1 then some ⟨0, 0⟩ else none
    eof := 4 }

/-- Every file id names file `f`, and no access record is in use. -/
def fileState (f : FileRec) : HState := ⟨fun _ => f, fun _ => default⟩

/-- The outcome of the calls of `HCcreate` in which every call succeeds. -/
def CreateOutcome.success : CreateOutcome :=
  ⟨true, some default, true, true, true, true, true, true, true, ⟨true, true, true⟩, 0, true, true⟩

theorem CreateOutcome.success_allOk : CreateOutcome.success.AllOk default :=
  ⟨rfl, rfl, rfl, rfl, rfl, rfl, rfl, rfl, rfl, rfl, by decide, rfl, rfl⟩

theorem StoreInv.emptyFile : StoreInv emptyFile := .of_empty rfl fun _ _ => rfl

theorem StoreInv.oneFile : StoreInv oneFile := .of_single rfl rfl (by decide) (fun _ _ => rfl) (by decide)

/-- `HCcreate` of a regular pair other than the wildcard may run on `emptyFile`. -/
theorem CreatePre.emptyFile {tag ref : UInt16} (htag : SPECIALTAG tag = false)
    (hr : ref ≠ DFREF_WILDCARD) : CreatePre (fileState emptyFile) 0 tag ref :=
  ⟨.emptyFile, rfl, by decide, htag, ⟨0, by decide, rfl⟩, hr, rfl, fun _ h => Option.noConfusion h,
    by decide, by decide⟩

/-- `HCcreate` of `(1, 1)` may run on `oneFile`, where it converts the element there. -/
theorem CreatePre.oneFile : CreatePre (fileState oneFile) 0 1 1 :=
  ⟨.oneFile, rfl, by decide, by decide, ⟨0, by decide, rfl⟩, by decide, rfl,
    fun _ h => by cases h; decide, by decide, by decide⟩

variable {DFKNTsize : Int → Int} {o : CreateOutcome} {junk : CompInfo} {s : HState} {fid : Int}
  {tag ref : UInt16} {model_type coder_type : Nat} {c_info : CompParams}

/-- What every successful `HCcreate` on file `fid` does to the access records and the file
records: it opens the free record `slot` on `fid`, touches no other record and no other file,
and raises `attach`. -/
structure CreateOpens (s s' : HState) (fid : Int) (slot : Nat) : Prop where
  slot_lt : slot < MAX_ACC
  slot_free : (s.acc slot).used = false
  acc_other : ∀ i, i ≠ slot → s'.acc i = s.acc i
  files_other : ∀ i, i ≠ fid → s'.files i = s.files i
  used : (s'.acc slot).used = true
  fileId : (s'.acc slot).fileId = fid
  attach : (s'.files fid).attach = (s.files fid).attach + 1

/-- What a successful `HCcreate` of `(tag, ref)` on file `fid` leaves, from state `s` to `s'`,
with the access record in `slot`, whose `compinfo_t` has the model record `minfo` and the
coder record `cinfo`. -/
structure CreateDone (s s' : HState) (fid : Int) (slot : Nat) (tag ref : UInt16)
    (minfo : ModelInfo) (cinfo : CoderInfo) extends CreateOpens s s' fid slot : Prop where
  posn : (s'.acc slot).posn = 0
  special : (s'.acc slot).special = SPECIAL_COMP
  length : (s'.acc slot).info.length = match (s.files fid).hash tag ref with
    | some l => ((s.files fid).dds l).length
    | none => COMP_START_BLOCK
  compRef : (s'.acc slot).info.compRef = (s.files fid).maxref + 1
  minfo : (s'.acc slot).info.minfo = minfo
  cinfo : (s'.acc slot).info.cinfo = cinfo
  maxref : (s.files fid).maxref + 1 ≤ (s'.files fid).maxref ∧ ref ≤ (s'.files fid).maxref
  stage : ∃ d, CreateStage (s.files fid) (s'.files fid) tag ref ((s.files fid).maxref + 1)
    ((s.files fid).hash tag ref) (s'.acc slot).loc d (compHeaderBytes (s'.acc slot).info) ∧
    d.tag = MKSPECIALTAG tag ∧ d.ref = ref ∧ 0 ≤ d.offset ∧
    d.offset + (compHeaderBytes (s'.acc slot).info).length ≤ 2147483647 ∧
    d.length = (compHeaderBytes (s'.acc slot).info).length
  backing : ∃ lb d, DescAt (s'.files fid) lb d [] ∧ d.tag = DFTAG_COMPRESSED ∧
    d.ref = (s.files fid).maxref + 1
  gone : ¬(tag = DFTAG_COMPRESSED ∧ ref = (s.files fid).maxref + 1) →
    (s'.files fid).hash tag ref = none

theorem wp_hcCreate_ok (DFKNTsize : Int → Int) (model_type coder_type : Nat) (c_info : CompParams)
    (hpre : CreatePre s fid tag ref) (ho : o.AllOk junk) :
    wp (hcCreate DFKNTsize o fid tag ref model_type coder_type c_info)
      (fun aid s' => ∃ slot, aid = ASLOT2ID slot ∧ CreateDone s s' fid slot tag ref
        (hciInitModel junk.minfo model_type).1 (hciInitCoder DFKNTsize junk.cinfo coder_type c_info).1)
      (fun _ _ => False) s := by
  have hI := hpre.inv
  have hnull : (MKSPECIALTAG tag == DFTAG_NULL) = false := by simp [MKSPECIALTAG_ne_null]
  simp only [hcCreate, wp_bind, wp_getFile, hpre.valid, hpre.regular, hnull, Bool.or_false,
    Bool.false_eq_true, if_false, wp_ite, hpre.writable, wp_pure]
  refine wp_hiGetAccessSlot (fun slot hlt hfree => ?_) fun hall => ?_
  swap
  · obtain ⟨i, hi, hu⟩ := hpre.free_slot; simp [hall i hi] at hu
  have hlook := hiLookupDD_of_special_none hpre.not_wildcard hpre.not_special
  dsimp only
  rw [wp_bind]
  refine wp_hcCreateLookup (fun _ => ?_) fun l hl hs => ?_
  swap
  · rw [hlook] at hl
    rw [(hI.mirror.dds_of_hash hl).2.1, hpre.regular] at hs; cases hs
  rw [hlook, wp_bind]
  refine wp_hcCreateEmptyDD (fun f₁ lD hg heof hv hfreeD => ?_) fun h => nomatch ho.newDDBlock.symm.trans h
  simp only [HState.setAcc_files, FILE_NDDS, DEF_NDDS] at hg heof
  have hm : f₁.maxref < 0xFFFF := by simpa [hg.maxref] using hpre.newref
  rw [wp_bind]
  refine wp_hcCreateInfo (fun junk' info hj hinfo => ?_) fun h => nomatch ho.mallocInfo.symm.trans h
  obtain rfl : junk = junk' := Option.some_injective _ (ho.mallocInfo.symm.trans hj)
  simp only [HState.setAcc_files, HState.setFile_files, if_true, hNewref_of_lt _ hm] at hinfo ⊢
  have hbuf := length_compHeaderBytes_le info
  have hroom := hpre.room
  have hfit : (f₁.eof : Int) + (compHeaderBytes info).length ≤ 2147483647 := by omega
  rw [wp_bind, wp_tryCatch]
  refine wp_hciWriteHeader (fun _ _ _ _ _ F3 hF3 => ?_) fun _ _ _ hn => hn ⟨ho.getDiskBlock,
    ho.writeHeader, ho.updateDD, ho.addHash, by simp; omega⟩
  simp only [HState.setAcc_files, HState.setFile_files, if_true, HState.setAcc_acc] at hF3
  simp only [wp_bind, wp_modifyAcc, wp_modifyFile, HState.setAcc_files, HState.setFile_files,
    if_true, HState.setAcc_acc, HState.setFile_acc, HState.setFile_setFile, HState.setAcc_setAcc,
    HState.setAcc_setFile]
  -- the descriptor is in place
  have hst3 := CreateStage.header hI hg hv hfreeD hpre.not_special
    (by omega) (f₁.maxref + 1) ((s.files fid).maxref + 1)
    (compHeaderBytes info)
  rw [← hF3] at hst3
  set d := headerDD { f₁ with maxref := f₁.maxref + 1 } lD (MKSPECIALTAG tag) ref
    (compHeaderBytes info).length with hd
  have hdlen : d.length = ((compHeaderBytes info).length : Int) :=
    wrap32_of_isInt32 ⟨by linarith [Int.natCast_nonneg (compHeaderBytes info).length],
      by exact_mod_cast hbuf.trans (by norm_num)⟩
  -- the file record update
  set F5 : FileRec := if F3.maxref < ref then { F3 with attach := F3.attach + 1, maxref := ref }
    else { F3 with attach := F3.attach + 1 } with hF5
  have h3 : F3.maxref = (s.files fid).maxref + 1 ∧ F3.attach = (s.files fid).attach ∧
      F3.eof = f₁.eof + (compHeaderBytes info).length := by
    rw [hF3, headerFile_maxref, headerFile_attach, headerFile_eof, hg.attach]; exact ⟨by rw [hg.maxref], rfl, rfl⟩
  have h5 : F5.ndds = F3.ndds ∧ F5.dds = F3.dds ∧ F5.hash = F3.hash ∧ F5.disk = F3.disk ∧
      F5.eof = F3.eof ∧ F5.attach = F3.attach + 1 := by
    rw [hF5]; split_ifs <;> exact ⟨rfl, rfl, rfl, rfl, rfl, rfl⟩
  have hm5 : F3.maxref ≤ F5.maxref ∧ ref ≤ F5.maxref := by
    rw [hF5]; split_ifs with hlt' <;> simp only [uint16_le_iff, uint16_lt_iff] at hlt' ⊢ <;> omega
  have hst5 := hst3.of_dir h5.1 h5.2.1 h5.2.2.1 h5.2.2.2.1
  -- the model's stwrite adds the backing element
  have hc : (s.files fid).maxref < (s.files fid).maxref + 1 := by
    rw [uint16_lt_iff, toNat_add_one_of_lt hpre.newref]; omega
  have hfresh : F5.hash DFTAG_COMPRESSED ((s.files fid).maxref + 1) = none := by
    rw [h5.2.2.1, hF3, headerFile_hash, if_neg (fun h => MKSPECIALTAG_ne_compressed tag h.1.symm)]
    exact hg.hash ▸ hI.hash_fresh hc _
  obtain ⟨F6, hF6⟩ := Option.isSome_iff_exists.1 (modelStwrite_isSome F5 ((s.files fid).maxref + 1)
    (by simp only [FILE_NDDS, DEF_NDDS]; omega))
  obtain ⟨hst6, ⟨lb, d', hbk, hdt', hdr'⟩, heof6, hmax6, hatt6⟩ := hst5.stwrite rfl hfresh hF6
  have hF6' : modelStwrite F5 info.compRef = some F6 := by simpa [hinfo, hg.maxref] using hF6
  refine wp_hcCreateStwrite (fun F hs hF => ?_) fun h => by
    have := h ho.stwrite; simp [hF6'] at this
  simp only [HState.setAcc_files, HState.setFile_files, if_true, HState.setAcc_acc, hF6',
    Option.some_inj] at hF
  subst hF
  rw [HState.setAcc_setFile, HState.setFile_setFile]
  set a : AccRec := ⟨true, fid, lD, 0, DFACC_RDWR, SPECIAL_COMP, false, false, info⟩ with ha
  have hoff : d.offset = f₁.eof := by
    simp only [hd, headerDD, DD.setOffset_offset]
    exact wrap32_of_isInt32 ⟨by omega, by omega⟩
  -- every way through the migration ends here
  have close : ∀ F, CreateStage (s.files fid) F tag ref ((s.files fid).maxref + 1)
      ((s.files fid).hash tag ref) lD d (compHeaderBytes info) →
      (∃ lb d', DescAt F lb d' [] ∧ d'.tag = DFTAG_COMPRESSED ∧ d'.ref = (s.files fid).maxref + 1) →
      F.attach = F6.attach → F.maxref = F6.maxref →
      (¬(tag = DFTAG_COMPRESSED ∧ ref = (s.files fid).maxref + 1) → F.hash tag ref = none) →
      ∃ slot', ASLOT2ID slot = ASLOT2ID slot' ∧ CreateDone s ((s.setFile fid F).setAcc slot a) fid
        slot' tag ref (hciInitModel junk.minfo model_type).1
        (hciInitCoder DFKNTsize junk.cinfo coder_type c_info).1 := by
    intro F hst hbk' hatt hmax hgone
    refine ⟨slot, rfl, ⟨hlt, hfree, fun i hi => by simp [hi], fun i hi => by simp [hi], by simp [ha],
      by simp [ha], ?_⟩, by simp [ha], by simp [ha], ?_, by simp [ha, hinfo, hg.maxref],
      by simp [ha, hinfo], by simp [ha, hinfo], ?_, ⟨d, by simpa [ha] using hst, rfl, rfl, ?_, ?_, ?_⟩,
      by simpa using hbk', by simpa using hgone⟩
    · simp [hatt, hatt6, h5.2.2.2.2.2, h3.2.1]
    · simp only [HState.setAcc_acc, if_true, ha, hinfo]
      cases hh : (s.files fid).hash tag ref with
      | none => rfl
      | some l => exact congrArg DD.length (hg.valid l (hI.mirror.dds_of_hash hh).1.1).2
    · simp only [HState.setAcc_files, HState.setFile_files, if_true, hmax, hmax6]
      rw [← h3.1]; exact hm5
    · rw [hoff]; exact Int.natCast_nonneg _
    · simpa [ha, hoff] using hfit
    · simpa [ha] using hdlen
  have hne : ¬(tag = MKSPECIALTAG tag ∧ ref = ref) := fun h => MKSPECIALTAG_ne_self hpre.regular h.1.symm
  rcases hld : (s.files fid).hash tag ref with _ | l
  · -- a new element
    simp only [wp_bind, wp_pure]
    exact close F6 (hld ▸ hst6) ⟨lb, d', hbk, hdt', hdr'⟩ rfl rfl
      fun hk => (hst6.frame.hash tag ref hne hk (.inl rfl)).trans hld
  · -- the old element goes through HCPwrite and is deleted
    obtain ⟨hlive, -, -⟩ := hI.mirror.dds_of_hash hld
    have hcol : ¬(tag = DFTAG_COMPRESSED ∧ ref = (s.files fid).maxref + 1) := fun h => by
      rw [h.1, h.2, hI.hash_fresh hc] at hld; cases hld
    have hF6l : F6.hash tag ref = some l := (hst6.frame.hash tag ref hne hcol (.inl rfl)).trans hld
    obtain ⟨-, ht6, hr6⟩ := hst6.mirror.dds_of_hash hF6l
    have hlen6 : a.info.length = (F6.dds l).length := by
      rw [(hst6.frame.kept l hlive (by simp)).2, ← (hg.valid l hlive.1).2]; simp [ha, hinfo, hld]
    have h0 : 0 ≤ a.info.length := by
      rw [hlen6, (hst6.frame.kept l hlive (by simp)).2]; exact hpre.old_length l hld
    have hw : hcpWrite F6 a (F6.dds l).length o.write =
        (F6, { a with posn := a.info.length }, .ok a.info.length) := by
      rw [ho.write, ← hlen6]; exact hcpWrite_fill rfl h0 (hlen6 ▸ (F6.dds l).length_fits.2)
    have hst7 := hst6.delete rfl hpre.regular hF6l
    have hdel : hDeldd F6 (F6.dds l).tag (F6.dds l).ref =
        some (hiDelHashDD (F6.setDD l { F6.dds l with tag := DFTAG_NULL }) tag ref) := by
      rw [ht6, hr6]; exact hDeldd_of_hash hpre.not_wildcard hF6l
    have hsk := hcpSeek_start { a with posn := a.info.length } ho.seek
    simp only [wp_bind]
    refine wp_hcCreateMigrate (by simp) (fun f₁ a₁ r₁ a₂ r₂ f₂ _ _ hw' hs' _ hd' _ => ?_)
      (fun _ _ _ _ hn => ?_) fun _ _ _ _ h => nomatch ho.delHash.symm.trans h
    swap
    · simp only [HState.setAcc_files, HState.setFile_files, if_true, HState.setAcc_acc] at hn
      rw [hn ho.mallocBuf ho.getElement _ _ _ hw _ _ hsk ho.deldd] at hdel; cases hdel
    simp only [HState.setAcc_files, HState.setFile_files, if_true, HState.setAcc_acc] at hw' hs' hd' ⊢
    obtain ⟨rfl, rfl, -⟩ := Prod.mk.inj_iff.1 (hw.symm.trans hw')
    obtain ⟨rfl, -⟩ := Prod.mk.inj_iff.1 (hsk.symm.trans hs')
    rw [hdel, Option.some_inj] at hd'
    subst hd'
    have hnull7 := hst7.mirror.hash_null ((F6.dds l).ref)
    rw [hiDelHashDD_of_none (by simpa [hiDelHashDD] using hnull7), HState.setAcc_setFile,
      HState.setFile_setFile, HState.setAcc_setAcc]
    exact close _ (hld ▸ hst7) ⟨lb, d', hbk.delete hst6.mirror hF6l (by rw [hdt', hdr']; exact fun h => hcol ⟨h.1.symm, h.2.symm⟩), hdt', hdr'⟩
      rfl rfl (fun _ => by simp)

/-! ## The conversion in the words of the invariant -/

/-- The file `f'` after `HCcreate` of `(tag, ref)` turned file `f` into a compressed element
with the access record `a`: the invariant holds; exactly one live DD has the special pair,
at `a`'s slot, and the hash index maps the pair there; the regular pair is gone from the
slots and the index; the descriptor's length field is the old element's length; a backing
element `(DFTAG_COMPRESSED, comp_ref)` exists; and nothing else changed. -/
structure CreateResult (f f' : FileRec) (a : AccRec) (tag ref : UInt16) : Prop where
  inv : StoreInv f'
  desc : ∀ l, (f'.Live l ∧ (f'.dds l).tag = MKSPECIALTAG tag ∧ (f'.dds l).ref = ref) ↔ l = a.loc
  desc_hash : f'.hash (MKSPECIALTAG tag) ref = some a.loc
  regular_gone : (∀ l, f'.Live l → ¬((f'.dds l).tag = tag ∧ (f'.dds l).ref = ref)) ∧
    f'.hash tag ref = none
  length : ∀ l, f.hash tag ref = some l → lengthField f' a = (f.dds l).length
  backing : ∃ lb, f'.Live lb ∧ (f'.dds lb).tag = DFTAG_COMPRESSED ∧
    (f'.dds lb).ref = a.info.compRef ∧ f'.hash DFTAG_COMPRESSED a.info.compRef = some lb
  frame : CreateFrame f f' tag ref a.info.compRef (f.hash tag ref)

/-- A finished run converts the file, provided the descriptor's pair and the backing pair
have different base tags or refs. -/
theorem CreateDone.result {s' : HState} {slot : Nat} {minfo : ModelInfo} {cinfo : CoderInfo}
    (hpre : CreatePre s fid tag ref) (hd : CreateDone s s' fid slot tag ref minfo cinfo)
    (hcol : ¬(tag = DFTAG_COMPRESSED ∧ ref = (s.files fid).maxref + 1)) :
    CreateResult (s.files fid) (s'.files fid) (s'.acc slot) tag ref := by
  obtain ⟨d, hst, hdt, hdr, -⟩ := hd.stage
  obtain ⟨lb, db, hbk, hbt, hbr⟩ := hd.backing
  have hgone := hd.gone hcol
  have hc := toNat_add_one_of_lt hpre.newref
  have hm := hd.maxref
  simp only [uint16_le_iff, hc] at hm
  have hdesc : (s'.files fid).hash (MKSPECIALTAG tag) ref = some (s'.acc slot).loc := by
    rw [← hdt, ← hdr]; exact hst.desc.hash
  refine ⟨hst.frame.storeInv hpre.inv hst.mirror hpre.regular hpre.not_special hgone
      (by rw [uint16_lt_iff, hc]; omega) hcol (by rw [uint16_le_iff]; omega) hm.2
      (by rw [uint16_le_iff, hc]; omega),
    fun l => by rw [← hst.mirror, hdesc, Option.some_inj, eq_comm], hdesc,
    ⟨fun l hl ht => (by rw [(hst.mirror _ _ _).2 ⟨hl, ht⟩] at hgone; cases hgone), hgone⟩,
    fun l hl => ?_, ⟨lb, hbk.live (by rw [hbt]; decide), by rw [hbk.dd, hbt],
      by rw [hbk.dd, hbr, hd.compRef], by rw [hd.compRef, ← hbr, ← hbt]; exact hbk.hash⟩,
    hd.compRef ▸ hst.frame⟩
  have hlen := hd.length
  rw [hl] at hlen
  rw [lengthField_of_disk (hlen ▸ (((s.files fid).dds l).length_fits)) (by rw [hst.desc.dd]; exact hst.desc.disk), hlen]

/-- `HCcreate` of a regular pair whose special version is not in use, on a file satisfying `I`
with room for its blocks, returns an AID when every call succeeds, and leaves the file
converted: `I` holds, the descriptor is the one live DD of the special pair, the regular pair
is gone, the length field is the old element's length, and nothing but the descriptor, the
backing element and the old element changed. The descriptor's pair must not collide with the
backing element's `(DFTAG_COMPRESSED, maxref + 1)`. -/
theorem hcCreate_converts (hpre : CreatePre s fid tag ref) (ho : o.AllOk junk)
    (hcol : ¬(tag = DFTAG_COMPRESSED ∧ ref = (s.files fid).maxref + 1)) :
    ∃ slot s', (hcCreate DFKNTsize o fid tag ref model_type coder_type c_info).run.run s =
      (.ok (ASLOT2ID slot), s') ∧ CreateResult (s.files fid) (s'.files fid) (s'.acc slot) tag ref := by
  obtain ⟨_, s', hrun, slot, rfl, hd⟩ :=
    exists_of_wp (wp_hcCreate_ok DFKNTsize model_type coder_type c_info hpre ho)
  exact ⟨slot, s', hrun, hd.result hpre hcol⟩

/-- `HCcreate` of `(1, 1)` on `oneFile`, which holds a regular element `(1, 1)`: the run goes
through the migration (`Hgetelement`, `HCPwrite`, `Hdeldd`, `HIdel_hash_dd`). -/
theorem hcCreate_converts_old :
    oneFile.hash 1 1 = some ⟨0, 0⟩ ∧
      ∃ slot s', (hcCreate (fun _ => 0) .success 0 1 1 COMP_MODEL_STDIO COMP_CODE_NONE
        default).run.run (fileState oneFile) = (.ok (ASLOT2ID slot), s') ∧
        CreateResult oneFile (s'.files 0) (s'.acc slot) 1 1 :=
  ⟨rfl, hcCreate_converts .oneFile CreateOutcome.success_allOk (by decide)⟩

/-! ## The descriptor against the backing element -/

/-- When the descriptor's pair is `(MKSPECIALTAG DFTAG_COMPRESSED, maxref + 1)`, it shares base
tag and ref with the backing element `stwrite` creates, so the finished run breaks `I`. -/
theorem CreateDone.collides {s' : HState} {slot : Nat} {minfo : ModelInfo} {cinfo : CoderInfo}
    (hd : CreateDone s s' fid slot tag ref minfo cinfo)
    (hcol : tag = DFTAG_COMPRESSED ∧ ref = (s.files fid).maxref + 1) : ¬StoreInv (s'.files fid) :=
  fun hI => by
    obtain ⟨d, hst, hdt, hdr, -⟩ := hd.stage
    obtain ⟨lb, db, hbk, hbt, hbr⟩ := hd.backing
    have hsame := hI.unique _ _ (hst.desc.live (by rw [hdt]; exact MKSPECIALTAG_ne_null tag))
      (hbk.live (by rw [hbt]; decide))
      (by rw [hst.desc.dd, hbk.dd, hdt, hbt, BASETAG_MKSPECIALTAG, hcol.1])
      (by rw [hst.desc.dd, hbk.dd, hdr, hbr, hcol.2])
    have htags := congrArg (fun l => ((s'.files fid).dds l).tag) hsame
    simp only [hst.desc.dd, hbk.dd, hdt, hbt, hcol.1] at htags
    exact MKSPECIALTAG_ne_compressed _ htags

/-- `HCcreate` of `DFTAG_COMPRESSED` with the ref `Hnewref` hands out next succeeds when every
call does, and leaves the invariant broken. -/
theorem hcCreate_breaks_inv (DFKNTsize : Int → Int) (model_type coder_type : Nat)
    (c_info : CompParams) (hpre : CreatePre s fid tag ref) (ho : o.AllOk junk)
    (hcol : tag = DFTAG_COMPRESSED ∧ ref = (s.files fid).maxref + 1) :
    ∃ slot s', (hcCreate DFKNTsize o fid tag ref model_type coder_type c_info).run.run s =
      (.ok (ASLOT2ID slot), s') ∧ ¬StoreInv (s'.files fid) := by
  obtain ⟨_, s', hrun, slot, rfl, hd⟩ :=
    exists_of_wp (wp_hcCreate_ok DFKNTsize model_type coder_type c_info hpre ho)
  exact ⟨slot, s', hrun, hd.collides hcol⟩

/-- `HCcreate` of `(DFTAG_COMPRESSED, 1)` on a writable file with an empty chain, with every
call succeeding, returns an AID and leaves the descriptor `(MKSPECIALTAG DFTAG_COMPRESSED, 1)`
and the backing element `(DFTAG_COMPRESSED, 1)` live together: the invariant held before and
does not after. -/
theorem hcCreate_compressed_collides :
    ∃ (s : HState) (o : CreateOutcome), StoreInv (s.files 0) ∧ o.AllOk default ∧
      ∃ slot s', (hcCreate (fun _ => 0) o 0 DFTAG_COMPRESSED 1 COMP_MODEL_STDIO COMP_CODE_NONE
        default).run.run s = (.ok (ASLOT2ID slot), s') ∧ ¬StoreInv (s'.files 0) :=
  ⟨fileState emptyFile, .success, .emptyFile, CreateOutcome.success_allOk,
    hcCreate_breaks_inv _ _ _ _ (.emptyFile (by decide) (by decide)) CreateOutcome.success_allOk
      ⟨rfl, rfl⟩⟩

end Hdf4
