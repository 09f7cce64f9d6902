import Hdf4.Basic

/-!
# The file store

The compression layer calls into the file store of `hfile.c` (`HIlookup_dd`,
`HInew_dd_block`, `HIupdate_dd`, `HIadd_hash_dd`, `HIdel_hash_dd`, `Hdeldd`, `Hnewref`,
`HPgetdiskblock`, `HPseek`, `HPread`, `HPwrite`). None of it is among the sources, so this
file models it from spec §3 and §4.B: a chain of DD blocks, a hash index from `(tag, ref)`
to slots, a `maxref` counter, and the file's bytes with a current position.

Each operation here is the effect of a call that succeeds. Whether an I/O or allocation
call succeeds is not decided here: the callers in `hcomp.c` take it as an outcome, so
every failure point can be exercised.

`StoreInv` is the store invariant: one live DD per `(BASETAG tag, ref)`, a hash index that
maps exactly the live pairs to their slots, and `maxref` above every live ref.
-/

namespace Hdf4

/-- A data descriptor `dd_t`. Its offset and length are `int32` fields, so they carry their
range. -/
structure DD where
  tag : UInt16
  ref : UInt16
  offset : Int
  length : Int
  offset_fits : IsInt32 offset
  length_fits : IsInt32 length
deriving DecidableEq, Repr

/-- The contents of a free slot. -/
def DD.empty : DD := ⟨DFTAG_NULL, 0, 0, 0, by decide, by decide⟩

/-- Store `x` in the `int32` field `offset`. -/
def DD.setOffset (d : DD) (x : Int) : DD := { d with offset := wrap32 x, offset_fits := isInt32_wrap32 x }

/-- Store `x` in the `int32` field `length`. -/
def DD.setLength (d : DD) (x : Int) : DD := { d with length := wrap32 x, length_fits := isInt32_wrap32 x }

@[simp] theorem DD.setOffset_tag (d : DD) (x : Int) : (d.setOffset x).tag = d.tag := rfl
@[simp] theorem DD.setOffset_ref (d : DD) (x : Int) : (d.setOffset x).ref = d.ref := rfl
@[simp] theorem DD.setOffset_length (d : DD) (x : Int) : (d.setOffset x).length = d.length := rfl
@[simp] theorem DD.setLength_tag (d : DD) (x : Int) : (d.setLength x).tag = d.tag := rfl
@[simp] theorem DD.setLength_ref (d : DD) (x : Int) : (d.setLength x).ref = d.ref := rfl
@[simp] theorem DD.setLength_offset (d : DD) (x : Int) : (d.setLength x).offset = d.offset := rfl
@[simp] theorem DD.setLength_length (d : DD) (x : Int) : (d.setLength x).length = wrap32 x := rfl
@[simp] theorem DD.setOffset_offset (d : DD) (x : Int) : (d.setOffset x).offset = wrap32 x := rfl

/-- A DD slot: the block's place in the chain and the index in its `ddlist`
(`access_rec->block`, `access_rec->idx`). -/
structure Loc where
  block : Nat
  idx : Nat
deriving DecidableEq, Repr

/-- `DEF_NDDS`: the number of slots of a new DD block (spec §4.B: default 16). -/
def DEF_NDDS : Nat := 16

/-- The part of a file record `filerec_t` the compression layer uses. -/
structure FileRec where
  /-- How many times the file is open; `BADFREC` holds of a record with `0`. -/
  refcount : Nat
  /-- `DFACC_*` bits the file was opened with. -/
  access : Nat
  /-- Number of access records attached to the file. -/
  attach : Int
  maxref : UInt16
  /-- `ndds` of each DD block, in chain order. -/
  ndds : List Nat
  /-- The slots of the DD blocks. -/
  dds : Loc → DD
  /-- The hash index over `(tag, ref)`. -/
  hash : UInt16 → UInt16 → Option Loc
  /-- The bytes of the file. -/
  disk : Nat → UInt8
  /-- End of file: where `HPgetdiskblock` allocates. -/
  eof : Nat
  /-- Current position of the file. -/
  fpos : Nat

instance : Inhabited FileRec := ⟨⟨0, 0, 0, 0, [], fun _ => DD.empty, fun _ _ => none, fun _ => 0, 0, 0⟩⟩

namespace FileRec

variable (f : FileRec)

/-- `l` is a slot of the chain. -/
def Valid (l : Loc) : Prop := l.block < f.ndds.length ∧ l.idx < f.ndds.getD l.block 0

/-- `l` is a slot of the chain holding a DD (not `DFTAG_NULL`). -/
def Live (l : Loc) : Prop := f.Valid l ∧ (f.dds l).tag ≠ DFTAG_NULL

instance (l : Loc) : Decidable (f.Valid l) := inferInstanceAs (Decidable (_ ∧ _))
instance (l : Loc) : Decidable (f.Live l) := inferInstanceAs (Decidable (_ ∧ _))

/-- The slots of the chain, in chain order. -/
def allLocs : List Loc :=
  (List.range f.ndds.length).flatMap fun b => (List.range (f.ndds.getD b 0)).map fun i => ⟨b, i⟩

theorem mem_allLocs {l : Loc} : l ∈ f.allLocs ↔ f.Valid l := by
  obtain ⟨b, i⟩ := l
  simp only [allLocs, Valid, List.mem_flatMap, List.mem_range, List.mem_map, Loc.mk.injEq]
  constructor
  · rintro ⟨_, hb, _, ⟨hi, rfl, rfl⟩⟩
    exact ⟨hb, hi⟩
  · rintro ⟨hb, hi⟩
    exact ⟨b, hb, i, hi, rfl, rfl⟩

/-- The DD of slot `l` becomes `d`. -/
def setDD (l : Loc) (d : DD) : FileRec := { f with dds := fun l' => if l' = l then d else f.dds l' }

/-- The hash entry of `(tag, ref)` becomes `v`. -/
def setHash (tag ref : UInt16) (v : Option Loc) : FileRec :=
  { f with hash := fun t r => if t = tag ∧ r = ref then v else f.hash t r }

@[simp] theorem setDD_dds (l l' : Loc) (d : DD) :
    (f.setDD l d).dds l' = if l' = l then d else f.dds l' := rfl
@[simp] theorem setDD_ndds (l : Loc) (d : DD) : (f.setDD l d).ndds = f.ndds := rfl
@[simp] theorem setDD_hash (l : Loc) (d : DD) : (f.setDD l d).hash = f.hash := rfl
@[simp] theorem setDD_maxref (l : Loc) (d : DD) : (f.setDD l d).maxref = f.maxref := rfl
@[simp] theorem setDD_attach (l : Loc) (d : DD) : (f.setDD l d).attach = f.attach := rfl
@[simp] theorem setDD_disk (l : Loc) (d : DD) : (f.setDD l d).disk = f.disk := rfl
@[simp] theorem setDD_eof (l : Loc) (d : DD) : (f.setDD l d).eof = f.eof := rfl
@[simp] theorem setDD_fpos (l : Loc) (d : DD) : (f.setDD l d).fpos = f.fpos := rfl
@[simp] theorem setHash_hash (tag ref t r : UInt16) (v : Option Loc) :
    (f.setHash tag ref v).hash t r = if t = tag ∧ r = ref then v else f.hash t r := rfl
@[simp] theorem setHash_dds (tag ref : UInt16) (v : Option Loc) :
    (f.setHash tag ref v).dds = f.dds := rfl
@[simp] theorem setHash_ndds (tag ref : UInt16) (v : Option Loc) :
    (f.setHash tag ref v).ndds = f.ndds := rfl
@[simp] theorem setHash_maxref (tag ref : UInt16) (v : Option Loc) :
    (f.setHash tag ref v).maxref = f.maxref := rfl
@[simp] theorem setHash_attach (tag ref : UInt16) (v : Option Loc) :
    (f.setHash tag ref v).attach = f.attach := rfl
@[simp] theorem setHash_disk (tag ref : UInt16) (v : Option Loc) :
    (f.setHash tag ref v).disk = f.disk := rfl

theorem valid_setDD {l l' : Loc} {d : DD} : (f.setDD l d).Valid l' ↔ f.Valid l' := Iff.rfl

theorem setDD_setDD (l : Loc) (d d' : DD) : (f.setDD l d).setDD l d' = f.setDD l d' := by
  simp only [setDD, FileRec.mk.injEq, and_true, true_and]
  funext l'; split <;> rfl
theorem valid_setHash {l : Loc} {t r : UInt16} {v : Option Loc} :
    (f.setHash t r v).Valid l ↔ f.Valid l := Iff.rfl

end FileRec

/-! ## The operations of `hfile.c`, modelled from the spec -/

/-- Modelled from the spec: `BADFREC` (absent) rejects a record of a file that is not open. -/
def BADFREC (f : FileRec) : Bool := f.refcount == 0

section Ops

variable (f : FileRec)

/-- Modelled from the spec: `HIlookup_dd` of `hfile.c` (absent). A wildcard ref finds the
first slot of the chain with the tag (§4.B), so `(DFTAG_NULL, DFREF_WILDCARD)` finds the
first free slot. Otherwise the hash index is asked for `(tag, ref)` and then for the
special version of the tag, which is how `HCcreate` sees an element that is already
special (§4.E.4 step 2). -/
def hiLookupDD (tag ref : UInt16) : Option Loc :=
  if ref = DFREF_WILDCARD then f.allLocs.find? fun l => (f.dds l).tag == tag
  else (f.hash tag ref).orElse fun _ => f.hash (MKSPECIALTAG tag) ref

/-- Modelled from the spec: `HInew_dd_block` (absent) appends a block of `ndds` free slots
to the chain; its disk block (a 6-byte header and 12 bytes a slot) is taken at the end of
the file. -/
def hiNewDDBlock (ndds : Nat) : FileRec :=
  { f with
    ndds := f.ndds ++ [ndds]
    dds := fun l => if l.block = f.ndds.length then DD.empty else f.dds l
    eof := f.eof + (6 + 12 * ndds) }

/-- Modelled from the spec: `HIadd_hash_dd` (absent) enters `(tag, ref) ↦ l`. -/
def hiAddHashDD (tag ref : UInt16) (l : Loc) : FileRec := f.setHash tag ref (some l)

/-- Modelled from the spec: `HIdel_hash_dd` (absent) removes the entry of `(tag, ref)`;
removing an absent entry changes nothing. -/
def hiDelHashDD (tag ref : UInt16) : FileRec := f.setHash tag ref none

/-- Modelled from the spec: `Hdeldd` (absent) looks the element up, marks its slot free
and removes its hash entry; it fails when the element is not found. -/
def hDeldd (tag ref : UInt16) : Option FileRec :=
  (hiLookupDD f tag ref).map fun l =>
    hiDelHashDD (f.setDD l { f.dds l with tag := DFTAG_NULL }) tag ref

/-- Modelled from the spec: `Hnewref` (absent) returns `maxref + 1` and bumps `maxref`.
At `0xFFFF` it fails; its `uint16` result is then the null ref `0`. -/
def hNewref : UInt16 × FileRec :=
  if f.maxref < 0xFFFF then (f.maxref + 1, { f with maxref := f.maxref + 1 }) else (0, f)

/-- Modelled from the spec: `HPgetdiskblock(file_rec, length, TRUE)` (absent) allocates
`length` bytes at the end of the file and moves the file position there. Offsets are `int32`
in the file format (§3, §6), so a block that would end past `2^31 - 1` is not allocated. -/
def hpGetDiskBlock (length : Int) : Option (Int × FileRec) :=
  if f.eof + length.toNat ≤ 2147483647 then
    some (f.eof, { f with eof := f.eof + length.toNat, fpos := f.eof })
  else none

/-- Modelled from the spec: `FILE_NDDS` (absent), the size of the block `HInew_dd_block` adds:
the default of §4.B. -/
def FILE_NDDS : Nat := DEF_NDDS

/-- Modelled from the spec: `allocate_dd` of §4.B, a free slot of the chain, or the first slot
of a new block of `FILE_NDDS` slots when none is free. -/
def hiAllocateDD : Loc × FileRec :=
  match hiLookupDD f DFTAG_NULL DFREF_WILDCARD with
  | some l => (l, f)
  | none => (⟨f.ndds.length, 0⟩, hiNewDDBlock f FILE_NDDS)

/-- Modelled from the spec: `Hlength` (absent) of a regular element, the length in its DD. -/
def hLength (tag ref : UInt16) : Int :=
  match hiLookupDD f tag ref with
  | some l => (f.dds l).length
  | none => FAIL

/-- Modelled from the spec: `HPseek` (absent) sets the file position. -/
def hpSeek (offset : Int) : FileRec := { f with fpos := offset.toNat }

/-- The `n` bytes of the file from position `pos`. -/
def FileRec.bytesAt (pos n : Nat) : List UInt8 := (List.range n).map fun i => f.disk (pos + i)

theorem FileRec.bytesAt_congr {f g : FileRec} (h : f.disk = g.disk) (pos n : Nat) :
    f.bytesAt pos n = g.bytesAt pos n := by
  simp only [FileRec.bytesAt, h]

/-- Modelled from the spec: `HPread` (absent) reads `n` bytes at the file position and
advances it. -/
def hpRead (n : Nat) : List UInt8 × FileRec := (f.bytesAt f.fpos n, { f with fpos := f.fpos + n })

/-- Modelled from the spec: `HPwrite` (absent) writes the bytes at the file position and
advances it. -/
def hpWrite (bs : List UInt8) : FileRec :=
  { f with
    disk := fun i => if f.fpos ≤ i ∧ i < f.fpos + bs.length then bs.getD (i - f.fpos) 0
      else f.disk i
    fpos := f.fpos + bs.length
    eof := max f.eof (f.fpos + bs.length) }

end Ops

section OpsSimp

variable (f : FileRec)

@[simp] theorem hiAddHashDD_hash (tag ref t r : UInt16) (l : Loc) :
    (hiAddHashDD f tag ref l).hash t r = if t = tag ∧ r = ref then some l else f.hash t r := rfl
@[simp] theorem hiDelHashDD_hash (tag ref t r : UInt16) :
    (hiDelHashDD f tag ref).hash t r = if t = tag ∧ r = ref then none else f.hash t r := rfl
@[simp] theorem hiNewDDBlock_ndds (n : Nat) : (hiNewDDBlock f n).ndds = f.ndds ++ [n] := rfl
@[simp] theorem hiNewDDBlock_dds (n : Nat) (l : Loc) :
    (hiNewDDBlock f n).dds l = if l.block = f.ndds.length then DD.empty else f.dds l := rfl

theorem hNewref_of_lt (h : f.maxref < 0xFFFF) :
    hNewref f = (f.maxref + 1, { f with maxref := f.maxref + 1 }) := if_pos h

theorem hNewref_fst : (hNewref f).1 = if f.maxref < 0xFFFF then f.maxref + 1 else 0 := by
  unfold hNewref; split_ifs <;> rfl

@[simp] theorem hNewref_ndds : (hNewref f).2.ndds = f.ndds := by unfold hNewref; split_ifs <;> rfl
@[simp] theorem hNewref_dds : (hNewref f).2.dds = f.dds := by unfold hNewref; split_ifs <;> rfl
@[simp] theorem hNewref_hash : (hNewref f).2.hash = f.hash := by unfold hNewref; split_ifs <;> rfl
@[simp] theorem hNewref_attach : (hNewref f).2.attach = f.attach := by unfold hNewref; split_ifs <;> rfl
@[simp] theorem hNewref_disk : (hNewref f).2.disk = f.disk := by unfold hNewref; split_ifs <;> rfl
@[simp] theorem hNewref_eof : (hNewref f).2.eof = f.eof := by unfold hNewref; split_ifs <;> rfl

theorem hpGetDiskBlock_setDD (l : Loc) (d : DD) (length : Int) :
    hpGetDiskBlock (f.setDD l d) length = (hpGetDiskBlock f length).map fun p => (p.1, p.2.setDD l d) := by
  unfold hpGetDiskBlock
  rw [FileRec.setDD_eof]
  split_ifs <;> rfl

theorem hpGetDiskBlock_of_le {length : Int} (h : f.eof + length.toNat ≤ 2147483647) :
    hpGetDiskBlock f length = some ((f.eof : Int), { f with eof := f.eof + length.toNat, fpos := f.eof }) :=
  if_pos h

theorem hpGetDiskBlock_eq_some {g : FileRec} {length off : Int}
    (h : hpGetDiskBlock f length = some (off, g)) :
    off = f.eof ∧ g = { f with eof := f.eof + length.toNat, fpos := f.eof } ∧
      f.eof + length.toNat ≤ 2147483647 := by
  unfold hpGetDiskBlock at h
  split_ifs at h with hfit
  cases h
  exact ⟨rfl, rfl, hfit⟩

theorem hpWrite_setDD (l : Loc) (d : DD) (bs : List UInt8) :
    hpWrite (f.setDD l d) bs = (hpWrite f bs).setDD l d := rfl

end OpsSimp

/-! ## The store invariant -/

/-- The hash index maps exactly the live pairs to their slots. -/
def FileRec.Mirror (f : FileRec) : Prop :=
  ∀ t r l, f.hash t r = some l ↔ f.Live l ∧ (f.dds l).tag = t ∧ (f.dds l).ref = r

/-- The invariant `I` of the file store. -/
structure StoreInv (f : FileRec) : Prop where
  /-- At most one live DD per `(BASETAG tag, ref)`. -/
  unique : ∀ l l', f.Live l → f.Live l' → BASETAG (f.dds l).tag = BASETAG (f.dds l').tag →
    (f.dds l).ref = (f.dds l').ref → l = l'
  /-- The hash index mirrors the live slots. -/
  mirror : f.Mirror
  /-- `maxref` is at least every live ref. -/
  maxref_ge : ∀ l, f.Live l → (f.dds l).ref ≤ f.maxref

namespace FileRec

variable {f : FileRec}

/-! ## Lookups -/

/-- A wildcard lookup of the null tag finds a free slot of the chain. -/
theorem hiLookupDD_null_some {l : Loc} (h : hiLookupDD f DFTAG_NULL DFREF_WILDCARD = some l) :
    f.Valid l ∧ (f.dds l).tag = DFTAG_NULL := by
  simp only [hiLookupDD, if_true] at h
  exact ⟨f.mem_allLocs.1 (List.mem_of_find?_eq_some h), by simpa using List.find?_some h⟩

/-- When a wildcard lookup of the null tag fails, every slot of the chain is in use. -/
theorem hiLookupDD_null_none (h : hiLookupDD f DFTAG_NULL DFREF_WILDCARD = none) {l : Loc}
    (hl : f.Valid l) : (f.dds l).tag ≠ DFTAG_NULL := by
  simp only [hiLookupDD, if_true] at h
  simpa using List.find?_eq_none.1 h l (f.mem_allLocs.2 hl)

/-- The slot `allocate_dd` returns is free and lies in the chain. -/
theorem hiAllocateDD_free : (hiAllocateDD f).2.Valid (hiAllocateDD f).1 ∧
    ((hiAllocateDD f).2.dds (hiAllocateDD f).1).tag = DFTAG_NULL := by
  unfold hiAllocateDD
  split
  · exact hiLookupDD_null_some ‹_›
  · simp [hiNewDDBlock, Valid, FILE_NDDS, DEF_NDDS, DD.empty]

end FileRec

/-! ## What the operations keep -/

namespace FileRec.Mirror

variable {f g : FileRec}

/-- The mirror survives any change that keeps the live slots, their DDs and the hash index. -/
theorem of_live (h : f.Mirror) (hl : ∀ l, g.Live l ↔ f.Live l)
    (hd : ∀ l, f.Live l → g.dds l = f.dds l) (hh : g.hash = f.hash) : g.Mirror := fun t r l => by
  rw [hh, h, hl]
  exact and_congr_right fun h => by rw [hd l h]

/-- A pair of the hash index is the pair of the slot it maps to. -/
theorem dds_of_hash (h : f.Mirror) {t r : UInt16} {l : Loc} (hh : f.hash t r = some l) :
    f.Live l ∧ (f.dds l).tag = t ∧ (f.dds l).ref = r :=
  (h _ _ _).1 hh

theorem of_dir (h : f.Mirror) (hn : g.ndds = f.ndds) (hd : g.dds = f.dds) (hh : g.hash = f.hash) :
    g.Mirror :=
  h.of_live (fun l => by simp [FileRec.Live, FileRec.Valid, hn, hd]) (fun l _ => by rw [hd]) hh

/-- No hash entry has the null tag. -/
theorem hash_null (h : f.Mirror) (r : UInt16) : f.hash DFTAG_NULL r = none :=
  Option.eq_none_iff_forall_not_mem.2 fun _ hl => (h.dds_of_hash hl).1.2 (h.dds_of_hash hl).2.1

/-- Two live slots with the same pair are one slot. -/
theorem eq_of_dds (h : f.Mirror) {l l' : Loc} (hl : f.Live l) (hl' : f.Live l')
    (ht : (f.dds l).tag = (f.dds l').tag) (hr : (f.dds l).ref = (f.dds l').ref) : l = l' := by
  have h₁ := (h _ _ _).2 ⟨hl, rfl, rfl⟩
  rw [ht, hr, (h _ _ _).2 ⟨hl', rfl, rfl⟩] at h₁
  exact Option.some_injective _ h₁.symm

/-- Putting a DD whose pair has no entry into a free slot of the chain, and entering it in the
hash index, keeps the mirror. -/
theorem insert (h : f.Mirror) {l : Loc} {d : DD} (hv : f.Valid l)
    (hfree : (f.dds l).tag = DFTAG_NULL) (hd : d.tag ≠ DFTAG_NULL) (hnew : f.hash d.tag d.ref = none) :
    (hiAddHashDD (f.setDD l d) d.tag d.ref l).Mirror := by
  intro t r l'
  simp only [hiAddHashDD, FileRec.setHash_hash, FileRec.Live, FileRec.valid_setHash,
    FileRec.valid_setDD, FileRec.setHash_dds, FileRec.setDD_dds, FileRec.setDD_hash]
  by_cases he : l' = l
  · subst he
    simp only [if_true, eq_self_iff_true, hv, hd, true_and, ne_eq, not_false_eq_true]
    split_ifs with hk
    · simp [hk.1, hk.2]
    · refine iff_of_false (fun hh => (h.dds_of_hash hh).1.2 hfree) ?_
      rintro ⟨rfl, rfl⟩; exact hk ⟨rfl, rfl⟩
  · rw [if_neg he]
    split_ifs with hk
    · rw [hk.1, hk.2]
      refine ⟨fun h' => absurd (Option.some_injective _ h').symm he, fun hl => ?_⟩
      rw [(h _ _ _).2 hl] at hnew; cases hnew
    · exact h _ _ _

/-- Freeing the slot a pair maps to and dropping its entry keeps the mirror. -/
theorem delete (h : f.Mirror) {tag ref : UInt16} {l : Loc} (hh : f.hash tag ref = some l) :
    (hiDelHashDD (f.setDD l { f.dds l with tag := DFTAG_NULL }) tag ref).Mirror := by
  intro t r l'
  simp only [hiDelHashDD, FileRec.setHash_hash, FileRec.Live, FileRec.valid_setHash,
    FileRec.valid_setDD, FileRec.setHash_dds, FileRec.setDD_dds, FileRec.setDD_hash]
  by_cases he : l' = l
  · subst he
    obtain ⟨-, ht, hr⟩ := h.dds_of_hash hh
    simp only [if_true, eq_self_iff_true, ne_eq, not_true_eq_false, and_false, false_and,
      iff_false]
    split_ifs with hk
    · simp
    · intro hh'; obtain ⟨-, rfl, rfl⟩ := h.dds_of_hash hh'; exact hk ⟨ht, hr⟩
  · rw [if_neg he]
    split_ifs with hk
    · rw [hk.1, hk.2]
      refine ⟨fun h' => (by cases h'), fun hl => he ?_⟩
      exact Option.some_injective _ (((h _ _ _).2 hl).symm.trans hh)
    · exact h _ _ _

end FileRec.Mirror

/-- `Hdeldd` of a pair the hash index maps to a slot frees that slot and drops the entry. -/
theorem hDeldd_of_hash {f : FileRec} {tag ref : UInt16} {l : Loc} (hr : ref ≠ DFREF_WILDCARD)
    (hh : f.hash tag ref = some l) :
    hDeldd f tag ref = some (hiDelHashDD (f.setDD l { f.dds l with tag := DFTAG_NULL }) tag ref) := by
  simp [hDeldd, hiLookupDD, hr, hh]

/-- Where the special version of a pair has no entry, a lookup of the pair is its entry. -/
theorem hiLookupDD_of_special_none {f : FileRec} {tag ref : UInt16} (hr : ref ≠ DFREF_WILDCARD)
    (hs : f.hash (MKSPECIALTAG tag) ref = none) : hiLookupDD f tag ref = f.hash tag ref := by
  simp only [hiLookupDD, if_neg hr]
  cases f.hash tag ref <;> simp [Option.orElse, hs]

/-- `Hdeldd` frees the slot its lookup finds and drops the entry of the pair. -/
theorem hDeldd_eq_some {f f' : FileRec} {tag ref : UInt16} (h : hDeldd f tag ref = some f') :
    ∃ l, hiLookupDD f tag ref = some l ∧
      f' = hiDelHashDD (f.setDD l { f.dds l with tag := DFTAG_NULL }) tag ref := by
  obtain ⟨l, hl, rfl⟩ := Option.map_eq_some'.1 h
  exact ⟨l, hl, rfl⟩

/-- Removing an entry that is not there changes nothing. -/
theorem hiDelHashDD_of_none {f : FileRec} {t r : UInt16} (h : f.hash t r = none) :
    hiDelHashDD f t r = f := by
  cases f
  simp only [hiDelHashDD, FileRec.setHash, FileRec.mk.injEq, and_true, true_and]
  funext t' r'
  split_ifs with hk
  · rw [hk.1, hk.2]; exact h.symm
  · rfl

namespace StoreInv

variable {f g : FileRec}

/-- The invariant survives any change that keeps the live slots, their DDs and the hash
index, and does not lower `maxref`. -/
theorem of_live (hI : StoreInv f) (hl : ∀ l, g.Live l ↔ f.Live l)
    (hd : ∀ l, f.Live l → g.dds l = f.dds l) (hh : g.hash = f.hash) (hm : f.maxref ≤ g.maxref) :
    StoreInv g := by
  refine ⟨fun l l' h h' => ?_, hI.mirror.of_live hl hd hh, fun l h => ?_⟩
  · rw [hl] at h h'; rw [hd l h, hd l' h']; exact hI.unique l l' h h'
  · rw [hl] at h; rw [hd l h]; exact Nat.le_trans (hI.maxref_ge l h) hm

/-- The invariant reads only the chain, the slots, the hash index and `maxref`; a larger
`maxref` keeps it. -/
theorem of_dir (hI : StoreInv f) (hn : g.ndds = f.ndds) (hd : g.dds = f.dds) (hh : g.hash = f.hash)
    (hm : f.maxref ≤ g.maxref) : StoreInv g :=
  hI.of_live (fun l => by simp [FileRec.Live, FileRec.Valid, hn, hd]) (fun l _ => by rw [hd]) hh hm

/-- A file with an empty chain and an empty hash index satisfies the invariant. -/
theorem of_empty (hn : f.ndds = []) (hh : ∀ t r, f.hash t r = none) : StoreInv f := by
  have hl : ∀ l, ¬f.Live l := fun l h => by simpa [hn] using h.1.1
  exact ⟨fun l _ h => absurd h (hl l), fun t r l => by simp [hh, hl], fun l h => absurd h (hl l)⟩

/-- A chain of one block of one slot, holding the DD `d` of a pair, hashed under that pair and
with its ref at most `maxref`, satisfies the invariant. -/
theorem of_single {d : DD} (hn : f.ndds = [1]) (hd : f.dds ⟨0, 0⟩ = d) (ht : d.tag ≠ DFTAG_NULL)
    (hh : ∀ t r, f.hash t r = if t = d.tag ∧ r = d.ref then some ⟨0, 0⟩ else none)
    (hm : d.ref ≤ f.maxref) : StoreInv f := by
  have hl : ∀ l, f.Live l ↔ l = ⟨0, 0⟩ := by
    rintro ⟨b, i⟩
    simp only [FileRec.Live, FileRec.Valid, hn, List.length_singleton, Nat.lt_one_iff]
    constructor
    · rintro ⟨⟨rfl, hi⟩, -⟩
      simpa using hi
    · rintro ⟨⟩
      exact ⟨⟨rfl, Nat.one_pos⟩, hd ▸ ht⟩
  refine ⟨fun l l' h h' _ _ => ((hl l).1 h).trans ((hl l').1 h').symm, fun t r l => ?_,
    fun l h => by rw [(hl l).1 h, hd]; exact hm⟩
  rw [hh, hl]
  by_cases hp : t = d.tag ∧ r = d.ref
  · rw [if_pos hp, hp.1, hp.2]
    constructor
    · rintro ⟨⟩; exact ⟨rfl, by rw [hd], by rw [hd]⟩
    · rintro ⟨rfl, -⟩; rfl
  · rw [if_neg hp]
    exact ⟨Option.noConfusion, fun ⟨hl0, h1, h2⟩ =>
      (hp ⟨by rw [← h1, hl0, hd], by rw [← h2, hl0, hd]⟩).elim⟩

/-- A ref above `maxref` has no hash entry. -/
theorem hash_fresh (hI : StoreInv f) {r : UInt16} (hr : f.maxref < r) (t : UInt16) :
    f.hash t r = none :=
  Option.eq_none_iff_forall_not_mem.2 fun l hl => by
    obtain ⟨hlive, -, rfl⟩ := hI.mirror.dds_of_hash hl
    have := hI.maxref_ge l hlive
    rw [uint16_lt_iff] at hr; rw [uint16_le_iff] at this; omega

end StoreInv

/-- A lookup of a regular pair that found no special element: the special pair has no entry,
and the lookup gives the pair's own entry. -/
theorem lookup_regular {f : FileRec} {tag ref : UInt16} (hI : StoreInv f) (hr : ref ≠ DFREF_WILDCARD)
    (htag : SPECIALTAG tag = false)
    (hreg : ∀ l, hiLookupDD f tag ref = some l → SPECIALTAG (f.dds l).tag = false) :
    f.hash (MKSPECIALTAG tag) ref = none ∧ hiLookupDD f tag ref = f.hash tag ref := by
  cases hM : f.hash (MKSPECIALTAG tag) ref with
  | none => exact ⟨rfl, hiLookupDD_of_special_none hr hM⟩
  | some l' =>
    exfalso
    obtain ⟨hl', ht', hr'⟩ := hI.mirror.dds_of_hash hM
    cases hT : f.hash tag ref with
    | none =>
      have := hreg l' (by simp [hiLookupDD, hr, hT, hM, Option.orElse])
      rw [ht', SPECIALTAG_MKSPECIALTAG] at this; cases this
    | some l =>
      obtain ⟨hl, ht, hrr⟩ := hI.mirror.dds_of_hash hT
      have := hI.unique l l' hl hl' (by rw [ht, ht', BASETAG_MKSPECIALTAG]) (by rw [hrr, hr'])
      subst this
      exact MKSPECIALTAG_ne_self htag (ht'.symm.trans ht)

/-! ## Growing the chain and the file -/

/-- `g` is `f` with more free slots at the end of the chain and more room at the end of the
file: the slots of `f`, the hash index, `maxref`, `attach` and the bytes are kept. -/
structure FileRec.Grows (f g : FileRec) : Prop where
  valid : ∀ l, f.Valid l → g.Valid l ∧ g.dds l = f.dds l
  live : ∀ l, g.Live l → f.Live l
  hash : g.hash = f.hash
  maxref : g.maxref = f.maxref
  attach : g.attach = f.attach
  disk : g.disk = f.disk
  eof : f.eof ≤ g.eof

namespace FileRec.Grows

variable {f g h : FileRec}

theorem refl (f : FileRec) : f.Grows f := ⟨fun _ hl => ⟨hl, rfl⟩, fun _ hl => hl, rfl, rfl, rfl, rfl, le_rfl⟩

theorem trans (h₁ : f.Grows g) (h₂ : g.Grows h) : f.Grows h :=
  ⟨fun l hl => let ⟨hv, hd⟩ := h₁.valid l hl; let ⟨hv', hd'⟩ := h₂.valid l hv; ⟨hv', hd'.trans hd⟩,
    fun l hl => h₁.live l (h₂.live l hl), h₂.hash.trans h₁.hash, h₂.maxref.trans h₁.maxref,
    h₂.attach.trans h₁.attach, h₂.disk.trans h₁.disk, h₁.eof.trans h₂.eof⟩

/-- A live slot of `f` is live in `g`, with the same DD. -/
theorem live_of (hg : f.Grows g) {l : Loc} (hl : f.Live l) : g.Live l ∧ g.dds l = f.dds l :=
  let ⟨hv, hd⟩ := hg.valid l hl.1; ⟨⟨hv, hd ▸ hl.2⟩, hd⟩

theorem mirror (hg : f.Grows g) (h : f.Mirror) : g.Mirror :=
  h.of_live (fun l => ⟨hg.live l, fun hl => (hg.live_of hl).1⟩) (fun _ hl => (hg.live_of hl).2) hg.hash

theorem storeInv (hg : f.Grows g) (hI : StoreInv f) : StoreInv g :=
  hI.of_live (fun l => ⟨hg.live l, fun hl => (hg.live_of hl).1⟩) (fun _ hl => (hg.live_of hl).2)
    hg.hash (Nat.le_of_eq (congrArg UInt16.toNat hg.maxref.symm))

theorem setEof (f : FileRec) (e p : Nat) (he : f.eof ≤ e) : f.Grows { f with eof := e, fpos := p } :=
  ⟨fun _ hl => ⟨hl, rfl⟩, fun _ hl => hl, rfl, rfl, rfl, rfl, he⟩

theorem newBlock (f : FileRec) (n : Nat) : f.Grows (hiNewDDBlock f n) := by
  have hv : ∀ l, f.Valid l → (hiNewDDBlock f n).Valid l := fun l hl => by
    simp only [FileRec.Valid, hiNewDDBlock_ndds, List.length_append, List.length_singleton]
    exact ⟨by have := hl.1; omega, by rw [List.getD_append _ _ _ _ hl.1]; exact hl.2⟩
  refine ⟨fun l hl => ⟨hv l hl, if_neg (Nat.ne_of_lt hl.1)⟩, fun l hl => ?_, rfl, rfl, rfl, rfl,
    Nat.le_add_right _ _⟩
  by_cases hb : l.block = f.ndds.length
  · simp [FileRec.Live, hb, DD.empty] at hl
  · simp only [FileRec.Live, FileRec.Valid, hiNewDDBlock_ndds, hiNewDDBlock_dds, hb, if_false,
      List.length_append, List.length_singleton] at hl ⊢
    have hb' : l.block < f.ndds.length := by omega
    rw [List.getD_append _ _ _ _ hb'] at hl
    exact ⟨⟨hb', hl.1.2⟩, hl.2⟩

end FileRec.Grows

/-! ## Moving the position, writing bytes -/

/-- `g` is `f` with other bytes, another end of file or another position: the chain, the
slots, the hash index, `maxref` and `attach` are kept. -/
structure FileRec.SameDir (f g : FileRec) : Prop where
  ndds : g.ndds = f.ndds
  dds : g.dds = f.dds
  hash : g.hash = f.hash
  maxref : g.maxref = f.maxref
  attach : g.attach = f.attach

namespace FileRec.SameDir

variable {f g : FileRec}

theorem refl (f : FileRec) : f.SameDir f := ⟨rfl, rfl, rfl, rfl, rfl⟩

theorem setEof (f : FileRec) (e p : Nat) : f.SameDir { f with eof := e, fpos := p } :=
  ⟨rfl, rfl, rfl, rfl, rfl⟩

theorem hpWrite (h : f.SameDir g) (bs : List UInt8) : f.SameDir (Hdf4.hpWrite g bs) :=
  ⟨h.ndds, h.dds, h.hash, h.maxref, h.attach⟩

theorem hpSeek (h : f.SameDir g) (x : Int) : f.SameDir (Hdf4.hpSeek g x) :=
  ⟨h.ndds, h.dds, h.hash, h.maxref, h.attach⟩

end FileRec.SameDir

/-- `allocate_dd` grows the file by at most a block and returns a free slot of its result. -/
theorem hiAllocateDD_grows (f : FileRec) : f.Grows (hiAllocateDD f).2 ∧
    (hiAllocateDD f).2.eof ≤ f.eof + (6 + 12 * FILE_NDDS) := by
  unfold hiAllocateDD
  split
  · exact ⟨.refl f, Nat.le_add_right _ _⟩
  · exact ⟨.newBlock f _, le_rfl⟩


/-! ## What is already written

`StoreInv` does not survive a failed `HCcreate` (the descriptor's DD is left without its hash
entry), so the descriptors on disk are followed with two weaker notions that every call keeps:
`Keeps`, the special DDs and the bytes already written, and `HashSound`, the half of `Mirror`
that says where an entry leads. -/

/-- `g` keeps the special DDs of `f` and every byte below `f`'s end of file, and ends no
earlier: `f` changed by allocating and writing at its end, and by filling or freeing slots
that hold no special element. -/
structure FileRec.Keeps (f g : FileRec) : Prop where
  special : ∀ l, f.Valid l → SPECIALTAG (f.dds l).tag = true → g.Valid l ∧ g.dds l = f.dds l
  eof : f.eof ≤ g.eof
  disk : ∀ i, i < f.eof → g.disk i = f.disk i

namespace FileRec.Keeps

variable {f g h : FileRec}

theorem refl (f : FileRec) : f.Keeps f := ⟨fun _ hv _ => ⟨hv, rfl⟩, le_rfl, fun _ _ => rfl⟩

theorem trans (h₁ : f.Keeps g) (h₂ : g.Keeps h) : f.Keeps h := by
  refine ⟨fun l hv hs => ?_, h₁.eof.trans h₂.eof, fun i hi => ?_⟩
  · obtain ⟨hv', hd⟩ := h₁.special l hv hs
    obtain ⟨hv'', hd'⟩ := h₂.special l hv' (hd ▸ hs)
    exact ⟨hv'', hd'.trans hd⟩
  · rw [h₂.disk i (Nat.lt_of_lt_of_le hi h₁.eof), h₁.disk i hi]

theorem of_grows (hg : f.Grows g) : f.Keeps g :=
  ⟨fun l hv _ => hg.valid l hv, hg.eof, fun i _ => by rw [hg.disk]⟩

/-- A change of `maxref`, `attach`, the position or the hash index, with the end moved on. -/
theorem of_dir (hn : g.ndds = f.ndds) (hd : g.dds = f.dds) (hk : g.disk = f.disk) (he : f.eof ≤ g.eof) :
    f.Keeps g :=
  ⟨fun l hv _ => ⟨by simpa [FileRec.Valid, hn] using hv, by rw [hd]⟩, he, fun i _ => by rw [hk]⟩

/-- Filling a slot that holds no special DD of `f`. -/
theorem setDD (h : f.Keeps g) {l : Loc} (hl : ¬(f.Valid l ∧ SPECIALTAG (f.dds l).tag = true)) (d : DD) :
    f.Keeps (g.setDD l d) := by
  refine ⟨fun l' hv hs => ?_, h.eof, h.disk⟩
  have hne : l' ≠ l := fun he => hl (he ▸ ⟨hv, hs⟩)
  simpa [FileRec.valid_setDD, hne] using h.special l' hv hs

theorem setHash (h : f.Keeps g) (t r : UInt16) (v : Option Loc) : f.Keeps (g.setHash t r v) :=
  ⟨h.special, h.eof, h.disk⟩

/-- Writing at or past the end of `f`. -/
theorem hpWrite (h : f.Keeps g) (hp : f.eof ≤ g.fpos) (bs : List UInt8) : f.Keeps (Hdf4.hpWrite g bs) := by
  refine ⟨h.special, h.eof.trans (le_max_left _ _), fun i hi => ?_⟩
  simp only [Hdf4.hpWrite]
  rw [if_neg (by omega), h.disk i hi]

/-- The bytes of `f` below its end of file read the same in `g`. -/
theorem bytesAt (h : f.Keeps g) {pos n : Nat} (hn : pos + n ≤ f.eof) : g.bytesAt pos n = f.bytesAt pos n := by
  simp only [FileRec.bytesAt]
  exact List.map_congr_left fun i hi => h.disk _ (by simp at hi; omega)

end FileRec.Keeps

/-- Every entry of the hash index maps its pair to a live slot holding that pair. -/
def FileRec.HashSound (f : FileRec) : Prop :=
  ∀ t r l, f.hash t r = some l → f.Live l ∧ (f.dds l).tag = t ∧ (f.dds l).ref = r

namespace FileRec.HashSound

variable {f g : FileRec}

theorem of_empty (hh : ∀ t r, f.hash t r = none) : f.HashSound := fun t r l h => by simp [hh] at h

/-- No entry maps to a slot that is not live. -/
theorem not_hashed (h : f.HashSound) {l : Loc} (hl : ¬f.Live l) (t r : UInt16) : f.hash t r ≠ some l :=
  fun hh => hl (h t r l hh).1

theorem grows (h : f.HashSound) (hg : f.Grows g) : g.HashSound := fun t r l hh => by
  rw [hg.hash] at hh
  obtain ⟨hl, ht, hr⟩ := h t r l hh
  obtain ⟨hl', hd⟩ := hg.live_of hl
  exact ⟨hl', hd ▸ ht, hd ▸ hr⟩

theorem of_dir (h : f.HashSound) (hn : g.ndds = f.ndds) (hd : g.dds = f.dds) (hh : g.hash = f.hash) :
    g.HashSound := fun t r l hgh => by
  rw [hh] at hgh
  simpa [FileRec.Live, FileRec.Valid, hn, hd] using h t r l hgh

/-- Filling a slot no entry maps to. -/
theorem setDD (h : f.HashSound) {l : Loc} (hl : ∀ t r, f.hash t r ≠ some l) (d : DD) :
    (f.setDD l d).HashSound := fun t r l' hh => by
  have hne : l' ≠ l := by rintro rfl; exact hl t r hh
  simpa [FileRec.Live, FileRec.valid_setDD, hne] using h t r l' hh

/-- Entering the pair of a live slot. -/
theorem add (h : f.HashSound) {t r : UInt16} {l : Loc} (hl : f.Live l) (ht : (f.dds l).tag = t)
    (hr : (f.dds l).ref = r) : (hiAddHashDD f t r l).HashSound := fun t' r' l' hh => by
  rw [hiAddHashDD_hash] at hh
  split_ifs at hh with hk
  · cases hh; obtain ⟨rfl, rfl⟩ := hk; exact ⟨hl, ht, hr⟩
  · exact h t' r' l' hh

theorem del (h : f.HashSound) (t r : UInt16) : (hiDelHashDD f t r).HashSound := fun t' r' l' hh => by
  rw [hiDelHashDD_hash] at hh
  split_ifs at hh
  exact h t' r' l' hh

/-- `Hdeldd` of a pair the index maps to a slot: the slot is freed with its entry. -/
theorem delete (h : f.HashSound) {t r : UInt16} {l : Loc} (hh : f.hash t r = some l) :
    (hiDelHashDD (f.setDD l { f.dds l with tag := DFTAG_NULL }) t r).HashSound := fun t' r' l' h' => by
  rw [hiDelHashDD_hash, FileRec.setDD_hash] at h'
  split_ifs at h' with hk
  have hne : l' ≠ l := by
    rintro rfl
    obtain ⟨-, ht, hr⟩ := h t r l' hh
    obtain ⟨-, ht', hr'⟩ := h t' r' l' h'
    exact hk ⟨ht'.symm.trans ht, hr'.symm.trans hr⟩
  simpa [hiDelHashDD, FileRec.Live, FileRec.Valid, hne] using h t' r' l' h'

end FileRec.HashSound

end Hdf4
