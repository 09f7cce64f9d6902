import Hdf4.Comp.Attach

/-!
# The descriptors stay intact over every run

A compressed element lives in two places: its DD, whose special tag sends `Hstartread` to
`HCPstread`, and its descriptor on disk, which `HCIread_header` parses into the `compinfo_t`
of every record opened on it. `HCcreate` writes new descriptors at the end of the file, and
`HCPwrite` rewrites the length field of a descriptor in place. This file shows that along
every run of the calls of the compression layer, failed calls included, no descriptor that a
special hash entry or an open record leads to is lost or damaged.

* `DescIn f l info`: slot `l` of `f` holds a special DD pointing at `compHeaderBytes info`,
  written below the end of the file, for a `compinfo_t` fit for the descriptor;
* `Intact s`: every hash entry leads to a live slot holding its pair, every special pair to a
  descriptor, every open compressed record to the descriptor of its own `compinfo_t` (the
  length aside, which another record on the same element may have rewritten), and the
  descriptors reached this way occupy disjoint bytes;
* `Intact.setFile`, `Intact.setAcc` and `Intact.lengthRewrite` say what a change of a file or
  of an access record must respect; each call is assembled from them: `Intact.hcpCall`,
  `Intact.wp_hcpStaccess`, `Intact.wp_hcpEndaccess`, `Intact.wp_hcCreate`;
* `runCalls_intact`: every run of calls made with their preconditions keeps `Intact`;
* `Intact.open_reparses`: in an intact state `HCIstaccess` would rebuild the `compinfo_t` of every
  open compressed record, its length read from the length field on disk;
* `runCalls_lost_write`: that length field is the last writer's, not the largest: two records
  on one element each keep their own `compinfo_t`, so a short write through the second after
  a long one through the first leaves the field below what the first record holds;
* `hStartAccess_opens`: `Hstartread` and `Hstartwrite` of an element whose descriptor is on
  disk succeed whenever an access record is free and every call they make succeeds, and open
  the record with a `compinfo_t` that agrees with the descriptor.
-/

namespace Hdf4

/-! ## A descriptor on disk -/

/-- Slot `l` of `f` holds a special DD whose offset and length point at the descriptor
`compHeaderBytes info`, written below the end of the file and within `int32` offsets, for a
`compinfo_t` fit for the descriptor. -/
structure DescIn (DFKNTsize : Int → Int) (f : FileRec) (l : Loc) (info : CompInfo) : Prop where
  wf : HeaderWF DFKNTsize info
  valid : f.Valid l
  special : SPECIALTAG (f.dds l).tag = true
  off : 0 ≤ (f.dds l).offset
  fits : (f.dds l).offset + (compHeaderBytes info).length ≤ 2147483647
  eof : (f.dds l).offset.toNat + (compHeaderBytes info).length ≤ f.eof
  len : (f.dds l).length = (compHeaderBytes info).length
  disk : f.bytesAt (f.dds l).offset.toNat (compHeaderBytes info).length = compHeaderBytes info

/-- The bytes the DDs of slots `l` and `l'` point at do not overlap. -/
def FileRec.Apart (f : FileRec) (l l' : Loc) : Prop :=
  (f.dds l).offset + (f.dds l).length ≤ (f.dds l').offset ∨
    (f.dds l').offset + (f.dds l').length ≤ (f.dds l).offset

namespace DescIn

variable {DFKNTsize : Int → Int} {f g : FileRec} {l : Loc} {info : CompInfo}

/-- The descriptor ends below the end of the file. -/
theorem end_le (h : DescIn DFKNTsize f l info) : (f.dds l).offset + (f.dds l).length ≤ f.eof := by
  have := h.eof; have := h.off; rw [h.len]; omega

/-- The descriptor is longer than the eight bytes up to the end of its length field. -/
theorem eight_le (h : DescIn DFKNTsize f l info) : 8 ≤ (f.dds l).length := by
  rw [h.len, length_compHeaderBytes, COMP_HEADER_LENGTH]; omega

/-- A file with the same slot and the same bytes there, ending no earlier, holds the
descriptor. -/
theorem congr (h : DescIn DFKNTsize f l info) (hv : g.Valid l) (hd : g.dds l = f.dds l)
    (he : f.eof ≤ g.eof)
    (hb : g.bytesAt (f.dds l).offset.toNat (compHeaderBytes info).length =
      f.bytesAt (f.dds l).offset.toNat (compHeaderBytes info).length) :
    DescIn DFKNTsize g l info := by
  refine ⟨h.wf, hv, ?_, ?_, ?_, ?_, ?_, ?_⟩ <;> rw [hd]
  exacts [h.special, h.off, h.fits, h.eof.trans he, h.len, hb.trans h.disk]

theorem keeps (h : DescIn DFKNTsize f l info) (hk : f.Keeps g) : DescIn DFKNTsize g l info :=
  have hs := hk.special l h.valid h.special
  h.congr hs.1 hs.2 hk.eof (hk.bytesAt h.eof)

/-- The bytes of a descriptor are the descriptor of every `compinfo_t` that agrees with its
own. -/
theorem agree (h : DescIn DFKNTsize f l info) {info' : CompInfo} (ha : info'.Agree info) :
    DescIn DFKNTsize f l info' := by
  have hb := ha.compHeaderBytes_eq
  exact ⟨ha.headerWF h.wf, h.valid, h.special, h.off, hb ▸ h.fits, hb ▸ h.eof, hb ▸ h.len,
    hb ▸ h.disk⟩

/-- `HCPwrite`'s rewrite of the length field leaves the descriptor of the new length. -/
theorem lengthRewrite (h : DescIn DFKNTsize f l info) {n : Int} (hn : IsInt32 n) :
    DescIn DFKNTsize (hpWrite (hpSeek f (wrap32 ((f.dds l).offset + 4))) (int32Encode n)) l
      { info with length := n } := by
  refine ⟨h.wf.setLength hn, h.valid, h.special, h.off, by simpa using h.fits, ?_,
    by simpa using h.len, bytesAt_lengthRewrite h.off h.fits h.disk n⟩
  rw [length_compHeaderBytes_setLength]
  exact h.eof.trans (le_max_left _ _)

/-- The rewrite of the length field of a descriptor apart from this one leaves this one. -/
theorem lengthRewrite_apart (h : DescIn DFKNTsize f l info) {l' : Loc} {info' : CompInfo}
    (h' : DescIn DFKNTsize f l' info') (hap : f.Apart l' l) (n : Int) :
    DescIn DFKNTsize (hpWrite (hpSeek f (wrap32 ((f.dds l').offset + 4))) (int32Encode n)) l info := by
  have h8 := h'.eight_le
  have := h'.off; have := h'.fits; have := h.off; have := h'.len
  have hpos : (hpSeek f (wrap32 ((f.dds l').offset + 4))).fpos = (f.dds l').offset.toNat + 4 := by
    simp only [hpSeek]
    rw [wrap32_of_isInt32 ⟨by omega, by omega⟩]
    omega
  refine h.congr h.valid rfl (le_max_left _ _) (FileRec.bytesAt_hpWrite_of_disjoint ?_)
  rw [hpos, length_int32Encode]
  unfold FileRec.Apart at hap
  have := h.len
  omega

/-- The descriptor, read as that of the record that points at it. -/
theorem descOK {a : AccRec} (h : DescIn DFKNTsize f a.loc a.info) : DescOK f a :=
  ⟨h.wf.length, h.off, h.fits, h.disk, h.len⟩

/-- The descriptor `HCIwrite_header` writes into a slot of the chain, at the end of the file. -/
theorem headerFile (hv : f.Valid l) {st : UInt16} (hst : SPECIALTAG st = true) (ref : UInt16)
    (hwf : HeaderWF DFKNTsize info) (hfit : f.eof + (compHeaderBytes info).length ≤ 2147483647) :
    DescIn DFKNTsize (Hdf4.headerFile f l st ref (compHeaderBytes info)) l info ∧
      ((Hdf4.headerFile f l st ref (compHeaderBytes info)).dds l).offset = f.eof := by
  have hd := headerFile_descAt f st ref (compHeaderBytes info) hv (by omega)
  have hb := length_compHeaderBytes_le info
  have hoff : (headerDD f l st ref (compHeaderBytes info).length).offset = f.eof := by
    simp [headerDD, wrap32_of_isInt32 (show IsInt32 (f.eof : Int) from ⟨by omega, by omega⟩)]
  have hlen : (headerDD f l st ref (compHeaderBytes info).length).length = (compHeaderBytes info).length := by
    simp [headerDD, wrap32_of_isInt32 (show IsInt32 ((compHeaderBytes info).length : Int) from
      ⟨by omega, by omega⟩)]
  have hdisk := hd.disk
  rw [hoff] at hdisk
  refine ⟨⟨hwf, hd.valid, ?_, ?_, ?_, ?_, ?_, ?_⟩, ?_⟩ <;> rw [hd.dd]
  · exact hst
  · rw [hoff]; omega
  · rw [hoff]; omega
  · rw [hoff, headerFile_eof]; simp
  · exact hlen
  · rw [hoff]; simpa using hdisk
  · exact hoff

end DescIn

/-! ## What `HCcreate` does to a file -/

section CreateFile

variable {f g : FileRec} {l : Loc}

/-- Writing the descriptor into a slot that holds no special DD keeps what `f` holds. -/
theorem FileRec.Keeps.headerFile (hl : ¬(f.Valid l ∧ SPECIALTAG (f.dds l).tag = true))
    (st ref : UInt16) (buf : List UInt8) : f.Keeps (Hdf4.headerFile f l st ref buf) :=
  (((FileRec.Keeps.of_dir (f := f) (g := { f with eof := f.eof + buf.length, fpos := f.eof }) rfl rfl rfl
    (Nat.le_add_right _ _)).setDD hl (headerDD f l st ref buf.length)).hpWrite le_rfl buf).setHash _ _ _

/-- Writing the descriptor into a slot of the chain that no entry leads to, and entering it,
keeps the hash index sound. -/
theorem FileRec.HashSound.headerFile (h : f.HashSound) (hv : f.Valid l)
    (hl : ∀ t r, f.hash t r ≠ some l) {st : UInt16} (hst : st ≠ DFTAG_NULL) (ref : UInt16)
    (buf : List UInt8) : (Hdf4.headerFile f l st ref buf).HashSound := by
  set g₀ : FileRec := { f with eof := f.eof + buf.length, fpos := f.eof }.setDD l
    (headerDD f l st ref buf.length)
  have h₁ : g₀.HashSound :=
    (h.of_dir (g := { f with eof := f.eof + buf.length, fpos := f.eof }) rfl rfl rfl).setDD hl _
  have hd : (hpWrite g₀ buf).dds l = headerDD f l st ref buf.length := by simp [g₀, hpWrite]
  exact (h₁.of_dir (g := hpWrite g₀ buf) rfl rfl rfl).add ⟨hv, by rw [hd]; exact hst⟩
    (by rw [hd]; rfl) (by rw [hd]; rfl)

/-- The model's `stwrite` keeps what `f` holds and a sound hash index, enters no special pair,
and enters the backing element. -/
theorem modelStwrite_sound (h : f.HashSound) {c : UInt16} (hs : modelStwrite f c = some g) :
    f.Keeps g ∧ g.HashSound ∧ (∀ t r l, SPECIALTAG t = true → g.hash t r = some l → f.hash t r = some l) ∧
      g.hash DFTAG_COMPRESSED c ≠ none := by
  obtain ⟨g₁, lb, d, hg, -, hvb, hfb, ht, hr, rfl⟩ := modelStwrite_eq_some hs
  have hnl : ¬g₁.Live lb := fun hl => hl.2 hfb
  refine ⟨((FileRec.Keeps.of_grows hg).setDD (fun hs => ?_) d).setHash _ _ _,
    ((h.grows hg).setDD ((h.grows hg).not_hashed hnl) d).add ⟨hvb, by simp [ht]; decide⟩ (by simp [ht])
      (by simp [hr]), fun t r l hst hl => ?_, by simp⟩
  · rw [← (hg.valid lb hs.1).2, hfb] at hs; exact absurd hs.2 (by decide)
  · have hne : t ≠ DFTAG_COMPRESSED := by rintro rfl; exact absurd hst (by decide)
    simpa [hiAddHashDD, hne, hg.hash] using hl

/-- A lookup of a pair other than the wildcard that finds a regular element finds the pair's
own entry. -/
theorem hiLookupDD_regular (h : f.HashSound) {tag ref : UInt16} (hr : ref ≠ DFREF_WILDCARD)
    (hl : hiLookupDD f tag ref = some l) (hreg : SPECIALTAG (f.dds l).tag = false) :
    f.hash tag ref = some l := by
  simp only [hiLookupDD, if_neg hr] at hl
  cases ht : f.hash tag ref with
  | some l' => rw [ht] at hl; exact hl
  | none =>
    rw [ht] at hl
    rw [(h _ _ l hl).2.1, SPECIALTAG_MKSPECIALTAG] at hreg
    cases hreg

end CreateFile

/-! ## The invariant -/

/-- The record is open on a compressed element. -/
def OpenComp (a : AccRec) : Prop := a.used = true ∧ a.special = SPECIAL_COMP

/-- A special pair of file `fid`'s hash index maps to slot `l`: where `Hstartread` finds a
compressed element. -/
def Hashed (s : HState) (fid : Int) (l : Loc) : Prop :=
  ∃ t r, SPECIALTAG t = true ∧ (s.files fid).hash t r = some l

/-- Slot `l` of file `fid` can be reached: a special pair maps to it, or an open compressed
record points at it. -/
def Guarded (s : HState) (fid : Int) (l : Loc) : Prop :=
  Hashed s fid l ∨ ∃ i, OpenComp (s.acc i) ∧ (s.acc i).fileId = fid ∧ (s.acc i).loc = l

/-- `Hdeldd` of the pair in slot `l` reaches a regular element through the hash index: the tag
is not special, the ref is not the wildcard, and the pair has an entry. -/
def DelReady (f : FileRec) (l : Loc) : Prop :=
  SPECIALTAG (f.dds l).tag = false ∧ (f.dds l).ref ≠ DFREF_WILDCARD ∧
    f.hash (f.dds l).tag (f.dds l).ref ≠ none

theorem DelReady.of_sameDir {f g : FileRec} {l : Loc} (h : DelReady f l) (hd : f.SameDir g) :
    DelReady g l := by
  unfold DelReady; rw [hd.dds, hd.hash]; exact h

/-- The descriptors of the compression layer are intact: every hash entry leads to a live
slot holding its pair; every special pair leads to a descriptor; every open compressed record
leads to the descriptor of its `compinfo_t`, whose length another record on the element may
have rewritten; and the descriptors reached this way do not overlap. -/
structure Intact (DFKNTsize : Int → Int) (s : HState) : Prop where
  sound : ∀ fid, (s.files fid).HashSound
  hashed : ∀ fid t r l, SPECIALTAG t = true → (s.files fid).hash t r = some l →
    ∃ info, DescIn DFKNTsize (s.files fid) l info
  opened : ∀ i, OpenComp (s.acc i) →
    ∃ n, DescIn DFKNTsize (s.files (s.acc i).fileId) (s.acc i).loc { (s.acc i).info with length := n }
  apart : ∀ fid l l', Guarded s fid l → Guarded s fid l' → l ≠ l' → (s.files fid).Apart l l'

namespace Intact

variable {DFKNTsize : Int → Int} {s : HState} {fid : Int} {f F : FileRec}

/-- A slot that can be reached holds a descriptor. -/
theorem desc (h : Intact DFKNTsize s) {l : Loc} (hg : Guarded s fid l) :
    ∃ info, DescIn DFKNTsize (s.files fid) l info := by
  rcases hg with ⟨t, r, ht, hl⟩ | ⟨i, hi, rfl, rfl⟩
  · exact h.hashed fid t r l ht hl
  · obtain ⟨n, hd⟩ := h.opened i hi
    exact ⟨_, hd⟩

/-- A store with no hash entries and no record in use is intact. -/
theorem of_empty (hh : ∀ fid t r, (s.files fid).hash t r = none) (hu : ∀ i, (s.acc i).used = false) :
    Intact DFKNTsize s := by
  have hg : ∀ fid l, ¬Guarded s fid l := by
    rintro fid l (⟨t, r, -, hl⟩ | ⟨i, hi, -⟩)
    · simp [hh] at hl
    · simp [OpenComp, hu] at hi
  exact ⟨fun fid => .of_empty (hh fid), fun fid t r l _ hl => by simp [hh] at hl,
    fun i hi => by simp [OpenComp, hu] at hi, fun fid l _ h₁ => absurd h₁ (hg fid l)⟩

theorem fileState_empty : Intact DFKNTsize (fileState emptyFile) := of_empty (fun _ _ _ => rfl) fun _ => rfl

/-- Access record `i` becomes `a`: a record that is not open, or one open on a descriptor that
can already be reached and holds its `compinfo_t`. -/
theorem setAcc (h : Intact DFKNTsize s) {i : Nat} {a : AccRec}
    (ha : OpenComp a → (∃ n, DescIn DFKNTsize (s.files a.fileId) a.loc { a.info with length := n }) ∧
      Guarded s a.fileId a.loc) :
    Intact DFKNTsize (s.setAcc i a) := by
  have hg : ∀ fid l, Guarded (s.setAcc i a) fid l → Guarded s fid l := by
    rintro fid l (hl | ⟨j, hj, hf, hl⟩)
    · exact .inl hl
    · by_cases hji : j = i
      · subst hji
        simp only [HState.setAcc_acc, if_true] at hj hf hl
        exact hf ▸ hl ▸ (ha hj).2
      · simp only [HState.setAcc_acc, if_neg hji] at hj hf hl
        exact .inr ⟨j, hj, hf, hl⟩
  refine ⟨h.sound, h.hashed, fun j hj => ?_, fun fid l l' h₁ h₂ hne =>
    h.apart fid l l' (hg _ _ h₁) (hg _ _ h₂) hne⟩
  by_cases hji : j = i
  · subst hji
    simp only [HState.setAcc_acc, if_true] at hj ⊢
    exact (ha hj).1
  · simp only [HState.setAcc_acc, if_neg hji] at hj ⊢
    exact h.opened j hj

/-- Giving a record back keeps the state intact. -/
theorem setAcc_closed (h : Intact DFKNTsize s) {i : Nat} {a : AccRec} (ha : a.used = false) :
    Intact DFKNTsize (s.setAcc i a) :=
  h.setAcc fun ho => absurd ho.1 (by simp [ha])

/-- File `fid` changes from `f` to `F`, keeping its special DDs and its bytes, with a sound hash
index whose special entries are the old ones and, possibly, one for a new descriptor written
past the old end of the file. -/
theorem setFile (h : Intact DFKNTsize (s.setFile fid f)) (hk : f.Keeps F) (hs : F.HashSound)
    (new : Option Loc)
    (hh : ∀ t r l, SPECIALTAG t = true → F.hash t r = some l → f.hash t r = some l ∨ new = some l)
    (hnew : ∀ l, new = some l → (∃ info, DescIn DFKNTsize F l info) ∧ (f.eof : Int) ≤ (F.dds l).offset) :
    Intact DFKNTsize (s.setFile fid F) := by
  -- a slot reachable after the change was reachable before, or is the new descriptor
  have hg : ∀ fid' l, Guarded (s.setFile fid F) fid' l →
      Guarded (s.setFile fid f) fid' l ∨ (fid' = fid ∧ new = some l) := by
    rintro fid' l (⟨t, r, ht, hl⟩ | hl)
    · by_cases e : fid' = fid
      · subst e
        simp only [HState.setFile_files, if_true] at hl
        refine (hh t r l ht hl).imp (fun hl => .inl ⟨t, r, ht, ?_⟩) fun hn => ⟨rfl, hn⟩
        simpa using hl
      · exact .inl (.inl ⟨t, r, ht, by simpa [e] using hl⟩)
    · exact .inl (.inr hl)
  -- a slot reachable before keeps its DD and its descriptor
  have hkeep : ∀ l, Guarded (s.setFile fid f) fid l →
      F.dds l = f.dds l ∧ ∃ info, DescIn DFKNTsize f l info := fun l hl => by
    obtain ⟨info, hd⟩ := h.desc hl
    simp only [HState.setFile_files, if_true] at hd
    exact ⟨(hk.special l hd.valid hd.special).2, info, hd⟩
  refine ⟨fun fid' => ?_, fun fid' t r l ht hl => ?_, fun i hi => ?_, fun fid' l l' h₁ h₂ hne => ?_⟩
  · by_cases e : fid' = fid
    · subst e; simpa using hs
    · simpa [e] using h.sound fid'
  · by_cases e : fid' = fid
    · subst e
      simp only [HState.setFile_files, if_true] at hl ⊢
      rcases hh t r l ht hl with hl | hl
      · obtain ⟨info, hd⟩ := h.hashed fid' t r l ht (by simpa using hl)
        exact ⟨info, (by simpa using hd : DescIn DFKNTsize f l info).keeps hk⟩
      · exact (hnew l hl).1
    · simpa [e] using h.hashed fid' t r l ht (by simpa [e] using hl)
  · obtain ⟨n, hd⟩ := h.opened i hi
    simp only [HState.setFile_acc, HState.setFile_files] at hd ⊢
    split_ifs at hd ⊢
    · exact ⟨n, hd.keeps hk⟩
    · exact ⟨n, hd⟩
  · by_cases e : fid' = fid
    · subst e
      simp only [HState.setFile_files, if_true]
      rcases hg _ l h₁ with g₁ | ⟨-, g₁⟩ <;> rcases hg _ l' h₂ with g₂ | ⟨-, g₂⟩
      · -- both were reachable: their DDs are kept
        obtain ⟨d₁, -⟩ := hkeep l g₁
        obtain ⟨d₂, -⟩ := hkeep l' g₂
        have := h.apart _ l l' g₁ g₂ hne
        simp only [HState.setFile_files, if_true] at this
        rw [FileRec.Apart, d₁, d₂]; exact this
      · -- the new descriptor lies past the end of the old file
        obtain ⟨d₁, _, hd⟩ := hkeep l g₁
        have := hd.end_le; have := (hnew l' g₂).2
        left; rw [d₁]; omega
      · obtain ⟨d₂, _, hd⟩ := hkeep l' g₂
        have := hd.end_le; have := (hnew l g₁).2
        right; rw [d₂]; omega
      · exact absurd (Option.some_injective _ (g₁.symm.trans g₂)) hne
    · have hg' : ∀ l, Guarded (s.setFile fid F) fid' l → Guarded (s.setFile fid f) fid' l :=
        fun l hl => ((hg _ l hl).resolve_right fun h => e h.1)
      simpa [e] using h.apart fid' l l' (hg' l h₁) (hg' l' h₂) hne

/-- `setFile` with no new descriptor. -/
theorem keeps (h : Intact DFKNTsize (s.setFile fid f)) (hk : f.Keeps F) (hs : F.HashSound)
    (hh : ∀ t r l, SPECIALTAG t = true → F.hash t r = some l → f.hash t r = some l) :
    Intact DFKNTsize (s.setFile fid F) :=
  h.setFile hk hs none (fun t r l ht hl => .inl (hh t r l ht hl)) fun _ h => by cases h

/-- A change of `maxref`, `attach` or the position of a file keeps the state intact. -/
theorem of_dir (h : Intact DFKNTsize (s.setFile fid f)) (hn : F.ndds = f.ndds) (hd : F.dds = f.dds)
    (hh : F.hash = f.hash) (hk : F.disk = f.disk) (he : F.eof = f.eof) :
    Intact DFKNTsize (s.setFile fid F) := by
  have hs : f.HashSound := by simpa using h.sound fid
  exact h.keeps (.of_dir hn hd hk he.ge) (hs.of_dir hn hd hh) fun t r l _ hl => by rwa [hh] at hl

/-- `HCPwrite`'s rewrite of the length field of a descriptor that can be reached keeps the state
intact. -/
theorem lengthRewrite (h : Intact DFKNTsize s) {l : Loc} (hg : Guarded s fid l) {n : Int}
    (hn : IsInt32 n) :
    Intact DFKNTsize (s.setFile fid (hpWrite (hpSeek (s.files fid)
      (wrap32 (((s.files fid).dds l).offset + 4))) (int32Encode n))) := by
  set F := s.files fid
  set F' := hpWrite (hpSeek F (wrap32 ((F.dds l).offset + 4))) (int32Encode n)
  obtain ⟨infoL, hL⟩ := h.desc hg
  -- every descriptor that can be reached is kept, the rewritten one with the new length
  have step : ∀ l' info', Guarded s fid l' → DescIn DFKNTsize F l' info' →
      ∃ m, DescIn DFKNTsize F' l' { info' with length := m } := by
    intro l' info' hg' hd
    by_cases e : l' = l
    · subst e; exact ⟨n, hd.lengthRewrite hn⟩
    · exact ⟨_, hd.lengthRewrite_apart hL (h.apart fid l l' hg hg' (Ne.symm e)) n⟩
  have hgs : ∀ fid' l', Guarded (s.setFile fid F') fid' l' → Guarded s fid' l' := by
    rintro fid' l' (⟨t, r, ht, hl⟩ | hl)
    · refine .inl ⟨t, r, ht, ?_⟩
      by_cases e : fid' = fid
      · subst e; simpa [F'] using hl
      · simpa [e] using hl
    · exact .inr hl
  refine ⟨fun fid' => ?_, fun fid' t r l' ht hl => ?_, fun i hi => ?_, fun fid' l₁ l₂ h₁ h₂ hne => ?_⟩
  · by_cases e : fid' = fid
    · subst e; simpa [F'] using (h.sound fid').of_dir (g := F') rfl rfl rfl
    · simpa [e] using h.sound fid'
  · by_cases e : fid' = fid
    · subst e
      simp only [HState.setFile_files, if_true] at hl ⊢
      obtain ⟨info, hd⟩ := h.hashed _ t r l' ht hl
      obtain ⟨m, hd'⟩ := step l' info (.inl ⟨t, r, ht, hl⟩) hd
      exact ⟨_, hd'⟩
    · simpa [e] using h.hashed fid' t r l' ht (by simpa [e] using hl)
  · obtain ⟨m₀, hd⟩ := h.opened i hi
    simp only [HState.setFile_acc, HState.setFile_files]
    split_ifs with e
    · obtain ⟨m, hd'⟩ := step _ _ (.inr ⟨i, hi, e, rfl⟩) (e ▸ hd)
      exact ⟨m, hd'⟩
    · exact ⟨m₀, hd⟩
  · have := h.apart fid' l₁ l₂ (hgs _ _ h₁) (hgs _ _ h₂) hne
    by_cases e : fid' = fid
    · subst e; simpa [FileRec.Apart, F'] using this
    · simpa [e] using this

/-- `Hdeldd` of a regular pair with an entry keeps the state intact: it frees a slot that holds
no special DD. -/
theorem hDeldd (h : Intact DFKNTsize (s.setFile fid f)) {t r : UInt16} (ht : SPECIALTAG t = false)
    (hr : r ≠ DFREF_WILDCARD) (hh : f.hash t r ≠ none) {G : FileRec} (hd : Hdf4.hDeldd f t r = some G) :
    Intact DFKNTsize (s.setFile fid G) := by
  have hs : f.HashSound := by simpa using h.sound fid
  obtain ⟨x, hx⟩ := Option.ne_none_iff_exists'.1 hh
  rw [hDeldd_of_hash hr hx] at hd
  cases hd
  refine h.keeps (((FileRec.Keeps.refl f).setDD (fun hsp => ?_) _).setHash _ _ _) (hs.delete hx)
    fun t' r' l _ hl => ?_
  · rw [(hs t r x hx).2.1, ht] at hsp; exact absurd hsp.2 (by decide)
  · rw [hiDelHashDD_hash, FileRec.setDD_hash] at hl
    split_ifs at hl
    exact hl

/-- `HIdel_hash_dd` keeps the state intact. -/
theorem delHash (h : Intact DFKNTsize (s.setFile fid f)) (t r : UInt16) :
    Intact DFKNTsize (s.setFile fid (hiDelHashDD f t r)) := by
  have hs : f.HashSound := by simpa using h.sound fid
  refine h.keeps ((FileRec.Keeps.refl f).setHash _ _ _) (hs.del t r) fun t' r' l _ hl => ?_
  rw [hiDelHashDD_hash] at hl
  split_ifs at hl
  exact hl

/-! ## The calls -/

/-- A seek, read or write on an open compressed record keeps the state intact, whatever its
outcome: the record stays open on its descriptor, which holds the record's length when the write
rewrote it. -/
theorem hcpCall (h : Intact DFKNTsize s) {slot : Nat} (ho : OpenComp (s.acc slot)) (c : HcpCall) :
    Intact DFKNTsize ((s.setFile (s.acc slot).fileId
      (Hdf4.hcpCall (s.files (s.acc slot).fileId) (s.acc slot) c).1).setAcc slot
      (Hdf4.hcpCall (s.files (s.acc slot).fileId) (s.acc slot) c).2.1) := by
  set a := s.acc slot
  set F := s.files a.fileId
  obtain ⟨n₀, hd₀⟩ := h.opened slot ho
  -- the file after the call is intact and holds the record's descriptor
  have key : Intact DFKNTsize (s.setFile a.fileId (Hdf4.hcpCall F a c).1) ∧
      ∃ n, DescIn DFKNTsize (Hdf4.hcpCall F a c).1 a.loc { a.info with length := n } := by
    rcases hcpCall_file (f := F) (a := a) c with ⟨p, hp⟩ | ⟨n, hn, hp⟩ <;> rw [hp]
    · have hF : Intact DFKNTsize (s.setFile a.fileId F) := by rwa [HState.setFile_self]
      exact ⟨hF.of_dir rfl rfl rfl rfl rfl, n₀, hd₀.keeps (.of_dir rfl rfl rfl le_rfl)⟩
    · exact ⟨h.lengthRewrite (.inr ⟨slot, ho, rfl, rfl⟩) hn, n, hd₀.lengthRewrite hn⟩
  obtain ⟨p, m, ha⟩ := hcpCall_acc (f := F) (a := a) c
  obtain ⟨n, hd⟩ := key.2
  rw [ha]
  exact key.1.setAcc fun _ => ⟨⟨n, by simpa using hd⟩, .inr ⟨slot, ho, rfl, rfl⟩⟩

/-- `HCPendaccess` keeps the state intact: it detaches from the file and gives the record back. -/
theorem wp_hcpEndaccess (h : Intact DFKNTsize s) (endaccess : Bool) (slot : Nat) :
    wp (hcpEndaccess endaccess slot) (fun _ s' => Intact DFKNTsize s') (fun _ s' => Intact DFKNTsize s') s := by
  have h₀ : Intact DFKNTsize (s.setFile (s.acc slot).fileId (s.files (s.acc slot).fileId)) := by
    rwa [HState.setFile_self]
  have hF := h₀.of_dir (F := { s.files (s.acc slot).fileId with
    attach := (s.files (s.acc slot).fileId).attach - 1 }) rfl rfl rfl rfl rfl
  simp only [hcpEndaccess, hcpCloseAID, wp_bind, wp_getAcc, wp_getFile, wp_ite, wp_throw,
    wp_tryCatch, wp_discard, wp_modifyAcc, wp_modifyFile, wp_release, wp_pure]
  split_ifs
  · exact h
  · exact hF.setAcc_closed rfl
  · simp only [HState.setAcc_setFile, HState.setAcc_setAcc, HState.setAcc_files, HState.setAcc_acc, if_true]
    exact hF.setAcc_closed rfl

/-- `HCIstaccess` of a record pointed at a slot a special pair maps to, from an intact state in
which that record was not yet taken: whatever its outcome, the state is intact once the record
is given back, and intact as it is when the call succeeds, the record then open on the
descriptor with the `compinfo_t` parsed from it. -/
theorem wp_hciStaccess (h : Intact DFKNTsize s) {slot : Nat} {a : AccRec}
    (hl : Hashed s a.fileId a.loc) (acc_mode : Nat) (o : StaccessOutcome) :
    wp (hciStaccess DFKNTsize o slot acc_mode)
      (fun _ s' => Intact DFKNTsize s' ∧ ∀ b : AccRec, b.used = false → Intact DFKNTsize (s'.setAcc slot b))
      (fun _ s' => ∀ b : AccRec, b.used = false → Intact DFKNTsize (s'.setAcc slot b)) (s.setAcc slot a) := by
  obtain ⟨t, r, ht, hh⟩ := hl
  obtain ⟨info₀, hd₀⟩ := h.hashed _ t r _ ht hh
  set F := s.files a.fileId
  -- the file differs from `F` in its position and `attach` only
  have hfile : ∀ p k, Intact DFKNTsize (s.setFile a.fileId { F with fpos := p, attach := k }) :=
    fun _ _ => (by rwa [HState.setFile_self] : Intact DFKNTsize (s.setFile a.fileId F)).of_dir
      rfl rfl rfl rfl rfl
  simp only [hciStaccess, wp_bind, wp_getAcc, wp_getFile, wp_ite, wp_throw, wp_modifyAcc,
    wp_modifyFile, wp_pure, HState.setAcc_acc, if_true, HState.setAcc_files]
  split_ifs
  · intro b hb; simpa using h.setAcc_closed (i := slot) hb
  cases hmal : o.mallocInfo with
  | none => intro b hb; simpa using h.setAcc_closed (i := slot) hb
  | some junk =>
    dsimp only
    obtain ⟨p, hp⟩ := hciReadHeader_fst F junk (F.dds a.loc) o.cInfo o.read
    rcases hrh : hciReadHeader F junk (F.dds a.loc) o.cInfo o.read with ⟨F', info', c', r⟩
    rw [hrh] at hp
    subst hp
    simp only [wp_bind, wp_modifyFile, wp_modifyAcc, wp_orThrow, wp_pure, HState.setAcc_files,
      HState.setAcc_acc, HState.setFile_acc, HState.setFile_files, if_true, HState.setAcc_setFile,
      HState.setFile_setFile, HState.setAcc_setAcc]
    -- every failure gives the record back
    have hrel : ∀ b : AccRec, b.used = false →
        Intact DFKNTsize ((s.setFile a.fileId { F with fpos := p }).setAcc slot b) :=
      fun _ hb => (hfile p F.attach).setAcc_closed hb
    rcases r with _ | ⟨⟩
    · exact hrel
    -- the parse is the one `DescOK.readHeader` describes, and agrees with the descriptor
    obtain ⟨f', info, c, hr, -, hl, hcr, hmi, hct, hpc⟩ :=
      (DescIn.descOK (a := { a with info := info₀ }) hd₀).readHeader hd₀.wf junk o.cInfo
    have hag := hciInit_agree hd₀.wf hl hcr hmi hct hpc
    have hok := hciReadHeader_ok (show (hciReadHeader F junk (F.dds a.loc) o.cInfo o.read).2.2.2 = .ok () by
      rw [hrh])
    rw [hrh, show ({ a with info := info₀ } : AccRec).loc = a.loc from rfl, hr] at hok
    obtain ⟨-, rfl, rfl⟩ : _ = f' ∧ info' = info ∧ c' = c := by simpa using hok
    rcases hm : hciInitModel info'.minfo info'.minfo.modelType with ⟨m, _ | ⟨⟩⟩
    · exact hrel
    rcases hc : hciInitCoder DFKNTsize info'.cinfo info'.cinfo.coderType c' with ⟨ci, _ | ⟨⟩⟩
    · exact hrel
    rw [hm, hc] at hag
    refine ⟨(hfile p (F.attach + 1)).setAcc fun _ =>
        ⟨⟨info'.length, ?_⟩, .inl ⟨t, r, ht, by simpa using hh⟩⟩,
      fun _ hb => (hfile p (F.attach + 1)).setAcc_closed hb⟩
    -- `Agree` does not read `attached`
    have hag' : CompInfo.Agree { info' with attached := 1, minfo := m, cinfo := ci } info₀ := hag
    simpa using (hd₀.keeps (g := { F with fpos := p, attach := F.attach + 1 })
      (.of_dir rfl rfl rfl le_rfl)).agree hag'

/-- `HCPstread` and `HCPstwrite` keep the state intact, whatever their outcome. -/
theorem wp_hcpStaccess (h : Intact DFKNTsize s) {slot : Nat} {a : AccRec}
    (hl : Hashed s a.fileId a.loc) (mode : Nat) (o : StaccessOutcome) (model : Bool) :
    wp (hcpStaccess mode DFKNTsize o model slot) (fun _ s' => Intact DFKNTsize s')
      (fun _ s' => Intact DFKNTsize s') (s.setAcc slot a) := by
  simp only [hcpStaccess, wp_bind, wp_tryCatch, wp_release, wp_throw, wp_ite, wp_pure]
  refine wp_mono (h.wp_hciStaccess hl mode o) (fun _ s' hs => ?_) fun _ s' hs => hs _ rfl
  cases model
  · exact hs.2 _ rfl
  · exact hs.1

/-- `Hstartread` and `Hstartwrite` of a slot a special pair maps to keep the state intact,
whatever their outcome. -/
theorem wp_hStartAccess (h : Intact DFKNTsize s) {l : Loc} (hl : Hashed s fid l) (write : Bool)
    (o : StaccessOutcome) (model : Bool) :
    wp (hStartAccess DFKNTsize write fid l o model) (fun _ s' => Intact DFKNTsize s')
      (fun _ s' => Intact DFKNTsize s') s := by
  simp only [hStartAccess, wp_bind]
  refine wp_hiGetAccessSlot (fun slot _ _ => ?_) fun _ => h
  simp only [wp_modifyAcc, wp_bind, HState.setAcc_acc, if_true, HState.setAcc_setAcc]
  cases write
  · exact h.wp_hcpStaccess hl _ o model
  · exact h.wp_hcpStaccess hl _ o model

/-- The migration of the old element in slot `l` keeps the state intact, whatever its calls
return, when `Hdeldd` of the element's pair reaches it through the hash index. -/
theorem wp_hcCreateMigrate (h : Intact DFKNTsize s) {slot : Nat} (ho : OpenComp (s.acc slot))
    (hfid : (s.acc slot).fileId = fid) {l : Loc} (hdel : DelReady (s.files fid) l) (o : CreateOutcome) :
    wp (hcCreateMigrate o fid slot l) (fun _ s' => Intact DFKNTsize s') (fun _ s' => Intact DFKNTsize s') s := by
  -- a call on the record keeps what the steps after it need
  have step : ∀ {s₀ : HState} (c : HcpCall), Intact DFKNTsize s₀ → OpenComp (s₀.acc slot) →
      (s₀.acc slot).fileId = fid → DelReady (s₀.files fid) l →
      ∀ {Q : Int → HState → Prop} {E : Dfe → HState → Prop},
      (∀ v s', Intact DFKNTsize s' → OpenComp (s'.acc slot) → (s'.acc slot).fileId = fid →
        DelReady (s'.files fid) l → Q v s') →
      (∀ e s', Intact DFKNTsize s' → E e s') → wp (hcpAt slot fun f a => Hdf4.hcpCall f a c) Q E s₀ := by
    intro s₀ c h₀ o₀ f₀ d₀ Q E hq he
    subst f₀
    obtain ⟨p, n, ha⟩ := hcpCall_acc (f := s₀.files (s₀.acc slot).fileId) (a := s₀.acc slot) c
    refine wp_hcpAt_of (fun s' => Intact DFKNTsize s' ∧ OpenComp (s'.acc slot) ∧
      (s'.acc slot).fileId = (s₀.acc slot).fileId ∧ DelReady (s'.files (s₀.acc slot).fileId) l)
      ⟨h₀.hcpCall o₀ c, ?_, ?_, ?_⟩ (fun v s' hs => hq v s' hs.1 hs.2.1 hs.2.2.1 hs.2.2.2)
      fun e s' hs => he e s' hs.1
    · simpa [ha] using o₀
    · simp [ha]
    · simpa using d₀.of_sameDir (hcpCall_sameDir c)
  simp only [hcCreateMigrate, wp_bind, wp_getFile, wp_ite, wp_release, wp_throw, wp_tryCatch, wp_discard]
  split
  · exact h.setAcc_closed rfl
  split
  · exact h.setAcc_closed rfl
  simp only [wp_pure]
  refine step (.write ((s.files fid).dds l).length o.write) h ho hfid hdel
    (fun _ s₁ h₁ o₁ f₁ d₁ => ?_) fun _ s₁ h₁ => h₁.setAcc_closed rfl
  refine step (.seek 0 DF_START o.seek) h₁ o₁ f₁ d₁ (fun _ s₂ h₂ _ _ d₂ => ?_)
    fun _ s₂ h₂ => h₂.setAcc_closed rfl
  -- `Hdeldd` of the old element, then `HIdel_hash_dd`
  have h₂' : Intact DFKNTsize (s₂.setFile fid (s₂.files fid)) := by rwa [HState.setFile_self]
  obtain ⟨ht, hr, hh⟩ := d₂
  simp only [hcCreateDeldd, wp_bind, wp_getFile]
  split
  · exact h₂.setAcc_closed rfl
  · rename_i G hG
    have hd : Hdf4.hDeldd (s₂.files fid) ((s₂.files fid).dds l).tag ((s₂.files fid).dds l).ref =
        some G := by
      split_ifs at hG; exact hG
    have h₃ := h₂'.hDeldd ht hr hh hd
    simp only [wp_modifyFile, wp_ite, wp_release, wp_throw, wp_bind, wp_pure, HState.setFile_files,
      if_true, HState.setFile_setFile, HState.setFile_acc]
    split_ifs
    · exact h₃.setAcc_closed rfl
    · exact h₃.delHash _ _

/-- The `compinfo_t` `HCcreate` builds with the STDIO model and one of the four coders on
parameters that fit is fit for the descriptor. -/
theorem headerWF_createInfo {model_type coder_type : Nat} {c_info : CompParams}
    (hm : model_type = COMP_MODEL_STDIO) (hc : coder_type < 4) (hp : ParamsFit coder_type c_info)
    (junk : CompInfo) {n : Int} (hn : IsInt32 n) (c : UInt16) :
    HeaderWF DFKNTsize { junk with
      length := n, attached := 1, compRef := c, minfo := (hciInitModel junk.minfo model_type).1,
      cinfo := (hciInitCoder DFKNTsize junk.cinfo coder_type c_info).1 } := by
  obtain ⟨ht, hnb, hs⟩ := hciInitCoder_fits DFKNTsize hc hp junk.cinfo
  subst hm
  exact ⟨hn, by simp [hciInitModel], by rw [ht]; exact hc, fun h => hnb (ht ▸ h),
    fun h => hs (ht ▸ h)⟩

/-- `HCcreate` of a ref other than the wildcard, with the STDIO model and one of the four
coders on parameters that fit, keeps the state intact whatever its calls return. -/
theorem wp_hcCreate (h : Intact DFKNTsize s) {tag ref : UInt16} {model_type coder_type : Nat}
    {c_info : CompParams} (hr : ref ≠ DFREF_WILDCARD) (hm : model_type = COMP_MODEL_STDIO)
    (hc : coder_type < 4) (hp : ParamsFit coder_type c_info) (o : CreateOutcome) :
    wp (hcCreate DFKNTsize o fid tag ref model_type coder_type c_info) (fun _ s' => Intact DFKNTsize s')
      (fun _ s' => Intact DFKNTsize s') s := by
  simp only [hcCreate, wp_bind, wp_getFile, wp_ite, wp_throw]
  split_ifs with h₁ h₂
  · exact h
  · exact h
  have htag : SPECIALTAG tag = false := by simp_all
  refine wp_hiGetAccessSlot (fun slot _ _ => ?_) fun _ => h
  set f := s.files fid with hf
  set c := (hNewref f).1 with hc'
  have h₀ : Intact DFKNTsize (s.setFile fid f) := by rwa [HState.setFile_self]
  have hs₀ : f.HashSound := h.sound fid
  dsimp only
  rw [wp_bind]
  refine wp_hcCreateLookup (fun hreg => ?_) fun _ _ _ => ?_
  swap
  · simp only [HState.setAcc_acc, if_true, HState.setAcc_setAcc]
    exact h.setAcc_closed rfl
  rw [wp_bind]
  refine wp_hcCreateEmptyDD (fun f₁ lD hg _ hv hfreeD => ?_) fun _ => ?_
  swap
  · simp only [HState.setAcc_acc, if_true, HState.setAcc_setAcc]
    exact h.setAcc_closed rfl
  simp only [HState.setAcc_files] at hg
  have i₁ : Intact DFKNTsize (s.setFile fid f₁) :=
    h₀.keeps (.of_grows hg) (hs₀.grows hg) fun t r l _ hl => by rwa [hg.hash] at hl
  have fr₁ : CreateFrame f f₁ tag ref c none := (CreateFrame.refl f tag ref c none).grows hg
  rw [wp_bind]
  refine wp_hcCreateInfo (fun junk info _ hinfo => ?_) fun _ => ?_
  swap
  · simp only [HState.setAcc_acc, if_true, HState.setAcc_setAcc, HState.setAcc_setFile,
      HState.setFile_setFile]
    exact i₁.setAcc_closed rfl
  simp only [HState.setAcc_acc, if_true, HState.setAcc_setAcc, HState.setAcc_setFile,
    HState.setFile_setFile, HState.setAcc_files, HState.setFile_files] at hinfo ⊢
  set f₂ := (hNewref f₁).2
  have hc₁ : (hNewref f₁).1 = c := by rw [hc', hNewref_fst, hNewref_fst, hg.maxref]
  have i₂ : Intact DFKNTsize (s.setFile fid f₂) :=
    i₁.of_dir (hNewref_ndds _) (hNewref_dds _) (hNewref_hash _) (hNewref_disk _) (hNewref_eof _)
  have hs₂ : f₂.HashSound := by simpa using i₂.sound fid
  have fr₂ : CreateFrame f f₂ tag ref c none := fr₁.of_dir (hNewref_ndds _) (hNewref_dds _) (hNewref_hash _)
  -- the descriptor's slot is free: nothing special is there and no entry leads to it
  have hv₂ : f₂.Valid lD := by simpa [FileRec.Valid, f₂] using hv
  have hfree₂ : (f₂.dds lD).tag = DFTAG_NULL := by simpa [f₂] using hfreeD
  have hns : ¬(f₂.Valid lD ∧ SPECIALTAG (f₂.dds lD).tag = true) := fun hn => by
    rw [hfree₂] at hn; exact absurd hn.2 (by decide)
  have hnh : ∀ t r, f₂.hash t r ≠ some lD := hs₂.not_hashed fun hl => hl.2 hfree₂
  have hwf : HeaderWF DFKNTsize info := by
    rw [hinfo]
    refine headerWF_createInfo hm hc hp junk ?_ _
    split
    · exact DD.length_fits _
    · decide
  rw [wp_bind, wp_tryCatch]
  refine wp_hciWriteHeader_keeps (fun _ _ _ _ hfit F3 hF3 => ?_) fun e g d hgd hkg _ _ _ => ?_
  swap
  · -- a failure leaves a special DD that no entry leads to
    simp only [wp_bind, wp_release, wp_throw, HState.setAcc_acc, if_true, HState.setAcc_setAcc,
      HState.setAcc_setFile, HState.setFile_setFile, HState.setAcc_files, HState.setFile_files] at hgd hkg ⊢
    have hsg : g.HashSound := hs₂.of_dir hgd.ndds hgd.dds hgd.hash
    refine (i₂.keeps (hkg.setDD hns d) (hsg.setDD (fun t r => ?_) d) fun t r l _ hl => ?_).setAcc_closed rfl
    · rw [hgd.hash]; exact hnh t r
    · simpa [hgd.hash] using hl
  simp only [HState.setAcc_acc, if_true, HState.setAcc_files, HState.setFile_files] at hF3 hfit
  subst hF3
  -- `HCIwrite_header` writes the descriptor past the old end of the file and enters it
  obtain ⟨hdD, hoffD⟩ := DescIn.headerFile hv₂ (SPECIALTAG_MKSPECIALTAG tag) ref hwf hfit
  set F3 := headerFile f₂ lD (MKSPECIALTAG tag) ref (compHeaderBytes info)
  have i₃ : Intact DFKNTsize (s.setFile fid F3) := by
    refine i₂.setFile (.headerFile hns _ _ _) (hs₂.headerFile hv₂ hnh (MKSPECIALTAG_ne_null tag) _ _)
      (some lD) (fun t r l _ hl => ?_) fun l hl => ?_
    · rw [headerFile_hash] at hl
      split_ifs at hl
      · exact .inr hl
      · exact .inl hl
    · cases hl; exact ⟨⟨info, hdD⟩, by rw [hoffD]⟩
  have fr₃ := fr₂.headerFile (fr₂.not_live hfree₂ (by simp)) (compHeaderBytes info)
  simp only [wp_bind, wp_modifyAcc, wp_modifyFile, HState.setAcc_files, HState.setFile_files,
    if_true, HState.setAcc_acc, HState.setFile_acc, HState.setFile_setFile, HState.setAcc_setAcc,
    HState.setAcc_setFile]
  -- the record is opened on the descriptor, the file attached and `maxref` raised
  set F5 : FileRec := if F3.maxref < ref then { F3 with attach := F3.attach + 1, maxref := ref }
    else { F3 with attach := F3.attach + 1 } with hF5
  have h5 : F5.ndds = F3.ndds ∧ F5.dds = F3.dds ∧ F5.hash = F3.hash ∧ F5.disk = F3.disk ∧
      F5.eof = F3.eof := by
    rw [hF5]; split_ifs <;> exact ⟨rfl, rfl, rfl, rfl, rfl⟩
  have i₅ := i₃.of_dir h5.1 h5.2.1 h5.2.2.1 h5.2.2.2.1 h5.2.2.2.2
  have fr₅ := fr₃.of_dir h5.1 h5.2.1 h5.2.2.1
  set a₄ : AccRec := { s.acc slot with
    used := true, loc := lD, info := info, special := SPECIAL_COMP, posn := 0, access := DFACC_RDWR,
    fileId := fid, appendable := false, flush := false }
  have i₄ : Intact DFKNTsize ((s.setFile fid F5).setAcc slot a₄) := by
    refine i₅.setAcc fun _ => ⟨⟨info.length, ?_⟩, .inl ⟨MKSPECIALTAG tag, ref, SPECIALTAG_MKSPECIALTAG tag, ?_⟩⟩
    · simpa using hdD.keeps (.of_dir h5.1 h5.2.1 h5.2.2.2.1 h5.2.2.2.2.ge)
    · simp [h5.2.2.1, F3]
  refine wp_hcCreateStwrite (fun F6 _ hs6 => ?_) fun _ => ?_
  swap
  · simp only [HState.setAcc_acc, if_true, HState.setAcc_setAcc]
    exact i₅.setAcc_closed rfl
  simp only [HState.setAcc_acc, if_true, HState.setAcc_files, HState.setFile_files, hinfo, hc₁] at hs6
  -- the model's `stwrite` adds the backing element
  have hs₅ : F5.HashSound := by simpa using i₅.sound fid
  obtain ⟨hk6, hs6', hh6, hb6⟩ := modelStwrite_sound hs₅ hs6
  have i₄' : Intact DFKNTsize ((s.setAcc slot a₄).setFile fid F5) := i₄
  have i₆ : Intact DFKNTsize ((s.setFile fid F6).setAcc slot a₄) := i₄'.keeps hk6 hs6' hh6
  have fr₆ := fr₅.stwrite hs6
  simp only [HState.setAcc_setFile, HState.setFile_setFile]
  rcases hld : hiLookupDD f tag ref with _ | l
  · exact i₆
  -- the old element is still there, under its own entry, for `Hdeldd` to reach
  have hl := hiLookupDD_regular hs₀ hr hld (hreg l hld)
  obtain ⟨hlive, hlt, hlr⟩ := hs₀ _ _ _ hl
  have hdl : F6.dds l = f.dds l := (fr₆.kept l hlive (by simp)).2
  have hdel : DelReady F6 l := by
    refine ⟨by rw [hdl, hlt]; exact htag, by rw [hdl, hlr]; exact hr, ?_⟩
    rw [hdl, hlt, hlr]
    by_cases hcol : tag = DFTAG_COMPRESSED ∧ ref = c
    · rw [hcol.1, hcol.2]; exact hb6
    · rw [fr₆.hash tag ref (fun h => MKSPECIALTAG_ne_self htag h.1.symm) hcol (.inl rfl), hl]
      exact Option.some_ne_none _
  simp only [wp_bind]
  exact wp_mono (i₆.wp_hcCreateMigrate (by simp [OpenComp, a₄]) (by simp [a₄]) (by simpa using hdel) o)
    (fun _ _ h => h) fun _ _ h => h

/-- In an intact state `HCIstaccess` would rebuild the `compinfo_t` of every open compressed
record whose N-bit number type, if any, has a size, from the descriptor it points at, its
checks of `HCIinit_model` and `HCIinit_coder` passing, with the length that the descriptor's
length field holds: the record's own length, unless another record on the element wrote past
it. -/
theorem open_reparses (h : Intact DFKNTsize s) {i : Nat} (ho : OpenComp (s.acc i))
    (hnt : (s.acc i).info.cinfo.coderType = COMP_CODE_NBIT →
      (s.acc i).info.cinfo.nbitInfo.ntSize ≠ FAIL) :
    Reparses DFKNTsize (s.files (s.acc i).fileId) { s.acc i with
      info := { (s.acc i).info with length := lengthField (s.files (s.acc i).fileId) (s.acc i) } } := by
  obtain ⟨n, hd⟩ := h.opened i ho
  have hok := DescIn.descOK (a := { s.acc i with info := { (s.acc i).info with length := n } }) hd
  have hn : lengthField (s.files (s.acc i).fileId) (s.acc i) = n :=
    lengthField_of_disk (a := { s.acc i with info := { (s.acc i).info with length := n } }) hok.length hok.disk
  rw [hn]
  exact hok.reparses hd.wf hnt

/-- After `HCcreate` of `(1, 1)` on `emptyFile`, every call succeeding, the new record is open
and its descriptor parses back. -/
theorem open_reparses_after_create :
    let s := ((hcCreate (fun _ => 0) .success 0 1 1 COMP_MODEL_STDIO COMP_CODE_NONE default).run.run
      (fileState emptyFile)).2
    Intact (fun _ => 0) s ∧ OpenComp (s.acc 0) ∧
      ((s.acc 0).info.cinfo.coderType = COMP_CODE_NBIT → (s.acc 0).info.cinfo.nbitInfo.ntSize ≠ FAIL) ∧
      Reparses (fun _ => 0) (s.files (s.acc 0).fileId) { s.acc 0 with
        info := { (s.acc 0).info with length := lengthField (s.files (s.acc 0).fileId) (s.acc 0) } } := by
  intro s
  have hs : Intact (fun _ => 0) s := wp_const (fileState_empty.wp_hcCreate
    (by decide) rfl (by decide) ⟨fun h => absurd h (by decide), fun h => absurd h (by decide)⟩ _)
  have ho : OpenComp (s.acc 0) := ⟨rfl, rfl⟩
  have hnt : (s.acc 0).info.cinfo.coderType = COMP_CODE_NBIT →
      (s.acc 0).info.cinfo.nbitInfo.ntSize ≠ FAIL := fun h => absurd h (by decide)
  exact ⟨hs, ho, hnt, open_reparses hs ho hnt⟩

end Intact

/-! ## Runs of calls -/

/-- What each call needs to keep the descriptors intact: `HCcreate` of a ref other than the
wildcard, with the STDIO model and one of the four coders on parameters that fit; `Hstartread`
or `Hstartwrite` of a slot a special pair maps to, as the H layer finds an element; a seek, read
or write on an open compressed record. `HCPendaccess` needs nothing. -/
def Call.Ready (s : HState) : Call → Prop
  | .create _ _ ref _ model_type coder_type c_info =>
    ref ≠ DFREF_WILDCARD ∧ model_type = COMP_MODEL_STDIO ∧ coder_type < 4 ∧ ParamsFit coder_type c_info
  | .start _ fid l _ _ => Hashed s fid l
  | .io slot _ => OpenComp (s.acc slot)
  | .endaccess _ _ => True

/-- Every call of a run is ready in the state the calls before it left. -/
def CallsReady (DFKNTsize : Int → Int) : List Call → HState → Prop
  | [], _ => True
  | c :: cs, s => c.Ready s ∧ CallsReady DFKNTsize cs ((c.run DFKNTsize).run.run s).2

/-- A ready call keeps the state intact, whatever the calls it makes return. -/
theorem Call.wp_intact {DFKNTsize : Int → Int} {s : HState} (h : Intact DFKNTsize s) (c : Call)
    (hc : c.Ready s) :
    wp (c.run DFKNTsize) (fun _ s' => Intact DFKNTsize s') (fun _ s' => Intact DFKNTsize s') s := by
  cases c with
  | create fid tag ref o model_type coder_type c_info =>
    exact h.wp_hcCreate hc.1 hc.2.1 hc.2.2.1 hc.2.2.2 o
  | start write fid l o model => exact h.wp_hStartAccess hc write o model
  | io slot call =>
    simp only [Call.run]
    exact wp_hcpAt_of (Intact DFKNTsize) (h.hcpCall hc call) (fun _ _ h => h) fun _ _ h => h
  | endaccess slot model => exact h.wp_hcpEndaccess model slot

/-- Over every run of ready calls, failed calls included, the descriptors stay intact: every
hash entry leads to a live slot holding its pair, every special pair to a well-formed
descriptor below the end of the file, every open compressed record to the descriptor of its
own `compinfo_t` up to the length, and these descriptors never overlap. -/
theorem runCalls_intact (DFKNTsize : Int → Int) (cs : List Call) (s : HState)
    (h : Intact DFKNTsize s) (hr : CallsReady DFKNTsize cs s) : Intact DFKNTsize (runCalls DFKNTsize cs s).1 := by
  induction cs generalizing s with
  | nil => exact h
  | cons c cs ih =>
    rw [runCalls_fst_cons]
    exact ih _ (wp_const (c.wp_intact h hr.1)) hr.2

/-- A run on `emptyFile` that creates `(1, 1)`, every call succeeding, writes five bytes to it
and ends the access. -/
theorem runCalls_intact_create_write :
    let cs : List Call := [.create 0 1 1 .success COMP_MODEL_STDIO COMP_CODE_NONE default,
      .io 0 (.write 5 ⟨true, true, true⟩), .endaccess 0 true]
    Intact (fun _ => 0) (fileState emptyFile) ∧ CallsReady (fun _ => 0) cs (fileState emptyFile) ∧
      Intact (fun _ => 0) (runCalls (fun _ => 0) cs (fileState emptyFile)).1 :=
  have hr : CallsReady (fun _ => 0) [.create 0 1 1 .success COMP_MODEL_STDIO COMP_CODE_NONE default,
      .io 0 (.write 5 ⟨true, true, true⟩), .endaccess 0 true] (fileState emptyFile) :=
    ⟨⟨by decide, rfl, by decide, fun h => absurd h (by decide), fun h => absurd h (by decide)⟩,
      ⟨rfl, rfl⟩, trivial, trivial⟩
  ⟨.fileState_empty, hr, runCalls_intact _ _ _ .fileState_empty hr⟩

/-- A write that carries the position past the length sets the length to the new position and
rewrites it in the descriptor. -/
theorem hcpWrite_grow (f : FileRec) (a : AccRec) {n : Int} (hn : 0 ≤ n)
    (hg : a.info.length < a.posn + n) (hfit : IsInt32 (a.posn + n)) :
    hcpWrite f a n ⟨true, true, true⟩ =
      (hpWrite (hpSeek f (wrap32 ((f.dds a.loc).offset + 4))) (int32Encode (a.posn + n)),
        { a with posn := a.posn + n, info := { a.info with length := a.posn + n } }, .ok n) := by
  simp [hcpWrite, wrap32_of_isInt32 hfit, hg, show ¬n < 0 by omega]

/-- Two records open on one element, each with its own `compinfo_t`: record `i` writes `n₁`
bytes, then record `j` writes `n₂`, both past their own lengths. Record `i` keeps the length
its write reached, while the length field, which a later `HCIstaccess` reads, holds the end of
`j`'s shorter write: `HCPwrite` compares the position only with the writer's own length. -/
theorem runCalls_lost_write {DFKNTsize : Int → Int} {s : HState} (h : Intact DFKNTsize s) {i j : Nat}
    (hij : i ≠ j) (hj : OpenComp (s.acc j)) (hfid : (s.acc i).fileId = (s.acc j).fileId)
    (hloc : (s.acc i).loc = (s.acc j).loc) {n₁ n₂ : Int} (hn₁ : 0 ≤ n₁) (hn₂ : 0 ≤ n₂)
    (hg₁ : (s.acc i).info.length < (s.acc i).posn + n₁) (hg₂ : (s.acc j).info.length < (s.acc j).posn + n₂)
    (hpj : 0 ≤ (s.acc j).posn) (hlost : (s.acc j).posn + n₂ < (s.acc i).posn + n₁)
    (hfit : (s.acc i).posn + n₁ ≤ 2147483647) :
    let s' := (runCalls DFKNTsize [.io i (.write n₁ ⟨true, true, true⟩),
      .io j (.write n₂ ⟨true, true, true⟩)] s).1
    (s'.acc i).info.length = (s.acc i).posn + n₁ ∧
      lengthField (s'.files (s'.acc i).fileId) (s'.acc i) = (s.acc j).posn + n₂ := by
  intro s'
  have hI₁ : IsInt32 ((s.acc i).posn + n₁) := ⟨by omega, hfit⟩
  have hI₂ : IsInt32 ((s.acc j).posn + n₂) := ⟨by omega, by omega⟩
  -- the descriptor after record `i` rewrites its length field and record `j` rewrites it again
  obtain ⟨m, hd⟩ := h.opened j hj
  have hd₂ := (hd.lengthRewrite hI₁).lengthRewrite hI₂
  simp only [s', runCalls_fst_cons]
  simp only [runCalls, Call.run, hcpAt_snd, hcpCall, hcpWrite_grow _ _ hn₁ hg₁ hI₁,
    hcpWrite_grow _ _ hn₂ hg₂ hI₂, HState.setAcc_acc, HState.setAcc_files, HState.setFile_files,
    HState.setFile_acc, ↓reduceIte, if_neg hij, if_neg (Ne.symm hij), hfid, hloc]
  exact ⟨trivial, lengthField_of_disk (a := { s.acc j with info := { (s.acc j).info with
    length := (s.acc j).posn + n₂ } }) hI₂ hd₂.disk⟩

/-- Two records opened on `(1, 1)` after it is created, one by `HCcreate` and one by
`Hstartwrite`: the first writes 100 bytes and the second 50; the length field says 50. -/
theorem runCalls_lost_write_create_start :
    let s := (runCalls (fun _ => 0) [.create 0 1 1 .success COMP_MODEL_STDIO COMP_CODE_NONE default,
      .start true 0 ⟨0, 0⟩ ⟨some default, ⟨true, true, true⟩, default⟩ true] (fileState emptyFile)).1
    let s' := (runCalls (fun _ => 0) [.io 0 (.write 100 ⟨true, true, true⟩),
      .io 1 (.write 50 ⟨true, true, true⟩)] s).1
    Intact (fun _ => 0) s ∧ (s'.acc 0).info.length = 100 ∧
      lengthField (s'.files (s'.acc 0).fileId) (s'.acc 0) = 50 := by
  intro s s'
  have h₁ := wp_const (Call.wp_intact (@Intact.fileState_empty (fun _ => 0))
    (.create 0 1 1 .success COMP_MODEL_STDIO COMP_CODE_NONE default)
    ⟨by decide, rfl, by decide, fun h => absurd h (by decide), fun h => absurd h (by decide)⟩)
  have hs : Intact (fun _ => 0) s := by
    simp only [s, runCalls_fst_cons]
    exact wp_const (Call.wp_intact h₁ (.start true 0 ⟨0, 0⟩ ⟨some default, ⟨true, true, true⟩, default⟩ true)
      ⟨MKSPECIALTAG 1, 1, rfl, rfl⟩)
  have hl₀ : (s.acc 0).info.length = 1 := rfl
  have hl₁ : (s.acc 1).info.length = 1 := rfl
  have hp₀ : (s.acc 0).posn = 0 := rfl
  have hp₁ : (s.acc 1).posn = 0 := rfl
  have hw := runCalls_lost_write hs (i := 0) (j := 1) (by decide) ⟨rfl, rfl⟩ rfl rfl
    (show (0 : Int) ≤ 100 by decide) (show (0 : Int) ≤ 50 by decide) (by omega) (by omega) (by omega) (by omega) (by omega)
  rw [hp₀, hp₁] at hw
  exact ⟨hs, hw⟩

/-! ## Opening a compressed element -/

/-- `HCIstaccess` of a record whose DD holds the descriptor of a well-formed `compinfo_t` `I`,
on a file open for the access mode, with every call it makes succeeding and an N-bit number
type that has a size: it succeeds, and it moves the file position, attaches to the file, and
sets the record up at position 0, for the access mode and reading, with a `compinfo_t` of its
own, attached once, that agrees with `I`. -/
theorem wp_hciStaccess_opens {DFKNTsize : Int → Int} (s : HState) (slot : Nat) {acc_mode : Nat} {I junk : CompInfo}
    {o : StaccessOutcome} (hd : DescIn DFKNTsize (s.files (s.acc slot).fileId) (s.acc slot).loc I)
    (hbad : BADFREC (s.files (s.acc slot).fileId) = false)
    (hmode : (s.files (s.acc slot).fileId).access &&& acc_mode ≠ 0)
    (hmal : o.mallocInfo = some junk) (hread : o.read = ⟨true, true, true⟩)
    (hnt : I.cinfo.coderType = COMP_CODE_NBIT → I.cinfo.nbitInfo.ntSize ≠ FAIL) :
    wp (hciStaccess DFKNTsize o slot acc_mode)
      (fun r s' => r = ASLOT2ID slot ∧ ∃ p info, info.Agree I ∧ info.attached = 1 ∧
        s' = (s.setFile (s.acc slot).fileId
          { s.files (s.acc slot).fileId with fpos := p, attach := (s.files (s.acc slot).fileId).attach + 1 }).setAcc
          slot { s.acc slot with special := SPECIAL_COMP, posn := 0, access := acc_mode ||| DFACC_READ, info := info })
      (fun _ _ => False) s := by
  have h2 : 2 ≤ (compHeaderBytes I).length := by
    rw [length_compHeaderBytes]; unfold COMP_HEADER_LENGTH; omega
  obtain ⟨F', info', c', hrh, -, hlen, href, hm, hct, hp⟩ :=
    hciReadHeader_compHeaderBytes DFKNTsize hd.wf hd.off (by have := hd.fits; omega) hd.disk junk o.cInfo
  obtain ⟨p, hF'⟩ := hciReadHeader_fst (s.files (s.acc slot).fileId) junk
    ((s.files (s.acc slot).fileId).dds (s.acc slot).loc) o.cInfo ⟨true, true, true⟩
  rw [hrh] at hF'
  dsimp only at hF'
  subst hF'
  obtain ⟨hmok, hcok⟩ := hciInit_ok hd.wf hm hct hp hnt info'.minfo info'.cinfo
  have hmode' : ((s.files (s.acc slot).fileId).access &&& acc_mode == 0) = false := by simpa using hmode
  simp only [hciStaccess, wp_bind, wp_getAcc, wp_getFile, wp_ite, wp_throw, wp_modifyAcc,
    wp_modifyFile, wp_pure, HState.setAcc_acc, if_true, HState.setAcc_files, hbad, hmode', Bool.false_or,
    Bool.false_eq_true, if_false, hmal, hread, hrh, wp_orThrow, hmok, hcok, HState.setAcc_setFile,
    HState.setAcc_setAcc, HState.setFile_setFile, HState.setFile_acc, HState.setFile_files, ↓reduceIte]
  refine ⟨trivial, p, _, ?_, rfl, rfl⟩
  exact hciInit_agree hd.wf hlen href hm hct hp

/-- What `Hstartread` or `Hstartwrite` of a compressed element does when it succeeds: access
record `slot` is taken and opened on slot `l` of file `fid` at position 0, for `acc_mode` and
reading, with a `compinfo_t` of its own, attached once, that agrees with `I`; the file is
attached once more and its position moved; nothing else changes. -/
def OpensOn (s s' : HState) (slot : Nat) (fid : Int) (l : Loc) (acc_mode : Nat) (I : CompInfo) : Prop :=
  ∃ p info, info.Agree I ∧ info.attached = 1 ∧
    s' = (s.setFile fid { s.files fid with fpos := p, attach := (s.files fid).attach + 1 }).setAcc
      slot { s.acc slot with
        used := true, fileId := fid, loc := l, posn := 0, special := SPECIAL_COMP,
        access := acc_mode ||| DFACC_READ, info := info }

/-- `Hstartread` and `Hstartwrite` of a compressed element: on a file open for the access mode
whose slot `l` holds the descriptor of a well-formed `compinfo_t` `I`, with every call
succeeding and an N-bit number type that has a size, the call takes a free access record and
opens it on the element with a `compinfo_t` that agrees with `I`; it fails only when every
access record is taken, and then changes nothing. -/
theorem hStartAccess_opens {DFKNTsize : Int → Int} {s : HState} {write : Bool} {fid : Int} {l : Loc} {I junk : CompInfo}
    {o : StaccessOutcome} (hd : DescIn DFKNTsize (s.files fid) l I) (hbad : BADFREC (s.files fid) = false)
    (hmode : (s.files fid).access &&& (if write then DFACC_WRITE else DFACC_READ) ≠ 0)
    (hmal : o.mallocInfo = some junk) (hread : o.read = ⟨true, true, true⟩)
    (hnt : I.cinfo.coderType = COMP_CODE_NBIT → I.cinfo.nbitInfo.ntSize ≠ FAIL) :
    wp (hStartAccess DFKNTsize write fid l o true)
      (fun r s' => ∃ slot < MAX_ACC, (s.acc slot).used = false ∧ r = ASLOT2ID slot ∧
        OpensOn s s' slot fid l (if write then DFACC_WRITE else DFACC_READ) I)
      (fun e s' => e = .tooMany ∧ s' = s ∧ ∀ i < MAX_ACC, (s.acc i).used = true) s := by
  simp only [hStartAccess, wp_bind]
  refine wp_hiGetAccessSlot (fun slot hlt hfree => ?_) fun hall => ⟨rfl, rfl, hall⟩
  simp only [wp_bind, wp_modifyAcc, HState.setAcc_acc, if_true, HState.setAcc_setAcc]
  cases write
  all_goals
    have key := wp_hciStaccess_opens (s.setAcc slot { s.acc slot with used := true, fileId := fid, loc := l })
      slot (by simpa using hd) (by simpa using hbad) (by simpa using hmode) hmal hread hnt
    simp only [hcpStread, hcpStwrite, hcpStaccess, wp_bind, wp_tryCatch, wp_ite, wp_pure,
      Bool.not_true, Bool.false_eq_true, if_false, if_true, HState.setAcc_acc, HState.setAcc_files,
      HState.setAcc_setFile, HState.setAcc_setAcc, ↓reduceIte] at key ⊢
    refine wp_mono key (fun r s' h => ?_) fun _ _ h => h.elim
    obtain ⟨rfl, p, info, hag, hat, rfl⟩ := h
    exact ⟨slot, hlt, hfree, rfl, p, info, hag, hat, by simp⟩

/-- `Hstartread` of `(1, 1)` right after `HCcreate` made it on an empty writable file. -/
theorem hStartAccess_opens_after_create :
    let s := (runCalls (fun _ => 0) [.create 0 1 1 .success COMP_MODEL_STDIO COMP_CODE_NONE default]
      (fileState emptyFile)).1
    ∃ I, DescIn (fun _ => 0) (s.files 0) ⟨0, 0⟩ I ∧
      wp (hStartAccess (fun _ => 0) false 0 ⟨0, 0⟩ ⟨some default, ⟨true, true, true⟩, default⟩ true)
        (fun r s' => ∃ slot < MAX_ACC, (s.acc slot).used = false ∧ r = ASLOT2ID slot ∧
          OpensOn s s' slot 0 ⟨0, 0⟩ (if false then DFACC_WRITE else DFACC_READ) I)
        (fun e s' => e = .tooMany ∧ s' = s ∧ ∀ i < MAX_ACC, (s.acc i).used = true) s := by
  intro s
  have hs : Intact (fun _ => 0) s := by
    simp only [s, runCalls_fst_cons]
    exact wp_const (Call.wp_intact (@Intact.fileState_empty (fun _ => 0))
      (.create 0 1 1 .success COMP_MODEL_STDIO COMP_CODE_NONE default)
      ⟨by decide, rfl, by decide, fun h => absurd h (by decide), fun h => absurd h (by decide)⟩)
  obtain ⟨m, hd⟩ := hs.opened 0 ⟨rfl, rfl⟩
  have hct : (s.acc 0).info.cinfo.coderType = COMP_CODE_NONE := rfl
  exact ⟨_, hd, hStartAccess_opens hd rfl (by decide) rfl rfl fun h => absurd (hct.symm.trans h) (by decide)⟩

end Hdf4
