import Hdf4.Comp.CreateSpec

/-!
# `HCcreate` when a call fails

Every call `HCcreate` makes can fail, and each failure after the access slot is taken only
gives the slot back (`access_rec->used = FALSE`): what the earlier phases did to the file
stays. This file follows every run that ends in an error.

* `CreateReleases` is what every failed run leaves, from any state: the access records'
  `used` flags and the records in use as they were, the other files untouched, and `attach`
  as it was or one up;
* `CreateFail` adds what a failed run leaves in a file satisfying the store invariant: the
  file within `CreateFrame` (changed only at the descriptor's pair, the backing pair and, when
  `HIdel_hash_dd` failed, the old element's slot, `delSlot`), and `attach` one up exactly when
  the descriptor was entered (`AttachDesc`);
* `wp_hcCreate` proves both for every outcome of every call, from the phase rules of
  `Comp.Create`, together with `CreateOpens` for the runs that succeed;
* `hcCreate_fail_keeps` states it for a failed run, together with the old element kept;
* `hcCreate_diskblock_fail_leaves_desc`: a failed `HPgetdiskblock` leaves a live DD with the
  descriptor's pair, since `HCIwrite_header` fills the slot before it allocates the block.
-/

namespace Hdf4

/-- How a failed `HCcreate` leaves `attach` of file `f`, now `f'`: as it was, with the
descriptor's pair `(st, ref)` hashed as before; or one up, with the descriptor entered. -/
def AttachDesc (f f' : FileRec) (st ref : UInt16) : Prop :=
  (f'.attach = f.attach ∧ f'.hash st ref = f.hash st ref) ∨
    (f'.attach = f.attach + 1 ∧ f.hash st ref = none ∧ f'.hash st ref ≠ none)

/-- What every failed `HCcreate` on file `fid` does to the access records and the file
records, from `s` to `s'`: no record changes its `used` flag, the records in use are untouched,
no other file changes, and `attach` is as it was or one up. -/
structure CreateReleases (s s' : HState) (fid : Int) : Prop where
  used : ∀ i, (s'.acc i).used = (s.acc i).used
  open_kept : ∀ i, (s.acc i).used = true → s'.acc i = s.acc i
  files_other : ∀ i, i ≠ fid → s'.files i = s.files i
  attach : (s'.files fid).attach = (s.files fid).attach ∨
    (s'.files fid).attach = (s.files fid).attach + 1

/-- The slot of file `f` that a failed `HCcreate` of `(tag, ref)` with error `e` may have
taken the DD from: the old element's hash entry when `HIdel_hash_dd` failed (`Hdeldd` had freed
the slot), and none otherwise. -/
def delSlot (f : FileRec) (tag ref : UInt16) (e : Dfe) : Option Loc :=
  if e = .cantDelHash then f.hash tag ref else none

/-- What a failed `HCcreate` of `(tag, ref)` on file `fid` leaves, from `s` to `s'`, with
error `e`: besides `CreateReleases`, the file stays within the frame of the descriptor, the
backing element and `delSlot`; and `attach` went up exactly when the descriptor was entered. -/
structure CreateFail (s s' : HState) (fid : Int) (tag ref : UInt16) (e : Dfe)
    extends CreateReleases s s' fid : Prop where
  frame : CreateFrame (s.files fid) (s'.files fid) tag ref (hNewref (s.files fid)).1
    (delSlot (s.files fid) tag ref e)
  desc : AttachDesc (s.files fid) (s'.files fid) (MKSPECIALTAG tag) ref

variable {s : HState} {fid : Int} {tag ref : UInt16}

/-- What a failed run leaves: `CreateReleases` from every state, and `CreateFail` from a file
satisfying the store invariant and a ref other than the wildcard. -/
def CreateFails (s s' : HState) (fid : Int) (tag ref : UInt16) (e : Dfe) : Prop :=
  CreateReleases s s' fid ∧
    (StoreInv (s.files fid) → ref ≠ DFREF_WILDCARD → CreateFail s s' fid tag ref e)

namespace CreateFails

variable {e : Dfe}

/-- A failure before an access slot is taken changes nothing. -/
theorem refl (s : HState) (fid : Int) (tag ref : UInt16) (e : Dfe) : CreateFails s s fid tag ref e :=
  ⟨⟨fun _ => rfl, fun _ _ => rfl, fun _ _ => rfl, .inl rfl⟩, fun _ _ =>
    ⟨⟨fun _ => rfl, fun _ _ => rfl, fun _ _ => rfl, .inl rfl⟩, .refl _ _ _ _ _, .inl ⟨rfl, rfl⟩⟩⟩

/-- A failure after slot `slot` was taken gives it back, and leaves file `F`. -/
theorem release {slot : Nat} (hfree : (s.acc slot).used = false) {F : FileRec} {a : AccRec}
    (ha : a.used = false)
    (hatt : F.attach = (s.files fid).attach ∨ F.attach = (s.files fid).attach + 1)
    (hfail : StoreInv (s.files fid) → ref ≠ DFREF_WILDCARD →
      CreateFrame (s.files fid) F tag ref (hNewref (s.files fid)).1 (delSlot (s.files fid) tag ref e) ∧
      AttachDesc (s.files fid) F (MKSPECIALTAG tag) ref) :
    CreateFails s ((s.setFile fid F).setAcc slot a) fid tag ref e := by
  have hr : CreateReleases s ((s.setFile fid F).setAcc slot a) fid := by
    refine ⟨fun i => ?_, fun i hi => ?_, fun i hi => by simp [hi], by simpa using hatt⟩
    · by_cases h : i = slot
      · subst h; simp [ha, hfree]
      · simp [h]
    · have h : i ≠ slot := by rintro rfl; simp [hfree] at hi
      simp [h]
  refine ⟨hr, fun hI href => ?_⟩
  obtain ⟨hframe, hdesc⟩ := hfail hI href
  exact ⟨hr, by simpa using hframe, by simpa using hdesc⟩

/-- A failure that only gives slot `slot` back. -/
theorem release_acc {slot : Nat} (hfree : (s.acc slot).used = false) {a : AccRec}
    (ha : a.used = false) : CreateFails s (s.setAcc slot a) fid tag ref e := by
  simpa [HState.setFile_self] using release hfree ha (.inl rfl)
    fun _ _ => ⟨.refl _ _ _ _ _, .inl ⟨rfl, rfl⟩⟩

end CreateFails

/-- Every run of `HCcreate`, whatever its calls return: a success opens a record on the file
(`CreateOpens`), a failure leaves `CreateFails`. -/
theorem wp_hcCreate (DFKNTsize : Int → Int) (o : CreateOutcome) (model_type coder_type : Nat)
    (c_info : CompParams) :
    wp (hcCreate DFKNTsize o fid tag ref model_type coder_type c_info)
      (fun aid s' => ∃ slot, aid = ASLOT2ID slot ∧ CreateOpens s s' fid slot)
      (fun e s' => CreateFails s s' fid tag ref e) s := by
  simp only [hcCreate, wp_bind, wp_getFile, wp_ite, wp_throw]
  split_ifs with h₁ h₂
  · exact .refl _ _ _ _ _
  · exact .refl _ _ _ _ _
  have htag : SPECIALTAG tag = false := by simp_all
  refine wp_hiGetAccessSlot (fun slot hlt hfree => ?_) fun _ => .refl _ _ _ _ _
  set f := s.files fid with hf
  set c := (hNewref f).1 with hc
  dsimp only
  rw [wp_bind]
  refine wp_hcCreateLookup (fun hreg => ?_) fun _ _ _ => ?_
  swap
  · simp only [HState.setAcc_acc, if_true, HState.setAcc_setAcc]
    exact .release_acc hfree rfl
  rw [wp_bind]
  refine wp_hcCreateEmptyDD (fun f₁ lD hg _ hv hfreeD => ?_) fun _ => ?_
  swap
  · simp only [HState.setAcc_acc, if_true, HState.setAcc_setAcc]
    exact .release_acc hfree rfl
  simp only [HState.setAcc_files] at hg
  have fr₁ : CreateFrame f f₁ tag ref c none := (CreateFrame.refl f tag ref c none).grows hg
  have hnl : ¬f.Live lD := fr₁.not_live hfreeD (by simp)
  rw [wp_bind]
  refine wp_hcCreateInfo (fun junk info _ hinfo => ?_) fun _ => ?_
  swap
  · simp only [HState.setAcc_acc, if_true, HState.setAcc_setAcc, HState.setAcc_setFile,
      HState.setFile_setFile]
    exact .release hfree rfl (.inl hg.attach)
      fun _ _ => ⟨fr₁.widen _, .inl ⟨hg.attach, by rw [hg.hash]⟩⟩
  simp only [HState.setAcc_acc, if_true, HState.setAcc_setAcc, HState.setAcc_setFile,
    HState.setFile_setFile, HState.setAcc_files, HState.setFile_files] at hinfo ⊢
  have hc₁ : (hNewref f₁).1 = c := by rw [hc, hNewref_fst, hNewref_fst, hg.maxref]
  have fr₂ : CreateFrame f (hNewref f₁).2 tag ref c none :=
    fr₁.of_dir (hNewref_ndds _) (hNewref_dds _) (hNewref_hash _)
  rw [wp_bind, wp_tryCatch]
  refine wp_hciWriteHeader (fun _ _ _ _ _ F3 hF3 => ?_) fun e F hF _ => ?_
  swap
  · obtain ⟨g, d, hgd, rfl, hdt, hdr⟩ := hF
    simp only [wp_bind, wp_release, wp_throw, HState.setAcc_acc, if_true, HState.setAcc_setAcc,
      HState.setAcc_setFile, HState.setFile_setFile, HState.setAcc_files, HState.setFile_files]
      at hgd ⊢
    have hatt : (g.setDD lD d).attach = f.attach := by simp [hgd.attach, hg.attach]
    exact .release hfree rfl (.inl hatt) fun _ _ =>
      ⟨((fr₂.of_dir hgd.ndds hgd.dds hgd.hash).setDD hnl (.inr (.inl ⟨hdt, hdr⟩))).widen _,
        .inl ⟨hatt, by simp [hgd.hash, hg.hash]⟩⟩
  simp only [HState.setAcc_acc, if_true, HState.setAcc_files, HState.setFile_files] at hF3
  subst hF3
  have fr₃ := fr₂.headerFile hnl (compHeaderBytes info)
  simp only [wp_bind, wp_modifyAcc, wp_modifyFile, HState.setAcc_files, HState.setFile_files,
    if_true, HState.setAcc_acc, HState.setFile_acc, HState.setFile_setFile, HState.setAcc_setAcc,
    HState.setAcc_setFile]
  set F3 := headerFile (hNewref f₁).2 lD (MKSPECIALTAG tag) ref (compHeaderBytes info)
  set F5 : FileRec := if F3.maxref < ref then { F3 with attach := F3.attach + 1, maxref := ref }
    else { F3 with attach := F3.attach + 1 } with hF5
  have h5 : F5.ndds = F3.ndds ∧ F5.dds = F3.dds ∧ F5.hash = F3.hash ∧ F5.attach = F3.attach + 1 := by
    rw [hF5]; split_ifs <;> exact ⟨rfl, rfl, rfl, rfl⟩
  have fr₅ := fr₃.of_dir h5.1 h5.2.1 h5.2.2.1
  have hatt₅ : F5.attach = f.attach + 1 := by
    rw [h5.2.2.2, headerFile_attach, hNewref_attach, hg.attach]
  -- from here on `attach` is one up, and, on a file satisfying `I`, the descriptor is entered
  have hfail : ∀ G : FileRec, G.attach = F5.attach →
      G.hash (MKSPECIALTAG tag) ref = F5.hash (MKSPECIALTAG tag) ref →
      StoreInv f → ref ≠ DFREF_WILDCARD → AttachDesc f G (MKSPECIALTAG tag) ref :=
    fun G ha hh hI hr => .inr ⟨ha.trans hatt₅, (lookup_regular hI hr htag hreg).1,
      by rw [hh, h5.2.2.1, headerFile_hash]; simp⟩
  refine wp_hcCreateStwrite (fun F6 _ hs6 => ?_) fun _ => ?_
  swap
  · simp only [HState.setAcc_acc, if_true, HState.setAcc_setAcc]
    exact .release hfree rfl (.inr hatt₅) fun hI hr => ⟨fr₅.widen _, hfail F5 rfl rfl hI hr⟩
  simp only [HState.setAcc_acc, if_true, HState.setAcc_files, HState.setFile_files, hinfo, hc₁] at hs6
  have fr₆ := fr₅.stwrite hs6
  obtain ⟨ha6, hh6⟩ := modelStwrite_keeps hs6
  rw [HState.setAcc_setFile, HState.setFile_setFile]
  -- every successful run ends here
  have opens : ∀ (G : FileRec) (a' : AccRec), a'.used = true → a'.fileId = fid →
      G.attach = F5.attach → CreateOpens s ((s.setFile fid G).setAcc slot a') fid slot :=
    fun G a' hu hi ha => ⟨hlt, hfree, fun i hi => by simp [hi], fun i hi => by simp [hi],
      by simp [hu], by simp [hi], by simp [ha, hatt₅]⟩
  rcases hld : hiLookupDD f tag ref with _ | l
  · exact ⟨slot, rfl, opens F6 _ rfl rfl ha6⟩
  have hMK : MKSPECIALTAG tag ≠ DFTAG_COMPRESSED := MKSPECIALTAG_ne_compressed tag
  simp only [wp_bind]
  refine wp_hcCreateMigrate (by simp) (fun f₁ a₁ _ a₂ _ f₂ _ _ hw hs _ hd _ => ?_)
    (fun e G a' hG _ => ?_) fun G f₂ a' hG _ hdel => ?_
  · simp only [HState.setAcc_acc, if_true, HState.setAcc_files, HState.setFile_files] at hw hd
    have hf₁ := hcpWrite_sameDir F6 ⟨true, fid, lD, 0, DFACC_RDWR, SPECIAL_COMP, false, false, info⟩
      (F6.dds l).length o.write
    rw [hw] at hf₁
    obtain ⟨-, -, rfl, -⟩ := hcpWrite_ok hw
    obtain ⟨-, -, rfl⟩ := hcpSeek_ok hs
    obtain ⟨l', -, rfl⟩ := hDeldd_eq_some hd
    simp only [wp_pure, HState.setAcc_setFile, HState.setFile_setFile, HState.setAcc_setAcc]
    exact ⟨slot, rfl, opens _ _ rfl rfl (by simpa [hiDelHashDD] using hf₁.attach.trans ha6)⟩
  · simp only [HState.setAcc_acc, if_true, HState.setAcc_files, HState.setFile_files,
      HState.setAcc_setFile, HState.setFile_setFile, HState.setAcc_setAcc] at hG ⊢
    exact .release hfree rfl (.inr (hG.attach.trans (ha6.trans hatt₅))) fun hI hr =>
      ⟨(fr₆.of_dir hG.ndds hG.dds hG.hash).widen _,
        hfail G (hG.attach.trans ha6) (by rw [hG.hash, hh6 _ _ hMK]) hI hr⟩
  · simp only [HState.setAcc_acc, if_true, HState.setAcc_files, HState.setFile_files,
      HState.setAcc_setFile, HState.setFile_setFile, HState.setAcc_setAcc] at hG hdel ⊢
    obtain ⟨l', hl', rfl⟩ := hDeldd_eq_some hdel
    have hatt₂ : (hiDelHashDD (G.setDD l' { G.dds l' with tag := DFTAG_NULL })
        (G.dds l).tag (G.dds l).ref).attach = F5.attach := by
      simpa [hiDelHashDD] using hG.attach.trans ha6
    refine .release hfree rfl (.inr (hatt₂.trans hatt₅)) fun hI hr => ?_
    -- on a file satisfying `I` the lookup found the old element by its hash entry
    have hhash : f.hash tag ref = some l := (lookup_regular hI hr htag hreg).2 ▸ hld
    obtain ⟨hlive, hlt', hlr⟩ := hI.mirror.dds_of_hash hhash
    have hl : G.dds l = f.dds l := by rw [hG.dds]; exact (fr₆.kept l hlive (by simp)).2
    rw [hl, hlt', hlr] at hl' ⊢
    -- `Hdeldd` freed that slot; when the pair is the backing pair, the backing element's
    have hfreed : l' = l ∨ ¬f.Live l' := by
      simp only [hiLookupDD, if_neg hr, hG.hash] at hl'
      by_cases hcol : tag = DFTAG_COMPRESSED ∧ ref = c
      · obtain ⟨lb, hb, hnl⟩ := modelStwrite_backing hs6
        rw [hcol.1, hcol.2, hb] at hl'
        exact .inr (Option.some_inj.1 hl' ▸ fun h => hnl (fr₅.kept _ h (by simp)).1)
      · rw [fr₆.hash tag ref (fun h => MKSPECIALTAG_ne_self htag h.1.symm) hcol (.inl rfl), hhash] at hl'
        exact .inl (Option.some_inj.1 hl').symm
    rw [delSlot, if_pos rfl, hhash]
    refine ⟨(fr₆.of_dir hG.ndds hG.dds hG.hash).delete_of hfreed,
      hfail _ (by simpa [hiDelHashDD] using hG.attach.trans ha6) ?_ hI hr⟩
    rw [hiDelHashDD_hash, if_neg fun h => MKSPECIALTAG_ne_self htag h.1, FileRec.setDD_hash,
      hG.hash, hh6 _ _ hMK]

end Hdf4
