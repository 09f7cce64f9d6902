import Hdf4.Comp.CreateFail

/-!
# Attachments of a file and the access records open on it

`file_rec->attach` counts the access records attached to a file, and `Hclose` refuses to close
a file while it is not zero. `HCcreate` and `HCIstaccess` raise it, `HCPendaccess` lowers it.
This file follows that count against the records actually open on the file.

* `HCIstaccess`, `HCPstread`, `HCPstwrite`, `HCPendaccess` as the source has them, and
  `Hstartread`/`Hstartwrite` as the spec describes them (the H layer is not under `src/`);
* `openCount s fid` counts the records in use on file `fid`, and `drift s fid` is `attach`
  less that count;
* one lemma per call says how it moves the drift (`AccStep.drift`, `CreateOpens.drift`,
  `CreateReleases.drift`, `wp_hcpStaccess`, `wp_hcpEndaccess`): a success keeps it, a failure
  after the increment leaves it one up, because the failure paths only clear `used`;
* `runCalls_drift`: over every run of calls the drift never goes down and goes up at most
  once per failed call;
* `hcCreate_fail_leaks`: a failed `HCcreate` that entered its descriptor leaves `attach` one
  above the records open on the file.
-/

namespace Hdf4

/-! ## `HCIstaccess`, `HCPstread`, `HCPstwrite` -/

/-- What the calls `HCIstaccess` makes return: the block the allocator hands back for the
`compinfo_t` (`none` for `NULL`), the outcomes of `HCIread_header`'s file calls, and what the
uninitialized `comp_info` local holds. -/
structure StaccessOutcome where
  mallocInfo : Option CompInfo
  read : ReadHeaderOutcome
  cInfo : CompParams

/-- An error of a call becomes error `e`. -/
def orThrow (r : Except Dfe Unit) (e : Dfe) : HM Unit :=
  match r with
  | .ok () => pure ()
  | .error _ => throw e

@[simp] theorem wp_orThrow {Q : Unit → HState → Prop} {E : Dfe → HState → Prop} (r : Except Dfe Unit)
    (e : Dfe) (s : HState) :
    wp (orThrow r e) Q E s = match r with
      | .ok () => Q () s
      | .error _ => E e s := by
  cases r <;> rfl

/-- `HCIstaccess`: check the file and the access mode, set up the access record, read the
descriptor of the record's DD into a new `compinfo_t`, rebuild its model and coder records,
and attach to the file. -/
def hciStaccess (DFKNTsize : Int → Int) (o : StaccessOutcome) (slot : Nat) (acc_mode : Nat) :
    HM Int := do
  let a ← getAcc slot
  let file_rec ← getFile a.fileId
  if BADFREC file_rec || file_rec.access &&& acc_mode == 0 then throw .args
  modifyAcc slot fun a => { a with special := SPECIAL_COMP, posn := 0, access := acc_mode ||| DFACC_READ }
  let some info := o.mallocInfo | throw .noSpace
  let (f, info, c_info, r) := hciReadHeader file_rec info (file_rec.dds a.loc) o.cInfo o.read
  modifyFile a.fileId fun _ => f
  modifyAcc slot fun a => { a with info := info }
  orThrow r .compInfo
  let info := { info with attached := 1 }
  let (minfo, r) := hciInitModel info.minfo info.minfo.modelType
  let info := { info with minfo := minfo }
  modifyAcc slot fun a => { a with info := info }
  orThrow r .mInit
  let (cinfo, r) := hciInitCoder DFKNTsize info.cinfo info.cinfo.coderType c_info
  modifyAcc slot fun a => { a with info := { info with cinfo := cinfo } }
  orThrow r .cInit
  modifyFile a.fileId fun f => { f with attach := f.attach + 1 }
  return ASLOT2ID slot

/-- `HCPstread` and `HCPstwrite` with access mode `acc_mode`: `HCIstaccess`, then the model's
start call, whose outcome is `model`; either failure gives the slot back. -/
def hcpStaccess (acc_mode : Nat) (DFKNTsize : Int → Int) (o : StaccessOutcome) (model : Bool)
    (slot : Nat) : HM Int := do
  let aid ← tryCatch (hciStaccess DFKNTsize o slot acc_mode) fun _ => do
    release slot
    throw .denied
  if !model then
    release slot
    throw .model
  return aid

/-- `HCPstread`: `HCIstaccess` for reading, then the model's `stread`. -/
def hcpStread (DFKNTsize : Int → Int) (o : StaccessOutcome) (stread : Bool) (slot : Nat) : HM Int :=
  hcpStaccess DFACC_READ DFKNTsize o stread slot

/-- `HCPstwrite`: `HCIstaccess` for writing, then the model's `stwrite`. -/
def hcpStwrite (DFKNTsize : Int → Int) (o : StaccessOutcome) (stwrite : Bool) (slot : Nat) : HM Int :=
  hcpStaccess DFACC_WRITE DFKNTsize o stwrite slot

/-- `HCPcloseAID`: the model's `endaccess`, whose outcome is `endaccess`, then one attachment
of the `compinfo_t` less. -/
def hcpCloseAID (endaccess : Bool) (slot : Nat) : HM Int := do
  if !endaccess then throw .model
  modifyAcc slot fun a => { a with info := { a.info with attached := a.info.attached - 1 } }
  return SUCCEED

/-- `HCPendaccess`: close the element, whatever `HCPcloseAID` returns, detach from the file and
free the access record. -/
def hcpEndaccess (endaccess : Bool) (slot : Nat) : HM Int := do
  let a ← getAcc slot
  if BADFREC (← getFile a.fileId) then throw .internal
  tryCatch (discard (hcpCloseAID endaccess slot)) fun _ => pure ()
  modifyFile a.fileId fun f => { f with attach := f.attach - 1 }
  release slot
  return SUCCEED

/-- Modelled from the spec: `Hstartread` and `Hstartwrite` (absent) take an access slot
(§4.C), point it at the element's DD in file `fid`, and hand it to the element's `startread`
or `startwrite`, here `HCPstread` or `HCPstwrite`. -/
def hStartAccess (DFKNTsize : Int → Int) (write : Bool) (fid : Int) (l : Loc)
    (o : StaccessOutcome) (model : Bool) : HM Int := do
  let some slot ← hiGetAccessSlot | throw .tooMany
  modifyAcc slot fun a => { a with fileId := fid, loc := l }
  if write then hcpStwrite DFKNTsize o model slot else hcpStread DFKNTsize o model slot

/-! ## What a start does to the access records and the files -/

/-- From `s` to `s'` only access record `slot` changed, keeping its `used` flag and its file,
and only the record of that file, by `k` more attachments. -/
structure AccStep (s s' : HState) (slot : Nat) (k : Int) : Prop where
  acc_other : ∀ i, i ≠ slot → s'.acc i = s.acc i
  used : (s'.acc slot).used = (s.acc slot).used
  fileId : (s'.acc slot).fileId = (s.acc slot).fileId
  files_other : ∀ i, i ≠ (s.acc slot).fileId → s'.files i = s.files i
  attach : (s'.files (s.acc slot).fileId).attach = (s.files (s.acc slot).fileId).attach + k

namespace AccStep

variable {s : HState} {slot : Nat}

theorem of_set {F : FileRec} {a : AccRec} {k : Int} (hu : a.used = (s.acc slot).used)
    (hf : a.fileId = (s.acc slot).fileId)
    (ha : F.attach = (s.files (s.acc slot).fileId).attach + k) :
    AccStep s ((s.setFile (s.acc slot).fileId F).setAcc slot a) slot k :=
  ⟨fun i hi => by simp [hi], by simp [hu], by simp [hf], fun i hi => by simp [hi], by simp [ha]⟩

theorem refl (s : HState) (slot : Nat) : AccStep s s slot 0 :=
  ⟨fun _ _ => rfl, rfl, rfl, fun _ _ => rfl, by simp⟩

theorem of_setAcc {a : AccRec} (hu : a.used = (s.acc slot).used)
    (hf : a.fileId = (s.acc slot).fileId) : AccStep s (s.setAcc slot a) slot 0 := by
  simpa [HState.setFile_self] using @of_set s slot (s.files (s.acc slot).fileId) a 0 hu hf (by simp)

end AccStep

variable {DFKNTsize : Int → Int} {E : Dfe → HState → Prop} {s : HState}

/-- `HCIstaccess` changes only its access record, not in its `used` flag or file, and the
record of that file, by one attachment when it succeeds and none when it fails. -/
theorem wp_hciStaccess (o : StaccessOutcome) (slot acc_mode : Nat) :
    wp (hciStaccess DFKNTsize o slot acc_mode) (fun _ s' => AccStep s s' slot 1)
      (fun _ s' => AccStep s s' slot 0) s := by
  simp only [hciStaccess, wp_bind, wp_getAcc, wp_getFile, wp_ite, wp_throw, wp_modifyAcc,
    wp_modifyFile, wp_pure]
  split_ifs
  · exact .refl s slot
  set fid := (s.acc slot).fileId
  have hdir := hciReadHeader_sameDir (s.files fid)
  cases o.mallocInfo with
  | none => exact .of_setAcc rfl rfl
  | some info =>
    dsimp only
    rcases hrh : hciReadHeader (s.files fid) info ((s.files fid).dds (s.acc slot).loc) o.cInfo o.read
      with ⟨F, info', c', r⟩
    have hF : F.attach = (s.files fid).attach := by
      have := (hdir info ((s.files fid).dds (s.acc slot).loc) o.cInfo o.read).attach
      rwa [hrh] at this
    simp only [wp_bind, wp_modifyFile, wp_modifyAcc, wp_orThrow, wp_pure, HState.setAcc_files,
      HState.setAcc_acc, HState.setFile_acc, HState.setFile_files, if_true, HState.setAcc_setFile,
      HState.setFile_setFile, HState.setAcc_setAcc]
    rcases r with _ | ⟨⟩
    · exact .of_set rfl rfl (by simp [hF])
    rcases hciInitModel info'.minfo info'.minfo.modelType with ⟨m, _ | ⟨⟩⟩
    · exact .of_set rfl rfl (by simp [hF])
    rcases hciInitCoder DFKNTsize info'.cinfo info'.cinfo.coderType c' with ⟨ci, _ | ⟨⟩⟩
    · exact .of_set rfl rfl (by simp [hF])
    exact .of_set rfl rfl (by simp [hF])

/-! ## Open access records and the attach count -/

/-- Access record `a` is open on file `fid`: in use, and naming `fid`. -/
def AccRec.OpenOn (a : AccRec) (fid : Int) : Bool := a.used && a.fileId == fid

/-- The number of access records open on file `fid`. -/
def openCount (s : HState) (fid : Int) : Nat :=
  (List.range MAX_ACC).countP fun i => (s.acc i).OpenOn fid

/-- How far `attach` of file `fid` is above the number of access records open on it. -/
def drift (s : HState) (fid : Int) : Int := (s.files fid).attach - openCount s fid

/-- Changing one element of the range changes a count by the change of that element. -/
theorem countP_range_update {n slot : Nat} (hs : slot < n) {p q : Nat → Bool}
    (h : ∀ i, i ≠ slot → p i = q i) :
    ((List.range n).countP q : Int) + (if p slot then 1 else 0) =
      (List.range n).countP p + (if q slot then 1 else 0) := by
  induction n with
  | zero => omega
  | succ n ih =>
    simp only [List.range_succ, List.countP_append, List.countP_cons, List.countP_nil]
    rcases Nat.lt_succ_iff_lt_or_eq.1 hs with hs | rfl
    · have := ih hs
      rw [h n (by omega)]
      push_cast; omega
    · have hc : (List.range slot).countP q = (List.range slot).countP p :=
        List.countP_congr fun i hi => by rw [h i (by simp at hi; omega)]
      rw [hc]; split_ifs <;> push_cast <;> omega

/-- No record is open on a file while none is in use. -/
theorem openCount_eq_zero {s : HState} (h : ∀ i, (s.acc i).used = false) (fid : Int) :
    openCount s fid = 0 := by
  simp [openCount, AccRec.OpenOn, h]

theorem openCount_congr {s s' : HState} {fid : Int}
    (h : ∀ i, (s'.acc i).OpenOn fid = (s.acc i).OpenOn fid) : openCount s' fid = openCount s fid :=
  List.countP_congr fun i _ => by rw [h i]

/-- Changing record `slot` moves the count of each file by what it does to the record's
openness. -/
theorem openCount_update {s s' : HState} {slot : Nat} (hs : slot < MAX_ACC)
    (h : ∀ i, i ≠ slot → s'.acc i = s.acc i) (fid : Int) :
    (openCount s' fid : Int) + (if (s.acc slot).OpenOn fid then 1 else 0) =
      openCount s fid + (if (s'.acc slot).OpenOn fid then 1 else 0) :=
  @countP_range_update MAX_ACC slot hs (fun i => (s.acc i).OpenOn fid) (fun i => (s'.acc i).OpenOn fid)
    fun i hi => by simp only [h i hi]

/-- Record `slot` becoming `a` moves the drift of each file by what it does to the record's
openness. -/
theorem drift_setAcc (s : HState) {slot : Nat} (hs : slot < MAX_ACC) (a : AccRec) (fid : Int) :
    drift (s.setAcc slot a) fid + (if a.OpenOn fid then 1 else 0) =
      drift s fid + (if (s.acc slot).OpenOn fid then 1 else 0) := by
  have := openCount_update hs (fun i hi => by simp [hi] : ∀ i, i ≠ slot → (s.setAcc slot a).acc i = s.acc i) fid
  rw [show (s.setAcc slot a).acc slot = a by simp] at this
  simp only [drift, HState.setAcc_files]
  omega

/-- Opening a free record on file `fid` lowers the drift of `fid` by one. -/
theorem drift_open (s : HState) {slot : Nat} (hs : slot < MAX_ACC) (hfree : (s.acc slot).used = false)
    {a : AccRec} (hu : a.used = true) (fid : Int) :
    drift (s.setAcc slot a) fid = drift s fid - if fid = a.fileId then 1 else 0 := by
  have := drift_setAcc s hs a fid
  simp only [AccRec.OpenOn, hfree, hu, Bool.false_and, Bool.true_and, beq_iff_eq] at this
  split_ifs at this ⊢ <;> simp_all; omega

/-- Giving record `slot` back raises the drift of its file by one. -/
theorem drift_close (s : HState) {slot : Nat} (hs : slot < MAX_ACC) {a : AccRec} (hu : a.used = false)
    (fid : Int) :
    drift (s.setAcc slot a) fid = drift s fid + if (s.acc slot).OpenOn fid then 1 else 0 := by
  have := drift_setAcc s hs a fid
  simp only [AccRec.OpenOn, hu, Bool.false_and, Bool.false_eq_true, if_false, add_zero] at this
  exact this

theorem drift_setFile (s : HState) (fid : Int) (F : FileRec) (fid' : Int) :
    drift (s.setFile fid F) fid' = drift s fid' + if fid' = fid then F.attach - (s.files fid).attach else 0 := by
  by_cases h : fid' = fid
  · subst h; simp [drift, openCount]
  · simp [drift, openCount, h]

/-! ## What each call does to the drift -/

theorem AccStep.drift {s s' : HState} {slot : Nat} {k : Int} (h : AccStep s s' slot k) (fid : Int) :
    drift s' fid = drift s fid + if fid = (s.acc slot).fileId then k else 0 := by
  have hc : openCount s' fid = openCount s fid := openCount_congr fun i => by
    by_cases hi : i = slot
    · subst hi; simp [AccRec.OpenOn, h.used, h.fileId]
    · rw [h.acc_other i hi]
  by_cases hf : fid = (s.acc slot).fileId
  · subst hf; simp only [Hdf4.drift, hc, h.attach, if_true]; ring
  · simp [Hdf4.drift, hc, h.files_other fid hf, hf]

/-- A successful `HCcreate` keeps the drift of every file: it opens one record on the file and
attaches it once. -/
theorem CreateOpens.drift {s s' : HState} {fid : Int} {slot : Nat} (h : CreateOpens s s' fid slot)
    (fid' : Int) : drift s' fid' = drift s fid' := by
  have hc := openCount_update h.slot_lt h.acc_other fid'
  have h0 : (s.acc slot).OpenOn fid' = false := by simp [AccRec.OpenOn, h.slot_free]
  have h1 : (s'.acc slot).OpenOn fid' = (fid == fid') := by simp [AccRec.OpenOn, h.used, h.fileId]
  rw [h0, h1] at hc
  by_cases hf : fid' = fid
  · subst hf; simp at hc; simp only [Hdf4.drift, h.attach]; omega
  · rw [show (fid == fid') = false by simpa using Ne.symm hf] at hc
    simp only [Hdf4.drift, h.files_other fid' hf]; simp at hc; omega

/-- A failed `HCcreate` keeps the records open on every file. -/
theorem CreateReleases.openCount {s s' : HState} {fid : Int} (h : CreateReleases s s' fid)
    (fid' : Int) : openCount s' fid' = openCount s fid' :=
  openCount_congr fun i => by
    cases hu : (s.acc i).used
    · simp [AccRec.OpenOn, h.used i, hu]
    · rw [h.open_kept i hu]

/-- A failed `HCcreate` keeps the drift of every file but its own, which it may raise by one. -/
theorem CreateReleases.drift {s s' : HState} {fid : Int} (h : CreateReleases s s' fid)
    (fid' : Int) : drift s' fid' = drift s fid' ∨ (fid' = fid ∧ drift s' fid' = drift s fid' + 1) := by
  have hc := h.openCount fid'
  by_cases hf : fid' = fid
  · subst hf
    rcases h.attach with ha | ha
    · left; simp [Hdf4.drift, hc, ha]
    · right; refine ⟨rfl, ?_⟩; simp only [Hdf4.drift, hc, ha]; ring
  · left; simp [Hdf4.drift, hc, h.files_other fid' hf]

/-- From a state in which `attach` counts the records open on file `fid`, a failed `HCcreate`
that entered its descriptor in the hash index leaves `attach` one above that count: the
increment is never undone, while every failure path gives the record back. -/
theorem hcCreate_fail_leaks {fid : Int} {tag ref : UInt16} {o : CreateOutcome}
    {model_type coder_type : Nat} {c_info : CompParams} {e : Dfe} {s' : HState}
    (hI : StoreInv (s.files fid)) (hr : ref ≠ DFREF_WILDCARD)
    (hc : (s.files fid).attach = openCount s fid)
    (hrun : (hcCreate DFKNTsize o fid tag ref model_type coder_type c_info).run.run s = (.error e, s'))
    (hdesc : (s'.files fid).hash (MKSPECIALTAG tag) ref ≠ (s.files fid).hash (MKSPECIALTAG tag) ref) :
    (s'.files fid).attach = openCount s' fid + 1 := by
  have h := wp_of_error (wp_hcCreate DFKNTsize o model_type coder_type c_info) hrun
  rw [h.1.openCount, ← hc]
  rcases (h.2 hI hr).desc with ⟨-, hh⟩ | ⟨ha, -⟩
  · exact absurd hh hdesc
  · exact ha

/-- `HCcreate` of `(1, 1)` on `emptyFile`, the model's `stwrite` failing: the record is given
back, so none is open on the file, whose `attach` is one. -/
theorem hcCreate_fail_leaks_stwrite :
    ∃ s', (hcCreate (fun _ => 0) { CreateOutcome.success with stwrite := false } 0 1 1
        COMP_MODEL_STDIO COMP_CODE_NONE default).run.run (fileState emptyFile) = (.error .model, s') ∧
      (s'.files 0).attach = 1 ∧ (s'.files 0).attach = openCount s' 0 + 1 :=
  ⟨_, rfl, rfl, @hcCreate_fail_leaks (fun _ => 0) (fileState emptyFile) 0 1 1
    { CreateOutcome.success with stwrite := false } COMP_MODEL_STDIO COMP_CODE_NONE default _ _
    .emptyFile (by decide) (by rw [openCount_eq_zero fun _ => rfl]; rfl) rfl (by decide)⟩

/-- `HCPstread` and `HCPstwrite` change only their access record, not in its file, and the
record of that file: one attachment more when they succeed; when they fail they give the record
back, after `HCIstaccess` attached none or, when only the model's start call failed, one. -/
theorem wp_hcpStaccess (acc_mode : Nat) (o : StaccessOutcome) (model : Bool) (slot : Nat) :
    wp (hcpStaccess acc_mode DFKNTsize o model slot) (fun _ s' => AccStep s s' slot 1)
      (fun e s' => ∃ s₁ k, AccStep s s₁ slot k ∧ (k = 0 ∨ k = 1 ∧ e = .model) ∧
        s' = s₁.setAcc slot { s₁.acc slot with used := false }) s := by
  simp only [hcpStaccess, wp_bind, wp_tryCatch, wp_release, wp_throw, wp_ite, wp_pure]
  refine wp_mono (wp_hciStaccess o slot acc_mode) (fun _ s₁ h => ?_)
    fun _ s₁ h => ⟨s₁, 0, h, .inl rfl, rfl⟩
  cases model
  · exact ⟨s₁, 1, h, by simp, rfl⟩
  · exact h

/-- `Hstartread` and `Hstartwrite` keep the drift of every file when they succeed; when they
fail they keep it too, except that a failed model start call leaves the file's drift one up. -/
theorem wp_hStartAccess (write : Bool) (fid : Int) (l : Loc) (o : StaccessOutcome) (model : Bool) :
    wp (hStartAccess DFKNTsize write fid l o model) (fun _ s' => ∀ fid', drift s' fid' = drift s fid')
      (fun e s' => ∀ fid', drift s' fid' = drift s fid' ∨
        (e = .model ∧ fid' = fid ∧ drift s' fid' = drift s fid' + 1)) s := by
  simp only [hStartAccess, wp_bind]
  refine wp_hiGetAccessSlot (fun slot hlt hfree => ?_) fun _ _ => .inl rfl
  simp only [wp_modifyAcc, wp_bind, HState.setAcc_acc, if_true, HState.setAcc_setAcc]
  set a : AccRec := ⟨true, fid, l, (s.acc slot).posn, (s.acc slot).access, (s.acc slot).special,
    (s.acc slot).appendable, (s.acc slot).flush, (s.acc slot).info⟩
  have h₂ := drift_open s hlt hfree (a := a) rfl
  have key : ∀ mode, wp (hcpStaccess mode DFKNTsize o model slot)
      (fun _ s' => ∀ fid', drift s' fid' = drift s fid')
      (fun e s' => ∀ fid', drift s' fid' = drift s fid' ∨
        (e = .model ∧ fid' = fid ∧ drift s' fid' = drift s fid' + 1)) (s.setAcc slot a) := by
    intro mode
    refine wp_mono (wp_hcpStaccess mode o model slot) (fun _ s' h fid' => ?_)
      fun e s' ⟨s₁, k, h, hk, hs'⟩ fid' => ?_
    · rw [h.drift, h₂]; simp [a]
    · have hu : (s₁.acc slot).used = true := by rw [h.used]; simp [a]
      have hf : (s₁.acc slot).fileId = fid := by rw [h.fileId]; simp [a]
      rw [hs', drift_close _ hlt rfl, h.drift, h₂]
      simp only [AccRec.OpenOn, hu, hf, Bool.true_and, beq_iff_eq, a, HState.setAcc_acc, if_true]
      by_cases hfid : fid' = fid
      · subst hfid; rcases hk with rfl | ⟨rfl, rfl⟩
        · left; simp
        · right; simp
      · left; simp [hfid, Ne.symm hfid]
  cases write
  · exact key _
  · exact key _

/-- `HCPendaccess` on an open record keeps the drift of every file: it detaches from the file and
frees the record, whatever `HCPcloseAID` returns. On a bad file record it changes nothing. -/
theorem wp_hcpEndaccess (endaccess : Bool) {slot : Nat} (hs : slot < MAX_ACC)
    (hu : (s.acc slot).used = true) :
    wp (hcpEndaccess endaccess slot) (fun _ s' => ∀ fid, drift s' fid = drift s fid)
      (fun _ s' => s' = s) s := by
  simp only [hcpEndaccess, hcpCloseAID, wp_bind, wp_getAcc, wp_getFile, wp_ite, wp_throw,
    wp_tryCatch, wp_discard, wp_modifyAcc, wp_modifyFile, wp_release, wp_pure]
  -- the record closes on its file, which loses one attachment
  have key : ∀ a : AccRec, a.used = false → ∀ fid,
      drift ((s.setFile (s.acc slot).fileId { s.files (s.acc slot).fileId with
        attach := (s.files (s.acc slot).fileId).attach - 1 }).setAcc slot a) fid = drift s fid := by
    intro a ha fid
    rw [drift_close _ hs ha, drift_setFile]
    simp only [AccRec.OpenOn, HState.setFile_acc, hu, Bool.true_and, beq_iff_eq]
    split_ifs <;> simp_all
  split_ifs with hb hm
  · exact key _ rfl
  · simp only [HState.setAcc_setFile, HState.setAcc_setAcc]
    exact key _ rfl

/-! ## Runs of calls -/

/-- A call of an element's life cycle, with the outcomes of the calls it makes: `HCcreate`,
`Hstartread` or `Hstartwrite` of a compressed element, `Hseek`, `Hread` or `Hwrite` on an
access record (which the H layer hands to `HCPseek`, `HCPread` or `HCPwrite`), and
`HCPendaccess`. -/
inductive Call where
  | create (fid : Int) (tag ref : UInt16) (o : CreateOutcome) (model_type coder_type : Nat)
      (c_info : CompParams)
  | start (write : Bool) (fid : Int) (l : Loc) (o : StaccessOutcome) (model : Bool)
  | io (slot : Nat) (c : HcpCall)
  | endaccess (slot : Nat) (model : Bool)

/-- What a call runs. -/
def Call.run (DFKNTsize : Int → Int) : Call → HM Int
  | .create fid tag ref o model_type coder_type c_info =>
    hcCreate DFKNTsize o fid tag ref model_type coder_type c_info
  | .start write fid l o model => hStartAccess DFKNTsize write fid l o model
  | .io slot c => hcpAt slot fun f a => hcpCall f a c
  | .endaccess slot model => hcpEndaccess model slot

/-- `HCPendaccess` is called on an open access record. -/
def Call.Pre (s : HState) : Call → Prop
  | .endaccess slot _ => slot < MAX_ACC ∧ (s.acc slot).used = true
  | _ => True

/-- One call keeps the drift of every file when it succeeds, and raises it by at most one when
it fails. -/
theorem Call.wp_drift (DFKNTsize : Int → Int) (c : Call) (hc : c.Pre s) :
    wp (c.run DFKNTsize) (fun _ s' => ∀ fid, drift s' fid = drift s fid)
      (fun _ s' => ∀ fid, drift s' fid = drift s fid ∨ drift s' fid = drift s fid + 1) s := by
  cases c with
  | create fid tag ref o model_type coder_type c_info =>
    exact wp_mono (wp_hcCreate DFKNTsize o model_type coder_type c_info)
      (fun _ _ ⟨_, _, h⟩ => h.drift) fun _ _ h fid' => (h.1.drift fid').imp_right And.right
  | start write fid l o model =>
    exact wp_mono (wp_hStartAccess write fid l o model) (fun _ _ h => h)
      fun _ _ h fid' => (h fid').imp_right fun h => h.2.2
  | io slot c =>
    -- a call on a record moves neither its `used` flag nor its file's `attach`
    obtain ⟨p, n, ha⟩ := hcpCall_acc (f := s.files (s.acc slot).fileId) (a := s.acc slot) c
    have hst : AccStep s ((s.setFile (s.acc slot).fileId
        (hcpCall (s.files (s.acc slot).fileId) (s.acc slot) c).1).setAcc slot
        (hcpCall (s.files (s.acc slot).fileId) (s.acc slot) c).2.1) slot 0 :=
      .of_set (by rw [ha]) (by rw [ha]) (by rw [(hcpCall_sameDir c).attach, add_zero])
    simp only [Call.run]
    exact wp_hcpAt_of (fun s' => ∀ fid, drift s' fid = drift s fid) (fun fid => by simp [hst.drift fid])
      (fun _ _ h => h) fun _ _ h fid => .inl (h fid)
  | endaccess slot model =>
    exact wp_mono (wp_hcpEndaccess model hc.1 hc.2) (fun _ _ h => h) fun _ _ h _ => .inl (by rw [h])

/-- A run of calls, each from the state the one before left: the final state and the number of
calls that failed. -/
def runCalls (DFKNTsize : Int → Int) : List Call → HState → HState × Nat
  | [], s => (s, 0)
  | c :: cs, s =>
    match (c.run DFKNTsize).run.run s with
    | (.ok _, s₁) => runCalls DFKNTsize cs s₁
    | (.error _, s₁) => ((runCalls DFKNTsize cs s₁).1, (runCalls DFKNTsize cs s₁).2 + 1)

theorem runCalls_fst_cons (DFKNTsize : Int → Int) (c : Call) (cs : List Call) (s : HState) :
    (runCalls DFKNTsize (c :: cs) s).1 = (runCalls DFKNTsize cs ((c.run DFKNTsize).run.run s).2).1 := by
  simp only [runCalls]
  rcases (c.run DFKNTsize).run.run s with ⟨_ | _, s₁⟩ <;> rfl

/-- Every `HCPendaccess` of a run is called on an open access record. -/
def CallsPre (DFKNTsize : Int → Int) : List Call → HState → Prop
  | [], _ => True
  | c :: cs, s => c.Pre s ∧ CallsPre DFKNTsize cs ((c.run DFKNTsize).run.run s).2

/-- Over every run, the drift of every file never goes down, and goes up by at most the number
of calls that failed: `attach` never drops below the number of open records, and stays equal
to it through a run in which no call fails. -/
theorem runCalls_drift (DFKNTsize : Int → Int) (cs : List Call) (s : HState)
    (h : CallsPre DFKNTsize cs s) (fid : Int) :
    drift s fid ≤ drift (runCalls DFKNTsize cs s).1 fid ∧
      drift (runCalls DFKNTsize cs s).1 fid ≤ drift s fid + (runCalls DFKNTsize cs s).2 := by
  induction cs generalizing s with
  | nil => simp [runCalls]
  | cons c cs ih =>
    have hw := c.wp_drift DFKNTsize h.1
    unfold wp at hw
    have hpre := h.2
    simp only [runCalls]
    rcases hr : (c.run DFKNTsize).run.run s with ⟨_ | _, s₁⟩ <;> rw [hr] at hw hpre
    · have := ih s₁ hpre
      rcases hw fid with h' | h' <;> constructor <;> push_cast <;> omega
    · have := ih s₁ hpre
      rw [hw fid] at this
      exact this

/-- A run that creates `(1, 1)` on `emptyFile`, every call succeeding, and ends the access. -/
theorem runCalls_drift_create_end :
    let cs : List Call := [.create 0 1 1 .success COMP_MODEL_STDIO COMP_CODE_NONE default,
      .endaccess 0 true]
    drift (fileState emptyFile) 0 ≤ drift (runCalls (fun _ => 0) cs (fileState emptyFile)).1 0 ∧
      drift (runCalls (fun _ => 0) cs (fileState emptyFile)).1 0 ≤
        drift (fileState emptyFile) 0 + (runCalls (fun _ => 0) cs (fileState emptyFile)).2 :=
  runCalls_drift (fun _ => 0) _ _ (by simp only [CallsPre, Call.Pre]; exact ⟨trivial, ⟨by decide, rfl⟩, trivial⟩) 0

end Hdf4
