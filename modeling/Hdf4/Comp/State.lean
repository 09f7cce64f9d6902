import Hdf4.Comp.Access

/-!
# The library state and the monad of the H layer

`HCcreate` and the start-access functions change the file records and the access-record
table of the library. `HState` holds both, and `HM` is the state-and-error monad these
functions are written in: an error ends the call in the state it reached, as `HRETURN_ERROR`
does, so nothing is rolled back unless the code itself undoes it.

* `wp m Q E s` says how a run of `m` from `s` ends: normally, with `Q` of its value and final
  state, or by an error, with `E` of the error and the state it stopped in. Its `@[simp]`
  equations (`wp_bind`, `wp_ite`, `wp_tryCatch`, ...) execute a program symbolically, one
  statement at a time, and `wp_mono` lets a proof go through a program phase by phase;
* `getFile`, `modifyFile`, `getAcc`, `modifyAcc` and `release` read and write the state the
  way the C code does through `file_rec` and `access_rec`;
* `hiGetAccessSlot` and `hcpAt` are the access-slot allocation of `hfile.c` and the call of
  an `HCP*` function on an access record.
-/

namespace Hdf4

/-- `MAX_ACC`. Modelled from the spec: the size of the access-record pool (§4.C), set in
`hlimits.h` (absent). -/
def MAX_ACC : Nat := 256

/-- `AIDGROUP`. Modelled from the spec: the cookie that biases a slot index into an AID
(§4.C), set in `hfile.h` (absent). -/
def AIDGROUP : Nat := 3

/-- `ASLOT2ID`: the AID of an access slot. -/
def ASLOT2ID (slot : Nat) : Int := AIDGROUP * 65536 + slot % 65536

theorem ASLOT2ID_ne_FAIL (slot : Nat) : ASLOT2ID slot ≠ FAIL := by
  simp only [ASLOT2ID, AIDGROUP, FAIL]; omega

/-- The library's state: the file records by file id (`FID2REC`), and the access-record
table. -/
structure HState where
  files : Int → FileRec
  acc : Nat → AccRec

namespace HState

variable (s : HState)

/-- The record of file `fid` becomes `f`. -/
def setFile (fid : Int) (f : FileRec) : HState :=
  { s with files := fun i => if i = fid then f else s.files i }

/-- Access record `slot` becomes `a`. -/
def setAcc (slot : Nat) (a : AccRec) : HState :=
  { s with acc := fun i => if i = slot then a else s.acc i }

@[simp] theorem setFile_files (fid i : Int) (f : FileRec) :
    (s.setFile fid f).files i = if i = fid then f else s.files i := rfl
@[simp] theorem setFile_acc (fid : Int) (f : FileRec) : (s.setFile fid f).acc = s.acc := rfl
@[simp] theorem setAcc_acc (slot i : Nat) (a : AccRec) :
    (s.setAcc slot a).acc i = if i = slot then a else s.acc i := rfl
@[simp] theorem setAcc_files (slot : Nat) (a : AccRec) : (s.setAcc slot a).files = s.files := rfl

@[simp] theorem setFile_setFile (fid : Int) (f g : FileRec) :
    (s.setFile fid f).setFile fid g = s.setFile fid g := by
  simp only [setFile, HState.mk.injEq, and_true]
  funext i; split <;> simp_all

@[simp] theorem setAcc_setAcc (slot : Nat) (a b : AccRec) :
    (s.setAcc slot a).setAcc slot b = s.setAcc slot b := by
  simp only [setAcc, HState.mk.injEq, true_and]
  funext i; split <;> simp_all

@[simp] theorem setAcc_setFile (slot : Nat) (a : AccRec) (fid : Int) (f : FileRec) :
    (s.setAcc slot a).setFile fid f = (s.setFile fid f).setAcc slot a := rfl

theorem setFile_self (fid : Int) : s.setFile fid (s.files fid) = s := by
  cases s; simp only [setFile, HState.mk.injEq, and_true]; funext i; split <;> simp_all

end HState

/-- The monad of the H layer: state `HState`, errors `Dfe`. -/
abbrev HM := ExceptT Dfe (StateM HState)

/-! ## Weakest preconditions -/

/-- How a run of `m` from `s` ends: normally, with `Q` of its value and final state, or by an
error, with `E` of the error and the state it stopped in. -/
def wp {α : Type} (m : HM α) (Q : α → HState → Prop) (E : Dfe → HState → Prop) (s : HState) :
    Prop :=
  match m.run.run s with
  | (.ok a, s') => Q a s'
  | (.error e, s') => E e s'

section Wp

variable {α β : Type} {Q : β → HState → Prop} {E : Dfe → HState → Prop}

@[simp] theorem wp_pure (a : β) (s : HState) : wp (pure a : HM β) Q E s = Q a s := rfl

@[simp] theorem wp_throw (e : Dfe) (s : HState) : wp (throw e : HM β) Q E s = E e s := rfl

@[simp] theorem wp_bind (m : HM α) (f : α → HM β) (s : HState) :
    wp (m >>= f) Q E s = wp m (fun a s' => wp (f a) Q E s') E s := by
  simp only [wp, ExceptT.run_bind, StateT.run_bind]
  rcases m.run.run s with ⟨_ | a, s'⟩ <;> rfl

@[simp] theorem wp_map (f : α → β) (m : HM α) (s : HState) :
    wp (f <$> m) Q E s = wp m (fun a s' => Q (f a) s') E s := by
  rw [← bind_pure_comp, wp_bind]; rfl

@[simp] theorem wp_get {Q : HState → HState → Prop} (s : HState) :
    wp (get : HM HState) Q E s = Q s s := rfl

@[simp] theorem wp_set {Q : PUnit → HState → Prop} (s s' : HState) :
    wp (set s' : HM PUnit) Q E s = Q ⟨⟩ s' := rfl

@[simp] theorem wp_modify {Q : PUnit → HState → Prop} (g : HState → HState) (s : HState) :
    wp (modify g : HM PUnit) Q E s = Q ⟨⟩ (g s) := rfl

@[simp] theorem wp_ite (c : Prop) [Decidable c] (m₁ m₂ : HM β) (s : HState) :
    wp (if c then m₁ else m₂) Q E s = if c then wp m₁ Q E s else wp m₂ Q E s := by
  split <;> rfl

@[simp] theorem wp_tryCatch (m : HM β) (h : Dfe → HM β) (s : HState) :
    wp (tryCatch m h) Q E s = wp m Q (fun e s' => wp (h e) Q E s') s := by
  show (match (ExceptT.tryCatch m h).run.run s with
    | (.ok a, s') => Q a s' | (.error e, s') => E e s') = _
  simp only [wp, ExceptT.tryCatch, ExceptT.run_mk, StateT.run_bind]
  rw [show StateT.run m s = m.run.run s from rfl]
  rcases m.run.run s with ⟨_ | a, s'⟩ <;> rfl

@[simp] theorem wp_ofExcept (r : Except Dfe β) (s : HState) :
    wp (MonadExcept.ofExcept r : HM β) Q E s = match r with
      | .ok a => Q a s
      | .error e => E e s := by
  cases r <;> rfl

@[simp] theorem wp_discard (m : HM α) (s : HState) {Q : PUnit → HState → Prop} :
    wp (discard m) Q E s = wp m (fun _ s' => Q ⟨⟩ s') E s := by
  show wp ((fun _ => PUnit.unit) <$> m) Q E s = _
  rw [wp_map]

/-- A weaker postcondition follows from a stronger one. -/
theorem wp_mono {m : HM β} {Q' : β → HState → Prop} {E' : Dfe → HState → Prop} {s : HState}
    (h : wp m Q E s) (hq : ∀ a s', Q a s' → Q' a s') (he : ∀ e s', E e s' → E' e s') :
    wp m Q' E' s := by
  revert h
  unfold wp
  rcases m.run.run s with ⟨_ | a, s'⟩
  · exact he _ _
  · exact hq _ _

/-- A run that cannot end in an error ends normally. -/
theorem exists_of_wp {m : HM β} {s : HState} (h : wp m Q (fun _ _ => False) s) :
    ∃ a s', m.run.run s = (.ok a, s') ∧ Q a s' := by
  revert h
  unfold wp
  rcases m.run.run s with ⟨_ | a, s'⟩
  · exact False.elim
  · exact fun h => ⟨a, s', rfl, h⟩

/-- A run that ends in an error satisfies the error condition. -/
theorem wp_of_error {m : HM β} {s s' : HState} {e : Dfe} (h : wp m Q E s)
    (hr : m.run.run s = (.error e, s')) : E e s' := by
  unfold wp at h; rw [hr] at h; exact h

/-- What holds after a call whether it fails or not holds of the state it leaves. -/
theorem wp_const {m : HM β} {P : HState → Prop} {s : HState} (h : wp m (fun _ => P) (fun _ => P) s) :
    P (m.run.run s).2 := by
  revert h
  unfold wp
  rcases m.run.run s with ⟨_ | _, _⟩ <;> exact id

end Wp

/-! ## Reading and writing the state -/

/-- `FID2REC(fid)`: the record of a file. -/
def getFile (fid : Int) : HM FileRec := return (← get).files fid

/-- An update of the record of a file through `file_rec`. -/
def modifyFile (fid : Int) (g : FileRec → FileRec) : HM Unit :=
  modify fun s => s.setFile fid (g (s.files fid))

/-- `&access_records[slot]`: an access record. -/
def getAcc (slot : Nat) : HM AccRec := return (← get).acc slot

/-- An update of an access record through `access_rec`. -/
def modifyAcc (slot : Nat) (g : AccRec → AccRec) : HM Unit :=
  modify fun s => s.setAcc slot (g (s.acc slot))

/-- `access_rec->used = FALSE`: the access record is given back. -/
def release (slot : Nat) : HM Unit := modifyAcc slot fun a => { a with used := false }

section Wp

variable {β : Type} {E : Dfe → HState → Prop}

@[simp] theorem wp_getFile {Q : FileRec → HState → Prop} (fid : Int) (s : HState) :
    wp (getFile fid) Q E s = Q (s.files fid) s := rfl

@[simp] theorem wp_modifyFile {Q : Unit → HState → Prop} (fid : Int) (g : FileRec → FileRec)
    (s : HState) : wp (modifyFile fid g) Q E s = Q () (s.setFile fid (g (s.files fid))) := rfl

@[simp] theorem wp_getAcc {Q : AccRec → HState → Prop} (slot : Nat) (s : HState) :
    wp (getAcc slot) Q E s = Q (s.acc slot) s := rfl

@[simp] theorem wp_modifyAcc {Q : Unit → HState → Prop} (slot : Nat) (g : AccRec → AccRec)
    (s : HState) : wp (modifyAcc slot g) Q E s = Q () (s.setAcc slot (g (s.acc slot))) := rfl

@[simp] theorem wp_release {Q : Unit → HState → Prop} (slot : Nat) (s : HState) :
    wp (release slot) Q E s = Q () (s.setAcc slot { s.acc slot with used := false }) := rfl

end Wp

/-! ## Access slots and calls on an access record -/

/-- Modelled from the spec: `HIget_access_slot` of `hfile.c` (absent) takes the first access
record that is not in use (§4.C) and marks it used. -/
def hiGetAccessSlot : HM (Option Nat) := do
  let s ← get
  match (List.range MAX_ACC).find? fun i => !(s.acc i).used with
  | none => return none
  | some slot =>
    modifyAcc slot fun a => { a with used := true }
    return some slot

/-- The slot `HIget_access_slot` takes is an unused slot of the table. -/
theorem find_slot_spec {s : HState} {slot : Nat}
    (h : (List.range MAX_ACC).find? (fun i => !(s.acc i).used) = some slot) :
    slot < MAX_ACC ∧ (s.acc slot).used = false := by
  have hm := List.mem_of_find?_eq_some h
  have hp := List.find?_some h
  simp only [List.mem_range, Bool.not_eq_true'] at hm hp
  exact ⟨hm, hp⟩

/-- An `HCP*` call on the access record of `slot`, with the record of the file the access
record names (`FID2REC(access_rec->file_id)`). -/
def hcpAt (slot : Nat) (call : FileRec → AccRec → FileRec × AccRec × Except Dfe Int) : HM Int := do
  let s ← get
  let a := s.acc slot
  let r := call (s.files a.fileId) a
  set ((s.setFile a.fileId r.1).setAcc slot r.2.1)
  MonadExcept.ofExcept r.2.2

/-- Whatever the call on access record `slot` returns, its run ends in the state where the file
and the record hold what the call left: what holds of that state holds at both ends. -/
theorem wp_hcpAt_of {slot : Nat} {call : FileRec → AccRec → FileRec × AccRec × Except Dfe Int}
    {s : HState} {Q : Int → HState → Prop} {E : Dfe → HState → Prop} (P : HState → Prop)
    (hp : P ((s.setFile (s.acc slot).fileId (call (s.files (s.acc slot).fileId) (s.acc slot)).1).setAcc slot
      (call (s.files (s.acc slot).fileId) (s.acc slot)).2.1))
    (hq : ∀ v s', P s' → Q v s') (he : ∀ e s', P s' → E e s') : wp (hcpAt slot call) Q E s := by
  simp only [hcpAt, wp_bind, wp_get, wp_set, wp_ofExcept]
  split
  · exact hq _ _ hp
  · exact he _ _ hp

/-- The state a call on access record `slot` leaves: the file and the record as the call left
them, whatever it returned. -/
theorem hcpAt_snd (slot : Nat) (call : FileRec → AccRec → FileRec × AccRec × Except Dfe Int)
    (s : HState) : ((hcpAt slot call).run.run s).2 =
      (s.setFile (s.acc slot).fileId (call (s.files (s.acc slot).fileId) (s.acc slot)).1).setAcc slot
        (call (s.files (s.acc slot).fileId) (s.acc slot)).2.1 :=
  wp_const (wp_hcpAt_of (· = _) rfl (fun _ _ h => h) fun _ _ h => h)

end Hdf4
