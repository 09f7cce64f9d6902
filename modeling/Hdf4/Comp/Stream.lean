import Hdf4.Comp.Access

/-!
# The element as a stream

To its access records a compressed element is a stream: `HCPseek` moves the position,
`HCPread` reads from it within the length, and `HCPwrite` writes from it and carries the
length along. The code does these sums in `int32`. This file states the stream over the
integers and shows that the code refines it while no sum leaves `int32`.

* `Cursor` and `Cursor.step`: the position and the length over the integers, and what a
  seek, a read or a write does to them; `Cursor.run` runs a list of calls;
* `HcpCall.Fits` and `Cursor.RunFits`: the sums of each call stay within `int32`;
* `hcpCall_cursor` and `hcpRun_cursor`: one call, and then every run of calls that fit, on
  an access record succeed exactly when the stream's do, and leave the record where the
  stream is;
* `hcpRead_past_end`: the stream has no upper bound on the position, and a read of `0` bytes
  after a seek past the end succeeds with a negative count.
-/

namespace Hdf4

/-- The position and the length of an element, over the integers. -/
structure Cursor where
  posn : Int
  length : Int
deriving DecidableEq, Repr

/-- The cursor of an access record. -/
def AccRec.cursor (a : AccRec) : Cursor := ⟨a.posn, a.info.length⟩

@[simp] theorem AccRec.cursor_posn (a : AccRec) : a.cursor.posn = a.posn := rfl
@[simp] theorem AccRec.cursor_length (a : AccRec) : a.cursor.length = a.info.length := rfl

namespace Cursor

/-- Where a seek goes: the offset, from the position or from the end as the origin says. -/
def target (c : Cursor) (offset origin : Int) : Int :=
  if origin = DF_CURRENT then offset + c.posn
  else if origin = DF_END then offset + c.length else offset

/-- A call on the stream and the count it returns, `none` when refused: a seek to a target
that is not negative, a read within the element (a length of `0` reads to the end), and a
write, which carries the length along with the position. The model and the rewrite of the
length field are outcomes, as in the code. -/
def step (c : Cursor) : HcpCall → Option (Cursor × Int)
  | .seek offset origin ret =>
    if c.target offset origin < 0 ∨ ret = FAIL then none
    else some ({ c with posn := c.target offset origin }, ret)
  | .read length model =>
    let n := if length = 0 then c.length - c.posn else length
    if length < 0 ∨ c.length < c.posn + n ∨ !model then none
    else some ({ c with posn := c.posn + n }, n)
  | .write length o =>
    if length < 0 ∨ !o.model then none
    else if c.length < c.posn + length then
      if !o.seek || !o.write then none else some (⟨c.posn + length, c.posn + length⟩, length)
    else some ({ c with posn := c.posn + length }, length)

/-- A run of calls that all succeed, or `none` once one is refused. -/
def run (c : Cursor) : List HcpCall → Option Cursor
  | [] => some c
  | x :: xs =>
    match c.step x with
    | some (c', _) => run c' xs
    | none => none

/-- A position and a length in `[0, 2^31)`, as `int32` holds them. -/
def InRange (c : Cursor) : Prop :=
  0 ≤ c.posn ∧ c.posn ≤ 2147483647 ∧ 0 ≤ c.length ∧ c.length ≤ 2147483647

instance (c : Cursor) : Decidable c.InRange := inferInstanceAs (Decidable (_ ∧ _))

end Cursor

/-- The sums a call makes stay within `int32`: its argument is an `int32`, and the target of
a seek and the end of a read or a write are at most `2^31 - 1`. -/
def HcpCall.Fits (c : Cursor) : HcpCall → Prop
  | .seek offset origin _ => IsInt32 offset ∧ c.target offset origin ≤ 2147483647
  | .read length _ => IsInt32 length ∧ c.posn + length ≤ 2147483647
  | .write length _ => IsInt32 length ∧ c.posn + length ≤ 2147483647

instance (c : Cursor) : (x : HcpCall) → Decidable (x.Fits c)
  | .seek _ _ _ => inferInstanceAs (Decidable (_ ∧ _))
  | .read _ _ => inferInstanceAs (Decidable (_ ∧ _))
  | .write _ _ => inferInstanceAs (Decidable (_ ∧ _))

/-- Every call of a run fits at the cursor the stream has reached. -/
def Cursor.RunFits (c : Cursor) : List HcpCall → Prop
  | [] => True
  | x :: xs => x.Fits c ∧ ∀ p ∈ c.step x, p.1.RunFits xs

instance Cursor.decRunFits : (cs : List HcpCall) → (c : Cursor) → Decidable (c.RunFits cs)
  | [], _ => isTrue trivial
  | x :: xs, c =>
    have : DecidablePred fun p : Cursor × Int => p.1.RunFits xs := fun p => Cursor.decRunFits xs p.1
    inferInstanceAs (Decidable (_ ∧ ∀ p ∈ c.step x, _))

/-- A step that fits keeps the cursor in range. -/
theorem Cursor.InRange.step {c c' : Cursor} {x : HcpCall} {r : Int} (hc : c.InRange) (hx : x.Fits c)
    (h : c.step x = some (c', r)) : c'.InRange := by
  obtain ⟨hp, hp', hl, hl'⟩ := hc
  cases x with
  | seek offset origin ret =>
    simp only [Cursor.step] at h
    split_ifs at h with h1
    cases h
    simp only [not_or, not_lt] at h1
    exact ⟨h1.1, hx.2, hl, hl'⟩
  | read length model =>
    simp only [Cursor.step] at h
    split_ifs at h with h0 h1 h1 <;> cases h <;> simp only [Cursor.InRange, not_or, not_lt] at h1 ⊢ <;>
      exact ⟨by omega, by omega, hl, hl'⟩
  | write length o =>
    simp only [Cursor.step] at h
    split_ifs at h with h1 h2 <;> cases h <;> simp only [Cursor.InRange, not_or, not_lt] at h1 ⊢
    · exact ⟨by omega, hx.2, by omega, hx.2⟩
    · exact ⟨by omega, hx.2, hl, hl'⟩

/-- The target of `HCPseek` is the stream's while the sums fit. -/
theorem seekTarget_eq_target {a : AccRec} {offset origin : Int} (hc : a.cursor.InRange)
    (ho : IsInt32 offset) (ht : a.cursor.target offset origin ≤ 2147483647) :
    seekTarget a offset origin = a.cursor.target offset origin := by
  obtain ⟨hp, hp', hl, hl'⟩ := hc
  simp only [AccRec.cursor] at hp hp' hl hl' ht ⊢
  unfold IsInt32 at ho
  unfold seekTarget Cursor.target at *
  rcases eq_or_ne origin DF_CURRENT with rfl | hc
  · simp only [if_true, show DF_CURRENT ≠ DF_END by decide, if_false] at ht ⊢
    exact wrap32_of_isInt32 ⟨by omega, ht⟩
  rcases eq_or_ne origin DF_END with rfl | he
  · simp only [hc, if_true, if_false] at ht ⊢
    exact wrap32_of_isInt32 ⟨by omega, ht⟩
  simp only [hc, he, if_false]

/-- One call on an access record refines the stream: while the sums fit, the stream accepts
the call exactly when the code succeeds, at the record's new position and length and with the
count the code returns. -/
theorem hcpCall_cursor (f : FileRec) (a : AccRec) (x : HcpCall) (hc : a.cursor.InRange)
    (hx : x.Fits a.cursor) :
    a.cursor.step x = (hcpCall f a x).2.2.toOption.map fun r => ((hcpCall f a x).2.1.cursor, r) := by
  obtain ⟨hp, hp', hl, hl'⟩ := hc
  cases x with
  | seek offset origin ret =>
    simp only [hcpCall, hcpSeek, seekTarget_eq_target ⟨hp, hp', hl, hl'⟩ hx.1 hx.2, Cursor.step]
    by_cases h1 : a.cursor.target offset origin < 0
    · simp [h1, Except.toOption]
    by_cases h2 : ret = FAIL
    · simp [h1, h2, Except.toOption]
    · simp [h1, h2, Except.toOption]; rfl
  | read length model =>
    by_cases hneg : length < 0
    · simp [hcpCall, hcpRead, Cursor.step, hneg, Except.toOption]
    by_cases h0 : length = 0
    · have hw₀ : wrap32 (a.info.length - a.posn) = a.info.length - a.posn :=
        wrap32_of_isInt32 ⟨by simp at hp' hl; omega, by simp at hp hl'; omega⟩
      have hw₁ : wrap32 a.info.length = a.info.length := wrap32_of_isInt32 ⟨by simp at hl; omega, hl'⟩
      subst h0
      cases model <;> simp [hcpCall, hcpRead, Cursor.step, hw₀, hw₁, Except.toOption, AccRec.cursor]
    have hw : wrap32 (a.posn + length) = a.posn + length :=
      wrap32_of_isInt32 ⟨by simp at hp; omega, by simpa using hx.2⟩
    by_cases hr : a.info.length < a.posn + length
    · simp [hcpCall, hcpRead, Cursor.step, hneg, h0, hw, hr, Except.toOption]
    · cases model <;> simp [hcpCall, hcpRead, Cursor.step, hneg, h0, hw, hr, Except.toOption, AccRec.cursor]
  | write length o =>
    by_cases hneg : length < 0
    · simp [hcpCall, hcpWrite, Cursor.step, hneg, Except.toOption]
    have hw : wrap32 (a.posn + length) = a.posn + length :=
      wrap32_of_isInt32 ⟨by simp at hp; omega, by simpa using hx.2⟩
    obtain ⟨_ | _, _ | _, _ | _⟩ := o <;> by_cases hg : a.info.length < a.posn + length <;>
      simp [hcpCall, hcpWrite, Cursor.step, hneg, hw, hg, Except.toOption, AccRec.cursor]

/-- A run of calls on an access record refines the stream's run: while every call fits where
the stream has got to, the code's run succeeds exactly when the stream's does, and leaves the
record at the stream's position and length. The `int32` wraps of the code change nothing
until a sum passes `2^31 - 1`. -/
theorem hcpRun_cursor (f : FileRec) (a : AccRec) (cs : List HcpCall) (hc : a.cursor.InRange)
    (hfit : a.cursor.RunFits cs) : (hcpRun f a cs).map (·.2.cursor) = a.cursor.run cs := by
  induction cs generalizing f a with
  | nil => rfl
  | cons x xs ih =>
    have hs := hcpCall_cursor f a x hc hfit.1
    rcases hcall : hcpCall f a x with ⟨f', a', r⟩
    rw [hcall] at hs
    simp only [hcpRun, Cursor.run, hcall, hs]
    cases r with
    | error e => rfl
    | ok r =>
      exact ih f' a' (hc.step hfit.1 hs) (hfit.2 _ hs)

/-- A record at the start of an empty element writes ten bytes, seeks back to 3 and reads to
the end. -/
theorem hcpRun_cursor_write_seek_read :
    let a : AccRec := default
    let cs := [.write 10 ⟨true, true, true⟩, .seek 3 DF_START 0, .read 0 true]
    a.cursor.InRange ∧ a.cursor.RunFits cs ∧ (hcpRun default a cs).map (·.2.cursor) = a.cursor.run cs :=
  ⟨by decide, by decide, hcpRun_cursor default default _ (by decide) (by decide)⟩

/-- `HCPseek` sets no upper bound on the position ("There is no upper bound to posn"), and
`HCPread` of `0` bytes reads `info->length - posn` bytes, to the end. After a seek past the
end that count is negative: the model is asked for a negative number of bytes, the position
falls back to the length, and the read returns the negative count as a success. -/
theorem hcpRead_past_end (f : FileRec) (a : AccRec) {offset ret : Int} (hl : 0 ≤ a.info.length)
    (hoff : a.info.length < offset) (hfit : offset ≤ 2147483647) (hret : ret ≠ FAIL) :
    let s := hcpCall f a (.seek offset DF_START ret)
    let r := hcpCall s.1 s.2.1 (.read 0 true)
    s.2.2 = .ok ret ∧ r.2.2 = .ok (a.info.length - offset) ∧ a.info.length - offset < 0 ∧
      r.2.1.posn = a.info.length := by
  intro s r
  have hs : s = (f, { a with posn := offset }, .ok ret) := by
    simp [s, hcpCall, hcpSeek, seekTarget, DF_START, DF_CURRENT, DF_END, hret, show ¬offset < 0 by omega]
  have hw₀ : wrap32 (a.info.length - offset) = a.info.length - offset := wrap32_of_isInt32 ⟨by omega, by omega⟩
  have hw₁ : wrap32 a.info.length = a.info.length := wrap32_of_isInt32 ⟨by omega, by omega⟩
  simp [r, hs, hcpCall, hcpRead, hw₀, hw₁]
  omega

/-- One byte past the end of an element of ten bytes, the read returns `FAIL` as its count. -/
theorem hcpRead_past_end_fail :
    let a : AccRec := { (default : AccRec) with info := { (default : CompInfo) with length := 10 } }
    let s := hcpCall default a (.seek 11 DF_START 0)
    let r := hcpCall s.1 s.2.1 (.read 0 true)
    (s.2.2 = .ok 0 ∧ r.2.2 = .ok (a.info.length - 11) ∧ a.info.length - 11 < 0 ∧ r.2.1.posn = a.info.length) ∧
      a.info.length - 11 = FAIL :=
  ⟨hcpRead_past_end default _ (by decide) (by decide) (by decide) (by decide), rfl⟩

end Hdf4
