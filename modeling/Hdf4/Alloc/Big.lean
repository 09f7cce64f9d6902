import Hdf4.Basic

/-!
# `memcpy_big`, `memset_big`, `memcmp_big` and their far twins

The PC compilers' `memcpy`, `memset` and `memcmp` take a 16-bit count, so these six functions
cut a `uint32` length into chunks of `UINT_MAX` bytes: all at once when `len <= UINT_MAX`, else
one chunk at a time while more than `UINT_MAX` bytes are left, and the rest last. `memcmp_big`
returns at the first chunk that differs. The `f` twins of the WIN3 build are the same code over
`_fmemcpy`, `_fmemset` and `_fmemcmp`, which in a flat memory do what the near calls do.

* `memcpyAt`, `memsetAt` and `memcmpAt` are the library calls on one chunk, as the C standard
  describes them (`<string.h>` is not among the sources): a copy between buffers that do not
  overlap, a fill with `(unsigned char) c`, and the difference of the first pair of bytes that
  differ, read as `unsigned char`;
* `bigLoop` and `bigOp` are the code `memcpy_big` and `memset_big` share, over the operation
  on a chunk; `bigOp_eq` shows they do what one call on all `len` bytes does whenever the
  operation `Splits`, as the copy and the fill do;
* `cmpLoop` and `cmpBig` are the code of `memcmp_big`; `cmpBig_eq` shows it returns what one
  `memcmp` of all `len` bytes returns, from `memcmpAt_add`, how a comparison splits;
* `big_chunks_eq`: for every `UINT_MAX ≥ 1` and every length, the six functions agree with
  the single calls, and `memcmp_big` has the sign of the first pair of bytes that differ.
-/

namespace Hdf4

/-! ## The calls on one chunk -/

/-- `memcpy(dst + off, src + off, n)`, the two pointers moved on together. -/
def memcpyAt (src : Nat → UInt8) (dst : Nat → UInt8) (off n : Nat) : Nat → UInt8 :=
  fun i => if off ≤ i ∧ i < off + n then src i else dst i

/-- `memset(s + off, c, n)`: the bytes take `c` converted to `unsigned char`. -/
def memsetAt (c : Int) (s : Nat → UInt8) (off n : Nat) : Nat → UInt8 :=
  fun i => if off ≤ i ∧ i < off + n then UInt8.ofNat (c % 256).toNat else s i

/-- `memcmp(a + off, b + off, n)`: the difference of the first pair of bytes that differ, read
as `unsigned char`, or 0. -/
def memcmpAt (a b : Nat → UInt8) : Nat → Nat → Int
  | _, 0 => 0
  | off, n + 1 => if a off = b off then memcmpAt a b (off + 1) n else (a off).toNat - (b off).toNat

/-! ## `memcpy_big` and `memset_big` -/

section Chunks

variable {σ : Type}

/-- The loop `memcpy_big` and `memset_big` share: `op` on `UINT_MAX` bytes from offset `off`
while more than `UINT_MAX` are left, on `fuel` rounds. -/
def bigLoop (UINT_MAX : Nat) (op : σ → Nat → Nat → σ) : Nat → σ → Nat → Nat → Option (σ × Nat × Nat)
  | 0, _, _, _ => none
  | fuel + 1, st, off, len =>
    if UINT_MAX < len then bigLoop UINT_MAX op fuel (op st off UINT_MAX) (off + UINT_MAX) (len - UINT_MAX)
    else some (st, off, len)

/-- `memcpy_big` and `memset_big` over the operation `op` on a chunk: all at once when
`len <= UINT_MAX`, else the loop, on `len` rounds, and the bytes left. -/
def bigOp (UINT_MAX : Nat) (op : σ → Nat → Nat → σ) (st : σ) (len : Nat) : Option σ :=
  if len ≤ UINT_MAX then some (op st 0 len)
  else (bigLoop UINT_MAX op len st 0 len).map fun r => if 0 < r.2.2 then op r.1 r.2.1 r.2.2 else r.1

/-- An operation on a range of bytes that does nothing on an empty range, and does on a range
what it does on a first part and then on the rest. -/
structure Splits (op : σ → Nat → Nat → σ) : Prop where
  zero : ∀ st off, op st off 0 = st
  add : ∀ st off m n, op (op st off m) (off + m) n = op st off (m + n)

variable {UINT_MAX : Nat} {op : σ → Nat → Nat → σ}

/-- With enough rounds, the loop leaves at most `UINT_MAX` bytes, and has done on the others
what one call does. -/
theorem bigLoop_spec (hC : 0 < UINT_MAX) (hs : Splits op) :
    ∀ (fuel : Nat) (st : σ) (off len : Nat), 0 < fuel → len < fuel + UINT_MAX →
      ∃ r ≤ len, bigLoop UINT_MAX op fuel st off len = some (op st off (len - r), off + (len - r), r)
  | 0, _, _, _, hf, _ => absurd hf (Nat.lt_irrefl 0)
  | fuel + 1, st, off, len, _, hl => by
    rw [bigLoop]
    split_ifs with h
    · obtain ⟨r, hr, hrun⟩ := bigLoop_spec hC hs fuel (op st off UINT_MAX) (off + UINT_MAX)
        (len - UINT_MAX) (by omega) (by omega)
      refine ⟨r, by omega, ?_⟩
      rw [hrun, hs.add, Nat.add_assoc, ← Nat.add_sub_assoc (by omega), Nat.add_sub_cancel' h.le]
    · exact ⟨len, le_rfl, by rw [Nat.sub_self, hs.zero, Nat.add_zero]⟩

/-- `memcpy_big` and `memset_big` do what one call on all `len` bytes does. -/
theorem bigOp_eq (hC : 0 < UINT_MAX) (hs : Splits op) (st : σ) (len : Nat) :
    bigOp UINT_MAX op st len = some (op st 0 len) := by
  rw [bigOp]
  split_ifs with h
  · rfl
  · obtain ⟨r, hr, hrun⟩ := bigLoop_spec hC hs len st 0 len (by omega) (by omega)
    rw [hrun, Option.map_some']
    congr 1
    dsimp only
    split_ifs with h0
    · rw [hs.add, Nat.sub_add_cancel hr]
    · rw [show r = 0 by omega, Nat.sub_zero]

end Chunks

theorem memcpyAt_splits (src : Nat → UInt8) : Splits (memcpyAt src) :=
  ⟨fun st off => funext fun i => if_neg (by omega), fun st off m n => funext fun i => by
    simp only [memcpyAt]; split_ifs <;> first | rfl | omega⟩

theorem memsetAt_splits (c : Int) : Splits (memsetAt c) :=
  ⟨fun st off => funext fun i => if_neg (by omega), fun st off m n => funext fun i => by
    simp only [memsetAt]; split_ifs <;> first | rfl | omega⟩

/-- `memcpy_big(dst, src, len)`: the bytes of `dst` afterwards. -/
def memcpyBig (UINT_MAX : Nat) (dst src : Nat → UInt8) (len : Nat) : Option (Nat → UInt8) :=
  bigOp UINT_MAX (memcpyAt src) dst len

/-- `fmemcpy_big(dst, src, len)`, over `_fmemcpy`. -/
def fmemcpyBig (UINT_MAX : Nat) (dst src : Nat → UInt8) (len : Nat) : Option (Nat → UInt8) :=
  bigOp UINT_MAX (memcpyAt src) dst len

/-- `memset_big(src, c, len)`: the bytes of `src` afterwards. -/
def memsetBig (UINT_MAX : Nat) (src : Nat → UInt8) (c : Int) (len : Nat) : Option (Nat → UInt8) :=
  bigOp UINT_MAX (memsetAt c) src len

/-- `fmemset_big(src, c, len)`, over `_fmemset`. -/
def fmemsetBig (UINT_MAX : Nat) (src : Nat → UInt8) (c : Int) (len : Nat) : Option (Nat → UInt8) :=
  bigOp UINT_MAX (memsetAt c) src len

/-! ## `memcmp_big` -/

section Compare

variable (a b : Nat → UInt8)

/-- Bytes that differ give a difference that is not 0. -/
theorem toNat_sub_ne_zero {x y : UInt8} (h : x ≠ y) : ((x.toNat : Int) - y.toNat) ≠ 0 := by
  intro h0
  exact h (UInt8.toNat.inj (by omega))

/-- A comparison of `m + n` bytes is the comparison of the first `m` when they differ, and
that of the next `n` when they do not. -/
theorem memcmpAt_add : ∀ (off m n : Nat), memcmpAt a b off (m + n) =
    if memcmpAt a b off m ≠ 0 then memcmpAt a b off m else memcmpAt a b (off + m) n
  | off, 0, n => by simp [memcmpAt]
  | off, m + 1, n => by
    rw [Nat.add_right_comm, memcmpAt, memcmpAt]
    split_ifs with h₁ h₂ h₂
    · rw [memcmpAt_add (off + 1) m n, if_pos h₂]
    · rw [memcmpAt_add (off + 1) m n, if_neg h₂, Nat.add_right_comm, Nat.add_assoc]
    · rfl
    · exact absurd (toNat_sub_ne_zero h₁) h₂

/-- `memcmp` finds no difference exactly when the bytes agree. -/
theorem memcmpAt_eq_zero_iff : ∀ (off n : Nat),
    memcmpAt a b off n = 0 ↔ ∀ i < n, a (off + i) = b (off + i)
  | off, 0 => by simp [memcmpAt]
  | off, n + 1 => by
    rw [memcmpAt]
    split_ifs with h
    · rw [memcmpAt_eq_zero_iff (off + 1) n]
      constructor
      · intro hr i hi
        rcases i with _ | i
        · exact h
        · simpa [Nat.add_right_comm, Nat.add_assoc] using hr i (by omega)
      · intro hr i hi
        simpa [Nat.add_right_comm, Nat.add_assoc] using hr (i + 1) (by omega)
    · exact ⟨fun h0 => absurd h0 (toNat_sub_ne_zero h), fun hr => absurd (hr 0 (by omega)) h⟩

/-- `memcmp` returns the difference of the first pair of bytes that differ. -/
theorem memcmpAt_first {off n j : Nat} (hj : j < n) (heq : ∀ i < j, a (off + i) = b (off + i))
    (hne : a (off + j) ≠ b (off + j)) :
    memcmpAt a b off n = (a (off + j)).toNat - (b (off + j)).toNat := by
  obtain ⟨k, rfl⟩ := Nat.exists_eq_add_of_lt hj
  rw [Nat.add_assoc, memcmpAt_add, if_neg (by rw [not_not, memcmpAt_eq_zero_iff]; exact heq),
    memcmpAt, if_neg hne]

variable (UINT_MAX : Nat)

/-- The loop of `memcmp_big`: compare `UINT_MAX` bytes from offset `off` while more than
`UINT_MAX` are left, and return the first result that is not 0 (`.inl`); `.inr (off, len)`
when the loop ends, on `fuel` rounds. -/
def cmpLoop : Nat → Nat → Nat → Option (Int ⊕ (Nat × Nat))
  | 0, _, _ => none
  | fuel + 1, off, len =>
    if UINT_MAX < len then
      if memcmpAt a b off UINT_MAX ≠ 0 then some (.inl (memcmpAt a b off UINT_MAX))
      else cmpLoop fuel (off + UINT_MAX) (len - UINT_MAX)
    else some (.inr (off, len))

/-- What `memcmp_big` returns once its loop has ended. -/
def cmpRest : Int ⊕ (Nat × Nat) → Int
  | .inl ret_val => ret_val
  | .inr (off, len) => if 0 < len then memcmpAt a b off len else 0

/-- `memcmp_big` and `fmemcmp_big`: all at once when `len <= UINT_MAX`, else the loop, on
`len` rounds, and the bytes left. -/
def cmpBig (len : Nat) : Option Int :=
  if len ≤ UINT_MAX then some (memcmpAt a b 0 len)
  else (cmpLoop a b UINT_MAX len 0 len).map (cmpRest a b)

variable {UINT_MAX}

/-- With enough rounds, the loop and what follows it return the comparison of all `len`
bytes from `off`. -/
theorem cmpLoop_spec (hC : 0 < UINT_MAX) :
    ∀ (fuel off len : Nat), 0 < fuel → len < fuel + UINT_MAX →
      ∃ v, cmpLoop a b UINT_MAX fuel off len = some v ∧ cmpRest a b v = memcmpAt a b off len
  | 0, _, _, hf, _ => absurd hf (Nat.lt_irrefl 0)
  | fuel + 1, off, len, _, hl => by
    rw [cmpLoop]
    split_ifs with h h₁
    · -- a chunk that differs decides
      refine ⟨_, rfl, ?_⟩
      rw [cmpRest, ← Nat.add_sub_cancel' h.le, memcmpAt_add, if_pos h₁]
    · obtain ⟨v, hv, hr⟩ := cmpLoop_spec hC fuel (off + UINT_MAX) (len - UINT_MAX) (by omega)
        (by omega)
      refine ⟨v, hv, ?_⟩
      rw [hr, ← Nat.add_sub_cancel' h.le, memcmpAt_add, if_neg h₁, Nat.add_sub_cancel_left]
    · refine ⟨_, rfl, ?_⟩
      rw [cmpRest]
      split_ifs with h0
      · rfl
      · rw [show len = 0 by omega, memcmpAt]

/-- `memcmp_big` returns what one `memcmp` of all `len` bytes returns. -/
theorem cmpBig_eq (hC : 0 < UINT_MAX) (len : Nat) :
    cmpBig a b UINT_MAX len = some (memcmpAt a b 0 len) := by
  rw [cmpBig]
  split_ifs with h
  · rfl
  · obtain ⟨v, hv, hr⟩ := cmpLoop_spec a b hC len 0 len (by omega) (by omega)
    rw [hv, Option.map_some', hr]

end Compare

/-- `memcmp_big(s1, s2, len)`. -/
def memcmpBig (UINT_MAX : Nat) (s1 s2 : Nat → UInt8) (len : Nat) : Option Int :=
  cmpBig s1 s2 UINT_MAX len

/-- `fmemcmp_big(s1, s2, len)`, over `_fmemcmp`. -/
def fmemcmpBig (UINT_MAX : Nat) (s1 s2 : Nat → UInt8) (len : Nat) : Option Int :=
  cmpBig s1 s2 UINT_MAX len

/-! ## The six functions -/

/-- For every chunk bound `UINT_MAX ≥ 1` and every length, `memcpy_big` and `memset_big` and
their far twins leave the buffer as one `memcpy` or `memset` of `len` bytes would, and
`memcmp_big` and `fmemcmp_big` return what one `memcmp` of `len` bytes returns: 0 when no byte
differs, else the difference, with its sign, of the first pair of bytes that differ. -/
theorem big_chunks_eq (UINT_MAX : Nat) (hC : 1 ≤ UINT_MAX) (dst src s1 s2 : Nat → UInt8) (c : Int)
    (len : Nat) :
    memcpyBig UINT_MAX dst src len = some (memcpyAt src dst 0 len) ∧
    fmemcpyBig UINT_MAX dst src len = some (memcpyAt src dst 0 len) ∧
    memsetBig UINT_MAX dst c len = some (memsetAt c dst 0 len) ∧
    fmemsetBig UINT_MAX dst c len = some (memsetAt c dst 0 len) ∧
    memcmpBig UINT_MAX s1 s2 len = some (memcmpAt s1 s2 0 len) ∧
    fmemcmpBig UINT_MAX s1 s2 len = some (memcmpAt s1 s2 0 len) ∧
    (memcmpAt s1 s2 0 len = 0 ↔ ∀ i < len, s1 i = s2 i) ∧
    ∀ j < len, (∀ i < j, s1 i = s2 i) → s1 j ≠ s2 j →
      memcmpAt s1 s2 0 len = (s1 j).toNat - (s2 j).toNat := by
  have hcpy := bigOp_eq hC (memcpyAt_splits src) dst len
  have hset := bigOp_eq hC (memsetAt_splits c) dst len
  have hcmp := cmpBig_eq s1 s2 hC len
  refine ⟨hcpy, hcpy, hset, hset, hcmp, hcmp, by simpa using memcmpAt_eq_zero_iff s1 s2 0 len,
    fun j hj heq hne => ?_⟩
  simpa using @memcmpAt_first s1 s2 0 len j hj (by simpa using heq) (by simpa using hne)

/-- Chunks of three bytes over seven, the buffers compared differing at byte 5. -/
theorem big_chunks_eq_seven :
    let dst : Nat → UInt8 := fun _ => 0
    let src : Nat → UInt8 := fun i => UInt8.ofNat i
    let s2 : Nat → UInt8 := fun i => if i = 5 then 9 else UInt8.ofNat i
    memcpyBig 3 dst src 7 = some (memcpyAt src dst 0 7) ∧
    fmemcpyBig 3 dst src 7 = some (memcpyAt src dst 0 7) ∧
    memsetBig 3 dst 7 7 = some (memsetAt 7 dst 0 7) ∧
    fmemsetBig 3 dst 7 7 = some (memsetAt 7 dst 0 7) ∧
    memcmpBig 3 src s2 7 = some (memcmpAt src s2 0 7) ∧
    fmemcmpBig 3 src s2 7 = some (memcmpAt src s2 0 7) ∧
    (memcmpAt src s2 0 7 = 0 ↔ ∀ i < 7, src i = s2 i) ∧
    ∀ j < 7, (∀ i < j, src i = s2 i) → src j ≠ s2 j →
      memcmpAt src s2 0 7 = (src j).toNat - (s2 j).toNat :=
  big_chunks_eq 3 (by decide) _ _ _ _ 7 7

example : memcmpBig 3 (fun i => UInt8.ofNat i) (fun i => if i = 5 then 9 else UInt8.ofNat i) 7 =
    some (-4) := by decide

end Hdf4
