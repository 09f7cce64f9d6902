import Hdf4.Basic

/-!
# `HDmemfill`

`HDmemfill(dest, src, item_size, num_items)` fills `dest` with `num_items` copies of the
`item_size`-byte pattern at `src`. It copies the first item from `src`, then, while at least as
many items are left as are filled, doubles the filled prefix with one `HDmemcpy` from the start
of `dest` onto the bytes after it, and last copies the items left. Its counters are `uint32`.

* `memcpyWithin mem dst len` is `HDmemcpy(dest + dst, dest, len)` on the bytes of `dest`;
  it reads the bytes as they were before the copy, which is what `memcpy` does on ranges that
  do not overlap;
* `hdMemfill` gives the bytes of `dest` afterwards and the copies within `dest` it issued. The
  loop runs on fuel, `num_items` rounds, and `memfillLoop_spec` shows that they are enough;
* `FillInv` is the invariant at the head of the loop: `copy_items` items filled, the rest of
  `dest` untouched, the copies so far laid end to end (`CopiesFrom`);
* `hdMemfill_fills`: when `item_size * num_items` fits a `uint32`, `HDmemfill` ends, writes the
  pattern to every byte below `item_size * num_items` and no byte above, and every copy within
  `dest` reads a prefix that is already filled onto the bytes right after it.
-/

namespace Hdf4

/-! ## The code -/

/-- `HDmemcpy(dest + dst, dest, len)` on the bytes of `dest`: the `len` bytes from `dst` on take
the bytes from the start of `dest`. -/
def memcpyWithin (mem : Nat → UInt8) (dst len : Nat) : Nat → UInt8 :=
  fun i => if dst ≤ i ∧ i < dst + len then mem (i - dst) else mem i

theorem memcpyWithin_in {mem : Nat → UInt8} {dst len i : Nat} (h₁ : dst ≤ i) (h₂ : i < dst + len) :
    memcpyWithin mem dst len i = mem (i - dst) := if_pos ⟨h₁, h₂⟩

theorem memcpyWithin_out {mem : Nat → UInt8} {dst len i : Nat} (h : i < dst ∨ dst + len ≤ i) :
    memcpyWithin mem dst len i = mem i := if_neg (by omega)

/-- The locals of `HDmemfill` in its loop, with the bytes of `dest` and the copies within
`dest` issued so far, each as its destination offset and its length. -/
structure FillState where
  mem : Nat → UInt8
  copySize : Nat
  copyItems : Nat
  itemsLeft : Nat
  currDest : Nat
  copies : List (Nat × Nat)

/-- One round of the loop: copy the filled prefix after itself, move on, double the counts.
The loop's guard keeps `items_left -= copy_items` from wrapping. -/
def FillState.double (st : FillState) : FillState :=
  { mem := memcpyWithin st.mem st.currDest st.copySize
    copySize := wrapU32 (st.copySize * 2)
    copyItems := wrapU32 (st.copyItems * 2)
    itemsLeft := wrapU32 (st.itemsLeft - st.copyItems)
    currDest := st.currDest + st.copySize
    copies := st.copies ++ [(st.currDest, st.copySize)] }

/-- `while (items_left >= copy_items)`, on `fuel` rounds. -/
def memfillLoop : Nat → FillState → Option FillState
  | 0, _ => none
  | fuel + 1, st => if st.copyItems ≤ st.itemsLeft then memfillLoop fuel st.double else some st

/-- The code after the loop: copy the items left, if any. -/
def memfillTail (item_size : Nat) (st : FillState) : (Nat → UInt8) × List (Nat × Nat) :=
  if 0 < st.itemsLeft then
    (memcpyWithin st.mem st.currDest (wrapU32 (st.itemsLeft * item_size)),
      st.copies ++ [(st.currDest, wrapU32 (st.itemsLeft * item_size))])
  else (st.mem, st.copies)

/-- `HDmemfill` on the bytes `mem` of `dest` and the pattern `src`: the bytes of `dest`
afterwards and the copies within `dest` it issued. The loop gets `num_items` rounds. -/
def hdMemfill (mem src : Nat → UInt8) (item_size num_items : Nat) :
    Option ((Nat → UInt8) × List (Nat × Nat)) :=
  if 0 < num_items ∧ 0 < item_size then
    (memfillLoop num_items ⟨fun i => if i < item_size then src i else mem i, item_size, 1,
      num_items - 1, item_size, []⟩).map (memfillTail item_size)
  else some (mem, [])

/-! ## What it is for -/

/-- Copies within `dest`, each of the first `len` bytes onto offset `dst`, laid end to end
from offset `start` to offset `stop`, each no longer than the bytes before it: each reads only
bytes that the first item and the copies before it filled, and writes bytes disjoint from them. -/
def CopiesFrom : Nat → Nat → List (Nat × Nat) → Prop
  | start, stop, [] => start = stop
  | start, stop, (dst, len) :: cs => dst = start ∧ len ≤ dst ∧ CopiesFrom (dst + len) stop cs

instance CopiesFrom.decidable : ∀ start stop cs, Decidable (CopiesFrom start stop cs)
  | start, stop, [] => inferInstanceAs (Decidable (start = stop))
  | _, stop, (dst, len) :: cs =>
    have := CopiesFrom.decidable (dst + len) stop cs
    inferInstanceAs (Decidable (_ ∧ _ ∧ _))

theorem CopiesFrom.append {start stop len : Nat} {cs : List (Nat × Nat)}
    (h : CopiesFrom start stop cs) (hl : len ≤ stop) :
    CopiesFrom start (stop + len) (cs ++ [(stop, len)]) := by
  induction cs generalizing start with
  | nil => exact ⟨h.symm, hl, rfl⟩
  | cons c cs ih => exact ⟨h.1, h.2.1, ih h.2.2⟩

/-- The bytes `r.1` of `dest` and the copies `r.2` within it after filling `dest`, which held
`mem`, with `num_items` items of the pattern `src`: the pattern below `item_size * num_items`,
`mem` from there on, and the copies tiling the bytes after the first item. -/
structure Filled (mem src : Nat → UInt8) (item_size num_items : Nat)
    (r : (Nat → UInt8) × List (Nat × Nat)) : Prop where
  pattern : ∀ i < item_size * num_items, r.1 i = src (i % item_size)
  beyond : ∀ i, item_size * num_items ≤ i → r.1 i = mem i
  copies : 0 < item_size * num_items → CopiesFrom item_size (item_size * num_items) r.2
  empty : item_size * num_items = 0 → r.2 = []

/-! ## The loop -/

section Loop

variable {mem src : Nat → UInt8} {item_size num_items : Nat}

/-- The loop's invariant: `copy_items` items filled, and `copy_size` and `curr_dest` the bytes
they take. -/
structure FillInv (mem src : Nat → UInt8) (item_size num_items : Nat) (st : FillState) : Prop where
  pos : 0 < st.copyItems
  le : st.copyItems ≤ num_items
  left : st.itemsLeft = num_items - st.copyItems
  size : st.copySize = st.copyItems * item_size
  dest : st.currDest = st.copyItems * item_size
  filled : ∀ i < st.currDest, st.mem i = src (i % item_size)
  kept : ∀ i, st.currDest ≤ i → st.mem i = mem i
  copies : CopiesFrom item_size st.currDest st.copies

/-- The first item copied from `src`. -/
theorem FillInv.init (hn : 0 < num_items) :
    FillInv mem src item_size num_items ⟨fun i => if i < item_size then src i else mem i,
      item_size, 1, num_items - 1, item_size, []⟩ :=
  ⟨Nat.one_pos, hn, rfl, (one_mul _).symm, (one_mul _).symm,
    fun i hi => by simp only [if_pos hi, Nat.mod_eq_of_lt hi],
    fun i hi => if_neg (Nat.not_lt.2 hi), rfl⟩

/-- A copy of the filled prefix, `len` bytes long and no longer than it, onto the bytes after
it extends the filled prefix by `len` bytes. -/
theorem filled_memcpyWithin {m : Nat → UInt8} {c len : Nat}
    (hf : ∀ i < c * item_size, m i = src (i % item_size)) (hl : len ≤ c * item_size) :
    ∀ i < c * item_size + len, memcpyWithin m (c * item_size) len i = src (i % item_size) := by
  intro i hi
  by_cases hc : c * item_size ≤ i
  · rw [memcpyWithin_in hc hi, hf _ (by omega), Nat.mul_comm c,
      Nat.sub_mul_mod (by rwa [Nat.mul_comm])]
  · rw [memcpyWithin_out (.inl (Nat.lt_of_not_le hc)), hf _ (Nat.lt_of_not_le hc)]

/-- One round keeps the invariant: the counts double without wrapping, since they stay below
`num_items` and `item_size * num_items`. -/
theorem FillInv.double {st : FillState} (h : FillInv mem src item_size num_items st)
    (hs : 0 < item_size) (hfit : item_size * num_items < 4294967296)
    (hg : st.copyItems ≤ st.itemsLeft) : FillInv mem src item_size num_items st.double := by
  obtain ⟨hpos, hle, hleft, hsize, hdest, hfilled, hkept, hcopies⟩ := h
  have h2 : st.copyItems * 2 ≤ num_items := by omega
  have hn : num_items ≤ item_size * num_items := Nat.le_mul_of_pos_left _ hs
  have hs2 : st.copyItems * 2 * item_size ≤ item_size * num_items := by
    rw [Nat.mul_comm item_size]; exact Nat.mul_le_mul_right _ h2
  have hc2 : wrapU32 (st.copyItems * 2) = st.copyItems * 2 := wrapU32_of_lt (by omega)
  have hsz : wrapU32 (st.copySize * 2) = st.copyItems * 2 * item_size := by
    rw [hsize, Nat.mul_right_comm]; exact wrapU32_of_lt (by omega)
  have hil : wrapU32 (st.itemsLeft - st.copyItems) = num_items - st.copyItems * 2 := by
    rw [wrapU32_of_lt (by omega)]; omega
  have hend : st.currDest + st.copySize = st.copyItems * 2 * item_size := by
    rw [hdest, hsize]; ring
  simp only [FillState.double, hc2, hsz, hil, hend]
  have htwo : st.copyItems * 2 * item_size = st.copyItems * item_size + st.copyItems * item_size := by
    ring
  refine ⟨by dsimp only; omega, h2, rfl, rfl, rfl, fun i hi => ?_, fun i hi => ?_, ?_⟩
  · dsimp only at hi ⊢
    rw [hdest, hsize]
    exact filled_memcpyWithin (hdest ▸ hfilled) le_rfl i (by omega)
  · dsimp only at hi ⊢
    rw [memcpyWithin_out (.inr (by omega))]; exact hkept i (by omega)
  · dsimp only
    rw [← hend, hsize, ← hdest]; exact hcopies.append (by rw [hdest])

/-- With more rounds than items left, the loop ends, with fewer items left than filled. -/
theorem memfillLoop_spec (hs : 0 < item_size) (hfit : item_size * num_items < 4294967296) :
    ∀ (fuel : Nat) (st : FillState), FillInv mem src item_size num_items st → st.itemsLeft < fuel →
      ∃ st', memfillLoop fuel st = some st' ∧ FillInv mem src item_size num_items st' ∧
        st'.itemsLeft < st'.copyItems
  | 0, _, _, hf => absurd hf (Nat.not_lt_zero _)
  | fuel + 1, st, h, hf => by
    rw [memfillLoop]
    split_ifs with hg
    · -- a round leaves `copy_items` fewer items, and `copy_items` is positive
      refine memfillLoop_spec hs hfit fuel _ (h.double hs hfit hg) ?_
      have := h.pos
      calc st.double.itemsLeft ≤ st.itemsLeft - st.copyItems := Nat.mod_le _ _
        _ < fuel := by omega
    · exact ⟨st, rfl, h, Nat.lt_of_not_le hg⟩

/-- After the loop, the last copy fills the items left, reading no more than the loop filled. -/
theorem FillInv.tail {st : FillState} (h : FillInv mem src item_size num_items st)
    (hs : 0 < item_size) (hfit : item_size * num_items < 4294967296)
    (hlt : st.itemsLeft < st.copyItems) :
    Filled mem src item_size num_items (memfillTail item_size st) := by
  obtain ⟨m, cs, c, l, d, cps⟩ := st
  obtain ⟨hpos, hle, hleft, hsize, hdest, hfilled, hkept, hcopies⟩ := h
  dsimp only at hpos hle hleft hsize hdest hfilled hkept hcopies hlt ⊢
  subst hleft hsize hdest
  have hend : c * item_size + (num_items - c) * item_size = item_size * num_items := by
    rw [← Nat.add_mul, Nat.add_sub_cancel' hle, Nat.mul_comm]
  have hl : (num_items - c) * item_size ≤ c * item_size := Nat.mul_le_mul_right _ hlt.le
  dsimp only [memfillTail]
  split_ifs with h0
  · rw [wrapU32_of_lt (by omega)]
    have := Nat.mul_pos hs (show 0 < num_items by omega)
    refine ⟨fun i hi => filled_memcpyWithin hfilled hl i (by omega), fun i hi => ?_,
      fun _ => hend ▸ hcopies.append hl, fun h => by omega⟩
    dsimp only
    rw [memcpyWithin_out (.inr (by omega))]; exact hkept i (by omega)
  · have h0 : num_items - c = 0 := by omega
    have := Nat.mul_pos hs (show 0 < num_items by omega)
    rw [h0, Nat.zero_mul, Nat.add_zero] at hend
    exact ⟨fun i hi => hfilled i (by omega), fun i hi => hkept i (by omega),
      fun _ => hend ▸ hcopies, fun h => by omega⟩

end Loop

/-! ## `HDmemfill` -/

/-- `HDmemfill` ends, and fills `dest` as it should, whenever `item_size * num_items` fits a
`uint32`, as the `HDmalloc` request that sized `dest` does. -/
theorem hdMemfill_fills (mem src : Nat → UInt8) (item_size num_items : Nat)
    (hfit : item_size * num_items < 4294967296) :
    ∃ r, hdMemfill mem src item_size num_items = some r ∧ Filled mem src item_size num_items r := by
  rw [hdMemfill]
  split_ifs with h
  · obtain ⟨st, hst, hinv, hlt⟩ :=
      memfillLoop_spec h.2 hfit num_items _ (FillInv.init h.1) (by simp only; omega)
    exact ⟨_, by rw [hst]; rfl, hinv.tail h.2 hfit hlt⟩
  · have h0 : item_size * num_items = 0 := Nat.mul_eq_zero.2 (by omega)
    exact ⟨_, rfl, fun i hi => by omega, fun _ _ => rfl, fun hp => by omega, fun _ => rfl⟩

/-- Five three-byte items. -/
theorem hdMemfill_fills_five :
    ∃ r, hdMemfill (fun _ => 0) (fun i => UInt8.ofNat (i + 1)) 3 5 = some r ∧
      Filled (fun _ => 0) (fun i => UInt8.ofNat (i + 1)) 3 5 r :=
  hdMemfill_fills _ _ 3 5 (by norm_num)

example : (hdMemfill (fun _ => 0) (fun i => UInt8.ofNat (i + 1)) 3 5).map
    (fun r => ((List.range 16).map r.1, r.2)) =
      some ([1, 2, 3, 1, 2, 3, 1, 2, 3, 1, 2, 3, 1, 2, 3, 0], [(3, 3), (6, 6), (12, 3)]) := by
  decide

end Hdf4
