import Hdf4.Basic

/-!
# The allocator of the 16-bit PC build

In the 16-bit PC build (not WIN3) `HDmalloc` puts a five-byte header before the block it hands
out: a flag byte, 1 when `halloc` gave the memory and 0 when `malloc` did, then the `uint32`
size of the whole block. `HDrealloc` reads the size back to copy the old bytes, and `HDfree`
and `HDrealloc` read the flag to pick `hfree` or `free`. `HDcalloc` asks `HDmalloc` for
`n * size` bytes and clears them. The counts are `uint32`; `int` and `size_t` have 16 bits, so
`UINT_MAX` is 65535 and `HDrealloc`'s copy length is computed in 16 bits.

* `PcBlock` is a block seen from the pointer `HDmalloc` returns; `hdMalloc`, `hdRealloc`,
  `hdFree` and `hdCalloc` take the allocator's answer as an outcome (`none` for `NULL`, else
  the bytes the fresh memory holds);
* `alloc_short`: a request near `2^32` wraps. `HDcalloc` of `n * size ≥ 2^32` bytes and
  `HDmalloc` of `qty ≥ 2^32 - 5` bytes return blocks with fewer usable bytes than asked;
* `hdRealloc_copy`: `HDrealloc` records the new size and allocator and frees the old block
  with its own allocator, but copies `MIN(UINT_MAX, (uint16) MIN(old_size, qty)) - 5` bytes,
  which is `min q1 q2` only below 65536: above it every byte from 65535 on is lost.
-/

namespace Hdf4

/-- Which call gives a block back. -/
inductive Dealloc
  | hfree
  | free
deriving DecidableEq, Repr

/-- A block of the PC build, seen from the pointer `HDmalloc` returns: the flag byte and the
size in the header before it, the bytes the allocator gave, header included, which allocator
gave them, and the bytes from the pointer on. -/
structure PcBlock where
  flag : UInt8
  size : Nat
  cap : Nat
  halloc : Bool
  data : Nat → UInt8

/-- The bytes of a block after its header. -/
def PcBlock.usable (p : PcBlock) : Int := p.cap - 5

/-- `HDmalloc(qty)`: five bytes more, from `halloc` from 64000 bytes on, else from `malloc`;
`alloc` is what the allocator returns. -/
def hdMalloc (qty : Nat) (alloc : Option (Nat → UInt8)) : Option PcBlock :=
  let qty := wrapU32 (qty + 5)
  if 64000 ≤ qty then alloc.map fun fresh => ⟨1, qty, qty, true, fresh⟩
  else alloc.map fun fresh => ⟨0, qty, qty, false, fresh⟩

/-- `HDfree(ptr)` on a block: `hfree` when the flag says `halloc` gave it. -/
def hdFree (p : PcBlock) : Dealloc := if p.flag ≠ 0 then .hfree else .free

/-- The number of bytes `HDrealloc` copies: `MIN(UINT_MAX, (uint16) MIN(old_size, qty)) - 5`,
in 16-bit `unsigned int`. -/
def reallocLen (old_size qty : Nat) : Nat := (min 65535 (min old_size qty % 65536) + 65536 - 5) % 65536

/-- `HDrealloc(ptr, qty)`: a new block as `HDmalloc` makes it, the old bytes copied into it, and
the call that gives the old block back; `none`, with the old block kept, when the allocator
returns `NULL`. -/
def hdRealloc (p : PcBlock) (qty : Nat) (alloc : Option (Nat → UInt8)) : Option (PcBlock × Dealloc) :=
  let qty := wrapU32 (qty + 5)
  let old_size := p.size
  let copy := fun fresh i => if i < reallocLen old_size qty then p.data i else fresh i
  let old := hdFree p
  if 64000 ≤ qty then alloc.map fun fresh => (⟨1, qty, qty, true, copy fresh⟩, old)
  else alloc.map fun fresh => (⟨0, qty, qty, false, copy fresh⟩, old)

/-- `HDcalloc(n, size)`: `HDmalloc(n * size)`, the `uint32` product, then that many bytes set
to 0. -/
def hdCalloc (n size : Nat) (alloc : Option (Nat → UInt8)) : Option PcBlock :=
  (hdMalloc (wrapU32 (n * size)) alloc).map fun p =>
    { p with data := fun i => if i < wrapU32 (n * size) then 0 else p.data i }

/-! ## `HDmalloc` and `HDcalloc` -/

/-- What `HDmalloc` returns: a block of `qty + 5` bytes, wrapped to `uint32`, whose flag says
which allocator gave it. -/
theorem hdMalloc_eq_some {qty : Nat} {alloc : Option (Nat → UInt8)} {p : PcBlock}
    (h : hdMalloc qty alloc = some p) :
    ∃ fresh, alloc = some fresh ∧ p.size = wrapU32 (qty + 5) ∧ p.cap = wrapU32 (qty + 5) ∧
      p.halloc = decide (64000 ≤ wrapU32 (qty + 5)) ∧ hdFree p = (if p.halloc then .hfree else .free) ∧
      p.data = fresh := by
  rw [hdMalloc] at h
  cases alloc with
  | none => split_ifs at h <;> cases h
  | some fresh =>
    split_ifs at h with hq <;> cases h <;> exact ⟨fresh, rfl, rfl, rfl, by simp [hq], rfl, rfl⟩

/-- A request that leaves room for the header gives a block with that many usable bytes; one
near `2^32` wraps: `HDcalloc` of `n * size ≥ 2^32` bytes and `HDmalloc` of `qty ≥ 2^32 - 5`
bytes return blocks with fewer usable bytes than asked. -/
theorem alloc_short {n size qty : Nat} (hn : 4294967296 ≤ n * size) (hq : 4294967291 ≤ qty)
    (hq32 : qty < 4294967296) (alloc alloc' : Option (Nat → UInt8)) :
    (∀ p, hdCalloc n size alloc = some p → p.usable < n * size) ∧
    (∀ p, hdMalloc qty alloc' = some p → p.usable < qty) := by
  refine ⟨fun p hp => ?_, fun p hp => ?_⟩
  · obtain ⟨p₀, hp₀, rfl⟩ := Option.map_eq_some'.1 hp
    obtain ⟨-, -, -, hcap, -⟩ := hdMalloc_eq_some hp₀
    have := Nat.mod_lt (n * size) (by norm_num : 0 < 4294967296)
    have := Nat.mod_le (wrapU32 (n * size) + 5) 4294967296
    simp only [PcBlock.usable, hcap, wrapU32] at *
    omega
  · obtain ⟨-, -, -, hcap, -⟩ := hdMalloc_eq_some hp
    simp only [PcBlock.usable, hcap, wrapU32]
    omega

/-- `HDcalloc(65536, 65536)` and `HDmalloc(2^32 - 1)`, the allocator granting both: each
returns a block, with fewer usable bytes than asked for. -/
theorem alloc_short_wrapped :
    (∃ p, hdCalloc 65536 65536 (some fun _ => 7) = some p ∧ p.usable < 65536 * 65536) ∧
    (∃ p, hdMalloc 4294967295 (some fun _ => 7) = some p ∧ p.usable < 4294967295) :=
  have h := @alloc_short 65536 65536 4294967295 (by norm_num) (by norm_num) (by norm_num)
    (some fun _ => 7) (some fun _ => 7)
  ⟨⟨_, rfl, h.1 _ rfl⟩, ⟨_, rfl, h.2 _ rfl⟩⟩

/-! ## `HDrealloc` -/

/-- `HDrealloc` copies `min q1 q2` bytes of a block of `q1` bytes resized to `q2` while that
is below 65536, and never more than 65535. -/
theorem reallocLen_le (old_size qty : Nat) : reallocLen old_size qty ≤ 65535 :=
  Nat.le_of_lt_succ (Nat.mod_lt _ (by norm_num))

theorem reallocLen_of_lt {q1 q2 : Nat} (h : min q1 q2 < 65536) :
    reallocLen (q1 + 5) (q2 + 5) = min q1 q2 := by
  simp only [reallocLen, min_add_add_right]
  omega

/-- What `HDrealloc` returns: a block of `qty + 5` bytes, wrapped to `uint32`, whose flag says
which allocator gave it, the old block given back as its flag says, and `reallocLen` bytes
of the old block copied to the new one. -/
theorem hdRealloc_eq_some {p p' : PcBlock} {qty : Nat} {alloc : Option (Nat → UInt8)}
    {old : Dealloc} (h : hdRealloc p qty alloc = some (p', old)) :
    ∃ fresh, alloc = some fresh ∧ p'.size = wrapU32 (qty + 5) ∧
      hdFree p' = (if p'.halloc then .hfree else .free) ∧ old = hdFree p ∧
      ∀ i, p'.data i = if i < reallocLen p.size (wrapU32 (qty + 5)) then p.data i else fresh i := by
  rw [hdRealloc] at h
  cases alloc with
  | none => split_ifs at h <;> cases h
  | some fresh =>
    split_ifs at h <;> cases h <;> exact ⟨fresh, rfl, rfl, rfl, rfl, fun _ => by dsimp only⟩

/-- `HDrealloc` of a block `HDmalloc(q1)` made, to `q2` bytes, the sizes fitting a `uint32`:
the new header records `q2 + 5` and the allocator that gave the block, the old block goes
back to its own allocator, and the first `min q1 q2` bytes are kept while `min q1 q2` is below
65536. From 65536 on, the copy length is cut to 16 bits, and every byte from 65535 on is the
new allocation's. -/
theorem hdRealloc_copy {q1 q2 : Nat} (h1 : q1 + 5 < 4294967296) (h2 : q2 + 5 < 4294967296)
    {alloc alloc' : Option (Nat → UInt8)} {p p' : PcBlock} {old : Dealloc}
    (hp : hdMalloc q1 alloc = some p) (hr : hdRealloc p q2 alloc' = some (p', old)) :
    p'.size = q2 + 5 ∧ hdFree p' = (if p'.halloc then .hfree else .free) ∧
      old = (if p.halloc then .hfree else .free) ∧
      (min q1 q2 < 65536 → ∀ i < min q1 q2, p'.data i = p.data i) ∧
      (65536 ≤ min q1 q2 → ∀ fresh, alloc' = some fresh → ∀ i, 65535 ≤ i → p'.data i = fresh i) := by
  obtain ⟨-, -, hsize, -, -, hfree, -⟩ := hdMalloc_eq_some hp
  obtain ⟨fresh, rfl, hsize', hfree', rfl, hdata⟩ := hdRealloc_eq_some hr
  rw [wrapU32_of_lt h1] at hsize
  rw [wrapU32_of_lt h2] at hsize' hdata
  refine ⟨hsize', hfree', hfree, fun hm i hi => ?_, fun _ fresh' hf i hi => ?_⟩
  · rw [hdata, hsize, reallocLen_of_lt hm, if_pos hi]
  · cases hf
    rw [hdata, if_neg (by have := reallocLen_le p.size (q2 + 5); omega)]

/-- `HDrealloc` of a block of 70000 bytes to 70000: byte 65535 is not the old block's. -/
theorem hdRealloc_copy_70000 :
    ∃ p p' old, hdMalloc 70000 (some fun _ => 1) = some p ∧
      hdRealloc p 70000 (some fun _ => 0) = some (p', old) ∧ p'.data 65535 ≠ p.data 65535 ∧
      p'.size = 70000 + 5 ∧ hdFree p' = (if p'.halloc then .hfree else .free) ∧
      old = (if p.halloc then .hfree else .free) ∧
      (min 70000 70000 < 65536 → ∀ i < min 70000 70000, p'.data i = p.data i) ∧
      (65536 ≤ min 70000 70000 → ∀ fresh, some (fun _ => (0 : UInt8)) = some fresh →
        ∀ i, 65535 ≤ i → p'.data i = fresh i) :=
  ⟨_, _, _, rfl, rfl, by decide, @hdRealloc_copy 70000 70000 (by norm_num) (by norm_num)
    (some fun _ => 1) (some fun _ => 0) _ _ _ rfl rfl⟩

end Hdf4
