import Hdf4.Basic

/-!
# `HIstrncpy`

`HIstrncpy(dest, source, len)` copies at most `len - 1` bytes of the string `source` to `dest`
and ends the copy with a NUL, `len` counting that NUL. It returns at once when `len` is 0,
copies while `len > 1` and the source byte is not NUL, counting `len` down, and then stores the
NUL whatever `len` was.

* `strncpyLoop` is the copy loop, run on fuel that `strncpyLoop_spec` shows is enough;
  `hiStrncpy` gives the pointer returned (as an offset from `dest`) and the trace of the call:
  the bytes stored, as offsets from `dest`, and the offsets of `source` read;
* `strncpyLoop_spec` follows the loop through the `k` rounds it makes;
* `hiStrncpy_spec`: with `len` at least 1 the call stores the first
  `k = min (len - 1) (strlen source)` bytes of `source` and a NUL after them, reads no byte of
  `source` past index `k`, and returns `dest`; with `len` 0 it stores nothing; with a negative
  `len` it still stores the NUL at `dest[0]`.
-/

namespace Hdf4

/-- What `HIstrncpy` did: the bytes it stored, each with its offset from `dest`, in order, and
the offsets of `source` it read. -/
structure StrncpyTrace where
  writes : List (Nat × UInt8)
  reads : List Nat
deriving DecidableEq, Repr

/-- The copy loop of `HIstrncpy` at offset `i` of both strings, the counter at `len`, on `fuel`
rounds: `(len > 1) && (*source != '\0')` reads `source[i]` only when `len > 1`, and the copy
`*dest++ = *source++` reads it again. -/
def strncpyLoop (source : Nat → UInt8) : Nat → Int → Nat → StrncpyTrace → Option (Nat × StrncpyTrace)
  | 0, _, _, _ => none
  | fuel + 1, len, i, t =>
    if 1 < len then
      if source i ≠ 0 then
        strncpyLoop source fuel (len - 1) (i + 1) ⟨t.writes ++ [(i, source i)], t.reads ++ [i, i]⟩
      else some (i, ⟨t.writes, t.reads ++ [i]⟩)
    else some (i, t)

/-- `HIstrncpy(dest, source, len)`: the pointer it returns, as an offset from `dest`, and the
trace of the call. The loop gets `len + 1` rounds: it checks its guard at most `len` times,
and once when `len` is negative. -/
def hiStrncpy (source : Nat → UInt8) (len : Int) : Option (Nat × StrncpyTrace) :=
  let destp := 0
  if len = 0 then some (destp, ⟨[], []⟩) else
  (strncpyLoop source (len.toNat + 1) len 0 ⟨[], []⟩).map
    fun r => (destp, ⟨r.2.writes ++ [(r.1, 0)], r.2.reads⟩)

/-- The first `k` bytes of `source` from offset `i`, each stored at its own offset. -/
def copiedBytes (source : Nat → UInt8) (i k : Nat) : List (Nat × UInt8) :=
  (List.range k).map fun j => (i + j, source (i + j))

theorem copiedBytes_succ (source : Nat → UInt8) (i k : Nat) :
    copiedBytes source i (k + 1) = (i, source i) :: copiedBytes source (i + 1) k := by
  simp only [copiedBytes, List.range_succ_eq_map, List.map_cons, List.map_map, Nat.add_zero]
  congr 2
  funext j
  simp only [Function.comp, Nat.add_assoc, Nat.add_comm 1]

/-- The loop makes `k` rounds from offset `i` when the `k` bytes there are not NUL and the
counter or a NUL stops it after them. It stores those `k` bytes, reads no byte of `source`
outside `[i, i + k]`, and stops at offset `i + k`. -/
theorem strncpyLoop_spec (source : Nat → UInt8) :
    ∀ (k fuel : Nat) (len : Int) (i : Nat) (t : StrncpyTrace), k < fuel →
      (∀ j < k, source (i + j) ≠ 0) →
      (k = (len - 1).toNat ∨ k < (len - 1).toNat ∧ source (i + k) = 0) →
      ∃ rs, strncpyLoop source fuel len i t =
        some (i + k, ⟨t.writes ++ copiedBytes source i k, t.reads ++ rs⟩) ∧
        ∀ r ∈ rs, i ≤ r ∧ r ≤ i + k
  | 0, fuel + 1, len, i, t, _, _, hk => by
    rw [strncpyLoop]
    rcases hk with hk | ⟨hk, h0⟩
    · -- the counter stops the loop: `len ≤ 1`, and nothing is read
      exact ⟨[], by rw [if_neg (by omega)]; simp [copiedBytes], by simp⟩
    · -- a NUL stops it, read once
      rw [Nat.add_zero] at h0
      exact ⟨[i], by rw [if_pos (by omega), if_neg (by simpa using h0)]; simp [copiedBytes],
        by simp⟩
  | k + 1, fuel + 1, len, i, t, hf, hnz, hk => by
    have h1 : 1 < len := by omega
    have hi : source i ≠ 0 := by simpa using hnz 0 (Nat.succ_pos k)
    obtain ⟨rs, hrun, hrs⟩ := strncpyLoop_spec source k fuel (len - 1) (i + 1)
      ⟨t.writes ++ [(i, source i)], t.reads ++ [i, i]⟩ (by omega)
      (fun j hj => by simpa [Nat.add_right_comm i 1 j, Nat.add_assoc] using hnz (j + 1) (by omega))
      (by rcases hk with hk | ⟨hk, h0⟩
          · exact .inl (by omega)
          · exact .inr ⟨by omega, by rw [Nat.add_right_comm, Nat.add_assoc]; exact h0⟩)
    refine ⟨[i, i] ++ rs, ?_, ?_⟩
    · rw [strncpyLoop, if_pos h1, if_pos hi, hrun, copiedBytes_succ]
      simp [Nat.add_right_comm i 1 k, Nat.add_assoc]
    · intro r hr
      rcases List.mem_append.1 hr with hr | hr
      · simp at hr; omega
      · have := hrs r hr; omega

/-- `HIstrncpy` on a NUL-terminated `source`. With `len ≥ 1` it stores the first
`k = min (len - 1) (strlen source)` bytes of `source` and a NUL after them, and reads no byte
of `source` past index `k`; with `len = 0` it stores and reads nothing; with `len < 0` it
stores the NUL at `dest[0]`. It returns `dest` every time. -/
theorem hiStrncpy_spec (source : Nat → UInt8) (hs : ∃ n, source n = 0) (len : Int) :
    (0 < len → ∃ rs, hiStrncpy source len = some (0,
      ⟨copiedBytes source 0 (min (len - 1).toNat (Nat.find hs)) ++
        [(min (len - 1).toNat (Nat.find hs), 0)], rs⟩) ∧
      ∀ r ∈ rs, r ≤ min (len - 1).toNat (Nat.find hs)) ∧
    (len = 0 → hiStrncpy source len = some (0, ⟨[], []⟩)) ∧
    (len < 0 → hiStrncpy source len = some (0, ⟨[(0, 0)], []⟩)) := by
  refine ⟨fun hlen => ?_, fun h => by rw [hiStrncpy, if_pos h], fun hlen => ?_⟩
  · obtain ⟨rs, hrun, hrs⟩ := strncpyLoop_spec source (min (len - 1).toNat (Nat.find hs))
      (len.toNat + 1) len 0 ⟨[], []⟩ (by omega)
      (fun j hj => by rw [Nat.zero_add]; exact Nat.find_min hs (by omega))
      (by
        rcases Nat.lt_or_ge (Nat.find hs) (len - 1).toNat with hl | hl
        · exact .inr ⟨by omega, by rw [Nat.zero_add, min_eq_right hl.le]; exact Nat.find_spec hs⟩
        · exact .inl (min_eq_left hl))
    refine ⟨rs, ?_, fun r hr => (hrs r hr).2.trans (by rw [Nat.zero_add])⟩
    rw [hiStrncpy, if_neg (by omega), hrun]
    simp
  · rw [hiStrncpy, if_neg (by omega), show len.toNat = 0 by omega, strncpyLoop, if_neg (by omega)]
    rfl

/-- The string `"aa"`, copied with `len = -1`. -/
theorem hiStrncpy_spec_negative :
    (0 < (-1 : Int) → ∃ rs, hiStrncpy (fun i => if i < 2 then 97 else 0) (-1) = some (0,
      ⟨copiedBytes (fun i => if i < 2 then 97 else 0) 0 (min (-1 - 1 : Int).toNat 2) ++
        [(min (-1 - 1 : Int).toNat 2, 0)], rs⟩) ∧ ∀ r ∈ rs, r ≤ min (-1 - 1 : Int).toNat 2) ∧
    ((-1 : Int) = 0 → hiStrncpy (fun i => if i < 2 then 97 else 0) (-1) = some (0, ⟨[], []⟩)) ∧
    ((-1 : Int) < 0 → hiStrncpy (fun i => if i < 2 then 97 else 0) (-1) = some (0, ⟨[(0, 0)], []⟩)) :=
  hiStrncpy_spec (fun i => if i < 2 then 97 else 0) ⟨2, rfl⟩ (-1)

example : hiStrncpy (fun i => if i < 2 then 97 else 0) 5 =
    some (0, ⟨[(0, 97), (1, 97), (2, 0)], [0, 0, 1, 1, 2]⟩) := by decide

end Hdf4
