import Mathlib

/-!
# Machine words, byte encodings and tags of the HDF core

The compression layer keeps positions, lengths and offsets in C `int32`, tags and refs in
`uint16`, and writes its descriptors with the big-endian `INT16ENCODE`, `UINT16ENCODE`,
`INT32ENCODE` and `UINT32ENCODE` macros of `hdfi.h`. That header is not among the sources,
so its macros are modelled from the spec (§4.A: big-endian, explicit width), and so are
the tag macros of `htags.h` (§3: the high bit of a tag marks a special element).

* `wrap32` is the two's-complement reduction every `int32` sum of the code goes through;
  `IsInt32` is the range of the C type; `wrapU32` is the reduction of `uint32` arithmetic.
* `beEncode` / `beDecode` are the width-`w` big-endian codec, with the round trips
  `uint16Decode_uint16Encode` and `int32Decode_int32Encode`.
* `SPECIALTAG`, `MKSPECIALTAG` and `BASETAG`, with `toNat` characterisations that turn
  every tag fact the store needs into `omega`.
-/

namespace Hdf4

/-! ## `int32` arithmetic -/

/-- The value a C `int32` computation wraps to (two's complement). -/
def wrap32 (x : Int) : Int := (x + 2147483648) % 4294967296 - 2147483648

/-- `x` is a value of the C type `int32`. -/
def IsInt32 (x : Int) : Prop := -2147483648 ≤ x ∧ x ≤ 2147483647

instance (x : Int) : Decidable (IsInt32 x) := inferInstanceAs (Decidable (_ ∧ _))

theorem wrap32_of_isInt32 {x : Int} (h : IsInt32 x) : wrap32 x = x := by
  unfold wrap32; unfold IsInt32 at h; omega

theorem isInt32_wrap32 (x : Int) : IsInt32 (wrap32 x) := by
  unfold wrap32 IsInt32; omega

/-- A sum of two `int32` values that leaves the range wraps to the other side: the sum
of two non-negative values wraps to a negative one. -/
theorem wrap32_add_neg {x y : Int} (hx : 0 ≤ x) (hy : 0 ≤ y) (hx' : x ≤ 2147483647)
    (hy' : y ≤ 2147483647) (h : 2147483647 < x + y) : wrap32 (x + y) = x + y - 4294967296 := by
  unfold wrap32; omega

/-! ## `uint32` arithmetic -/

/-- The value a C `uint32` computation wraps to. -/
def wrapU32 (x : Nat) : Nat := x % 4294967296

theorem wrapU32_of_lt {x : Nat} (h : x < 4294967296) : wrapU32 x = x := Nat.mod_eq_of_lt h

/-! ## Return values and error codes -/

/-- What the library's functions return: `SUCCEED`, or `FAIL` after pushing an error code. -/
def SUCCEED : Int := 0
def FAIL : Int := -1

/-- The `DFE_*` error codes `hcomp.c` pushes with `HRETURN_ERROR`. -/
inductive Dfe
  | args | denied | tooMany | cantMod | noFreeDD | noSpace | internal
  | writeError | readError | seekError | cantUpdate | cantHash | cantDelDD | cantDelHash
  | model | compInfo | mInit | cInit | badNumType | badCoder | badModel | range
deriving DecidableEq, Repr

/-! ## Big-endian byte encoding -/

/-- The `w` low bytes of `x`, most significant first. -/
def beBytes : Nat → Nat → List UInt8
  | 0, _ => []
  | w + 1, x => beBytes w (x / 256) ++ [UInt8.ofNat (x % 256)]

/-- The number a list of bytes spells, most significant first. -/
def beVal (bs : List UInt8) : Nat := bs.foldl (fun acc b => acc * 256 + b.toNat) 0

@[simp] theorem length_beBytes (w x : Nat) : (beBytes w x).length = w := by
  induction w generalizing x with
  | zero => rfl
  | succ w ih => simp [beBytes, ih]

theorem beVal_append_single (bs : List UInt8) (b : UInt8) :
    beVal (bs ++ [b]) = beVal bs * 256 + b.toNat := by
  simp [beVal, List.foldl_append]

theorem beVal_beBytes (w x : Nat) : beVal (beBytes w x) = x % 256 ^ w := by
  induction w generalizing x with
  | zero => simp [beBytes, beVal, Nat.mod_one]
  | succ w ih =>
    have hb : (UInt8.ofNat (x % 256)).toNat = x % 256 := by
      simp [UInt8.ofNat, UInt8.toNat]
    rw [beBytes, beVal_append_single, ih, hb, pow_succ, Nat.mul_comm (256 ^ w), Nat.mod_mul]
    omega

/-- `INT16ENCODE`, `UINT16ENCODE`, `INT32ENCODE`, `UINT32ENCODE`: the `w` bytes of the C
value `x` taken as an unsigned `w`-byte word, most significant first. -/
def beEncode (w : Nat) (x : Int) : List UInt8 := beBytes w (x % (256 ^ w : Nat)).toNat

/-- `UINT16DECODE`, `UINT32DECODE`: the unsigned word spelt by the first `w` bytes. -/
def beDecode (w : Nat) (bs : List UInt8) : Nat := beVal (bs.take w)

def int16Encode : Int → List UInt8 := beEncode 2
def uint16Encode : Int → List UInt8 := beEncode 2
def int32Encode : Int → List UInt8 := beEncode 4
def uint32Encode : Int → List UInt8 := beEncode 4

def uint16Decode : List UInt8 → Nat := beDecode 2
def uint32Decode : List UInt8 → Nat := beDecode 4
/-- `INT32DECODE`: the first four bytes read as a two's-complement `int32`. -/
def int32Decode (bs : List UInt8) : Int := wrap32 (beDecode 4 bs)

@[simp] theorem length_beEncode (w : Nat) (x : Int) : (beEncode w x).length = w :=
  length_beBytes _ _

@[simp] theorem drop_beEncode_append (w : Nat) (x : Int) (rest : List UInt8) :
    (beEncode w x ++ rest).drop w = rest :=
  List.drop_left' (length_beEncode w x)

theorem beDecode_beEncode (w : Nat) (x : Int) (rest : List UInt8) :
    beDecode w (beEncode w x ++ rest) = (x % (256 ^ w : Nat)).toNat := by
  have hpos : (0 : Int) < (256 ^ w : Nat) := by positivity
  have hlt : (x % (256 ^ w : Nat)).toNat < 256 ^ w := by
    have := Int.emod_lt_of_pos x hpos
    omega
  rw [beDecode, beEncode, List.take_left' (length_beBytes _ _), beVal_beBytes,
    Nat.mod_eq_of_lt hlt]

@[simp] theorem length_uint16Encode (x : Int) : (uint16Encode x).length = 2 := length_beBytes _ _
@[simp] theorem length_int32Encode (x : Int) : (int32Encode x).length = 4 := length_beBytes _ _
@[simp] theorem length_uint32Encode (x : Int) : (uint32Encode x).length = 4 := length_beBytes _ _

@[simp] theorem drop_uint16Encode (x : Int) (rest : List UInt8) :
    (uint16Encode x ++ rest).drop 2 = rest := drop_beEncode_append 2 x rest
@[simp] theorem drop_int32Encode (x : Int) (rest : List UInt8) :
    (int32Encode x ++ rest).drop 4 = rest := drop_beEncode_append 4 x rest

theorem uint16Decode_uint16Encode {x : Int} (h0 : 0 ≤ x) (h1 : x < 65536) (rest : List UInt8) :
    (uint16Decode (uint16Encode x ++ rest) : Int) = x := by
  rw [uint16Decode, uint16Encode, beDecode_beEncode]
  norm_num; omega

theorem uint16Decode_uint16Encode_nat {m : Nat} (h : m < 65536) (rest : List UInt8) :
    uint16Decode (uint16Encode m ++ rest) = m := by
  have := uint16Decode_uint16Encode (show (0 : Int) ≤ m by omega) (by omega) rest
  omega

theorem uint16Decode_uint16Encode_self {m : Nat} (h : m < 65536) :
    uint16Decode (uint16Encode m) = m := by
  simpa using uint16Decode_uint16Encode_nat h []

theorem uint32Decode_uint32Encode (x : Int) (rest : List UInt8) :
    (uint32Decode (uint32Encode x ++ rest) : Int) = x % 4294967296 := by
  rw [uint32Decode, uint32Encode, beDecode_beEncode]
  norm_num; omega

theorem int32Decode_int32Encode {x : Int} (h : IsInt32 x) (rest : List UInt8) :
    int32Decode (int32Encode x ++ rest) = x := by
  rw [int32Decode, int32Encode, beDecode_beEncode]
  unfold wrap32; unfold IsInt32 at h; norm_num; omega

theorem int32Decode_int32Encode_self {x : Int} (h : IsInt32 x) : int32Decode (int32Encode x) = x := by
  simpa using int32Decode_int32Encode h []

/-- The decoders read the first `w` bytes only. -/
theorem beDecode_append {w : Nat} {bs : List UInt8} (h : w ≤ bs.length) (rest : List UInt8) :
    beDecode w (bs ++ rest) = beDecode w bs := by
  rw [beDecode, beDecode, List.take_append_of_le_length h]

/-! ## Tags -/

/-- `DFTAG_NULL`: the tag of a free DD slot. -/
def DFTAG_NULL : UInt16 := 0
/-- `DFTAG_COMPRESSED`: the tag of the backing element holding compressed bytes. -/
def DFTAG_COMPRESSED : UInt16 := 40
/-- `DFREF_WILDCARD`: the ref that matches any ref in a lookup (spec §4.B). -/
def DFREF_WILDCARD : UInt16 := 0xFFFF

/-- Modelled from the spec: `SPECIALTAG` of `htags.h` (absent); a tag is special when its
high bit is set. -/
def SPECIALTAG (t : UInt16) : Bool := 0x8000 ≤ t

/-- Modelled from the spec: `MKSPECIALTAG` of `htags.h` (absent) sets the high bit. -/
def MKSPECIALTAG (t : UInt16) : UInt16 := t ||| 0x8000

/-- Modelled from the spec: `BASETAG` of `htags.h` (absent) clears the high bit. -/
def BASETAG (t : UInt16) : UInt16 := t &&& 0x7FFF

theorem uint16_le_iff (a b : UInt16) : a ≤ b ↔ a.toNat ≤ b.toNat := Iff.rfl
theorem uint16_lt_iff (a b : UInt16) : a < b ↔ a.toNat < b.toNat := Iff.rfl
theorem uint16_eq_iff (a b : UInt16) : a = b ↔ a.toNat = b.toNat :=
  ⟨congrArg _, UInt16.toNat.inj⟩

/-- Setting bit 15 of a number below `2^15` adds `2^15`. -/
theorem or_32768_of_lt {n : Nat} (h : n < 32768) : n ||| 32768 = n + 32768 := by
  apply Nat.eq_of_testBit_eq
  intro j
  have h15 : (32768 : Nat) = 2 ^ 15 := by norm_num
  rw [Nat.testBit_or, h15, Nat.testBit_two_pow, Nat.add_comm]
  rcases Nat.lt_trichotomy j 15 with hj | rfl | hj
  · rw [Nat.testBit_two_pow_add_gt hj]; simp [hj.ne']
  · rw [Nat.testBit_two_pow_add_eq, Nat.testBit_eq_false_of_lt (by omega)]; simp
  · have hlt : 2 ^ 15 + n < 2 ^ j :=
      lt_of_lt_of_le (by omega) (Nat.pow_le_pow_right (by norm_num) hj)
    rw [Nat.testBit_eq_false_of_lt hlt, Nat.testBit_eq_false_of_lt (by omega)]; simp [hj.ne]

/-- Setting bit 15 of a 16-bit number that has it already changes nothing. -/
theorem or_32768_of_ge {n : Nat} (h : 32768 ≤ n) (h' : n < 65536) : n ||| 32768 = n := by
  obtain ⟨m, rfl⟩ : ∃ m, n = m + 32768 := ⟨n - 32768, by omega⟩
  rw [← or_32768_of_lt (show m < 32768 by omega), Nat.or_assoc, Nat.or_self]

theorem toNat_lt_65536 (t : UInt16) : t.toNat < 65536 := t.toNat_lt_size

theorem toNat_add_one_of_lt {x : UInt16} (h : x < 0xFFFF) : (x + 1).toNat = x.toNat + 1 := by
  rw [uint16_lt_iff, show (0xFFFF : UInt16).toNat = 65535 from rfl] at h
  rw [UInt16.toNat_add, show (1 : UInt16).toNat = 1 from rfl]
  exact Nat.mod_eq_of_lt (by simp [UInt16.size]; omega)

@[simp] theorem uint16_ofNat_toNat (t : UInt16) : UInt16.ofNat t.toNat = t :=
  UInt16.toNat.inj (UInt16.toNat_ofNat_of_lt t.toNat_lt_size)

theorem toNat_MKSPECIALTAG (t : UInt16) :
    (MKSPECIALTAG t).toNat = if t.toNat < 32768 then t.toNat + 32768 else t.toNat := by
  have h : (MKSPECIALTAG t).toNat = t.toNat ||| 32768 := by
    show (t.toBitVec ||| _).toNat = _
    simp [BitVec.toNat_or]; rfl
  split_ifs with ht
  · rw [h, or_32768_of_lt ht]
  · rw [h, or_32768_of_ge (by omega) (toNat_lt_65536 t)]

theorem SPECIALTAG_iff (t : UInt16) : SPECIALTAG t = true ↔ 32768 ≤ t.toNat := by
  simp [SPECIALTAG, uint16_le_iff, UInt16.size]

theorem toNat_BASETAG (t : UInt16) : (BASETAG t).toNat = t.toNat % 32768 := by
  rw [BASETAG, UInt16.and_toNat]
  exact Nat.and_pow_two_sub_one_eq_mod _ 15

theorem SPECIALTAG_MKSPECIALTAG (t : UInt16) : SPECIALTAG (MKSPECIALTAG t) = true := by
  rw [SPECIALTAG_iff, toNat_MKSPECIALTAG]; split_ifs <;> omega

theorem MKSPECIALTAG_ne_null (t : UInt16) : MKSPECIALTAG t ≠ DFTAG_NULL := by
  rw [Ne, uint16_eq_iff, toNat_MKSPECIALTAG, show DFTAG_NULL.toNat = 0 from rfl]
  split_ifs
  · simp
  · omega

theorem BASETAG_MKSPECIALTAG (t : UInt16) : BASETAG (MKSPECIALTAG t) = BASETAG t := by
  rw [uint16_eq_iff, toNat_BASETAG, toNat_BASETAG, toNat_MKSPECIALTAG]; split_ifs <;> omega

theorem BASETAG_of_not_special {t : UInt16} (h : SPECIALTAG t = false) : BASETAG t = t := by
  have := (SPECIALTAG_iff t).not.mp (by simp [h])
  rw [uint16_eq_iff, toNat_BASETAG]; omega

theorem MKSPECIALTAG_ne_self {t : UInt16} (h : SPECIALTAG t = false) : MKSPECIALTAG t ≠ t := by
  have := (SPECIALTAG_iff t).not.mp (by simp [h])
  rw [Ne, uint16_eq_iff, toNat_MKSPECIALTAG]; split_ifs <;> omega

theorem MKSPECIALTAG_ne_compressed (t : UInt16) : MKSPECIALTAG t ≠ DFTAG_COMPRESSED := fun h => by
  have := SPECIALTAG_MKSPECIALTAG t
  rw [h] at this; exact absurd this (by decide)

/-- A tag with the base of a regular tag `t` is `t` itself or its special version. -/
theorem eq_of_BASETAG_eq {t t' : UInt16} (h : SPECIALTAG t = false) (h' : BASETAG t' = t) :
    t' = t ∨ t' = MKSPECIALTAG t := by
  have ht := (SPECIALTAG_iff t).not.mp (by simp [h])
  rw [uint16_eq_iff, toNat_BASETAG] at h'
  have := toNat_lt_65536 t'
  rw [uint16_eq_iff, uint16_eq_iff, toNat_MKSPECIALTAG]
  split_ifs <;> omega

end Hdf4
