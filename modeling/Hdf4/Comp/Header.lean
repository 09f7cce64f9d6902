import Hdf4.FileStore

/-!
# The compression header

A compressed element's special DD points at a descriptor block. `HCIwrite_header` fills it
from the element's `compinfo_t`; `HCIread_header` parses it back when an access starts,
and `HCIinit_model` / `HCIinit_coder` rebuild the model and coder records from what was
read. This file models the four functions of `hcomp.c` and proves that the reader returns
what the writer wrote:

* `compHeaderBytes` is the buffer `HCIwrite_header` builds (§4.E.1 of the spec);
* `hciReadHeader` reads it back through `HPseek` and `HPread`;
* `hciReadHeader_compHeaderBytes`: on a file that holds the descriptor of a well-formed
  record, the parse succeeds, stops right after the descriptor, and returns the record's
  fields and coder parameters; `hciInitCoder_reparse` turns those parameters back into the
  writer's coder record, `nt_size` included;
* `compHeaderBytes_setLength`: `HCPwrite`'s four-byte rewrite at offset 4 turns the
  descriptor of a record into the descriptor of the record with the new length.
-/

namespace Hdf4

/-! ## Codes and records -/

/-- `SPECIAL_COMP`, the special code of a compressed element. Modelled from the spec: the
code lives in `hdf.h` (absent); its value only has to differ from the other special codes. -/
def SPECIAL_COMP : Nat := 3

/-- `COMP_HEADER_VERSION`, the version `HCIwrite_header` writes first in the descriptor. -/
def COMP_HEADER_VERSION : Nat := 0
/-- `COMP_HEADER_LENGTH`: the fixed part of the descriptor. -/
def COMP_HEADER_LENGTH : Nat := 14
/-- `COMP_START_BLOCK`, the length `HCcreate` gives a new element. -/
def COMP_START_BLOCK : Int := 1

/-- `COMP_MODEL_STDIO`. Modelled from the spec: the `comp_model_t` enum of `hcomp.h` is
absent; the spec names one model. -/
def COMP_MODEL_STDIO : Nat := 0

/-- `COMP_CODE_NONE`. Modelled from the spec: the `comp_coder_t` enum of `hcomp.h` is
absent; the spec names the coders {NONE, RLE, NBIT, SKPHUFF}, numbered here in that order. -/
def COMP_CODE_NONE : Nat := 0
def COMP_CODE_RLE : Nat := 1
def COMP_CODE_NBIT : Nat := 2
def COMP_CODE_SKPHUFF : Nat := 3

/-- `comp_coder_nbit_info_t`: the N-bit parameters and the derived `nt_size`. -/
structure NbitInfo where
  nt : Int
  signExt : Int
  fillOne : Int
  maskOff : Int
  maskLen : Int
  ntSize : Int
deriving DecidableEq, Repr

/-- `comp_coder_info_t`: the coder type and the parameters of its coder (the members of the
`coder_info` union that carry parameters). -/
structure CoderInfo where
  coderType : Nat
  nbitInfo : NbitInfo
  skipSize : Int
deriving DecidableEq, Repr

/-- `comp_model_info_t`: the model's type, the one field the model record has here. -/
structure ModelInfo where
  modelType : Nat
deriving DecidableEq, Repr

/-- `compinfo_t`, the special information of a compressed element. -/
structure CompInfo where
  length : Int
  compRef : UInt16
  attached : Int
  minfo : ModelInfo
  cinfo : CoderInfo
deriving DecidableEq, Repr

/-- `comp_info`, the coder parameters a caller passes (the `nbit` and `skphuff` members). -/
structure CompParams where
  nt : Int
  signExt : Int
  fillOne : Int
  startBit : Int
  bitLen : Int
  skpSize : Int
deriving DecidableEq, Repr

instance : Inhabited NbitInfo := ⟨⟨0, 0, 0, 0, 0, 0⟩⟩
instance : Inhabited CoderInfo := ⟨⟨0, default, 0⟩⟩
instance : Inhabited CompInfo := ⟨⟨0, 0, 0, ⟨0⟩, default⟩⟩
instance : Inhabited CompParams := ⟨⟨0, 0, 0, 0, 0, 0⟩⟩

/-! ## `HCIinit_coder` and `HCIinit_model` -/

section Init

/- `DFKNTsize`, the size of a number type, from the number-type table of `dfknat.c`
(absent); `FAIL` for an unknown type. -/
variable (DFKNTsize : Int → Int)

/-- `HCIinit_coder`: set the coder type and copy the coder's parameters. The N-bit case
fills in every field, `nt_size` included, before it checks `nt_size`. -/
def hciInitCoder (cinfo : CoderInfo) (coder_type : Nat) (c_info : CompParams) :
    CoderInfo × Except Dfe Unit :=
  if coder_type = COMP_CODE_NONE then ({ cinfo with coderType := COMP_CODE_NONE }, .ok ())
  else if coder_type = COMP_CODE_RLE then ({ cinfo with coderType := COMP_CODE_RLE }, .ok ())
  else if coder_type = COMP_CODE_NBIT then
    let nbit : NbitInfo := ⟨c_info.nt, c_info.signExt, c_info.fillOne, c_info.startBit,
      c_info.bitLen, DFKNTsize c_info.nt⟩
    let cinfo := { cinfo with coderType := COMP_CODE_NBIT, nbitInfo := nbit }
    if nbit.ntSize = FAIL then (cinfo, .error .badNumType) else (cinfo, .ok ())
  else if coder_type = COMP_CODE_SKPHUFF then
    ({ cinfo with coderType := COMP_CODE_SKPHUFF, skipSize := c_info.skpSize }, .ok ())
  else (cinfo, .error .badCoder)

/-- `HCIinit_model`: the STDIO model sets the record's type; any other type is an error. -/
def hciInitModel (minfo : ModelInfo) (model_type : Nat) : ModelInfo × Except Dfe Unit :=
  if model_type = COMP_MODEL_STDIO then ({ modelType := COMP_MODEL_STDIO }, .ok ())
  else (minfo, .error .badModel)

end Init

/-! ## The descriptor `HCIwrite_header` writes -/

/-- The coder parameters `HCIwrite_header` appends after the fixed header. -/
def coderHeaderBytes (cinfo : CoderInfo) : List UInt8 :=
  if cinfo.coderType = COMP_CODE_NBIT then
    int32Encode cinfo.nbitInfo.nt ++ uint16Encode cinfo.nbitInfo.signExt ++
      uint16Encode cinfo.nbitInfo.fillOne ++ int32Encode cinfo.nbitInfo.maskOff ++
      int32Encode cinfo.nbitInfo.maskLen
  else if cinfo.coderType = COMP_CODE_SKPHUFF then
    uint32Encode cinfo.skipSize ++ uint32Encode cinfo.skipSize
  else []

/-- The fixed part of the descriptor: special code, version, length, `comp_ref`, model type
and coder type. -/
def compFixedBytes (info : CompInfo) : List UInt8 :=
  int16Encode SPECIAL_COMP ++ uint16Encode COMP_HEADER_VERSION ++ int32Encode info.length ++
    uint16Encode info.compRef.toNat ++ uint16Encode info.minfo.modelType ++
    uint16Encode info.cinfo.coderType

/-- The descriptor of a compressed element, as `HCIwrite_header` builds it in its buffer. -/
def compHeaderBytes (info : CompInfo) : List UInt8 :=
  compFixedBytes info ++ coderHeaderBytes info.cinfo

/-- The number of coder-parameter bytes a coder type carries. -/
def coderHeaderLength (coder_type : Nat) : Nat :=
  if coder_type = COMP_CODE_NBIT then 16 else if coder_type = COMP_CODE_SKPHUFF then 8 else 0

theorem length_coderHeaderBytes (cinfo : CoderInfo) :
    (coderHeaderBytes cinfo).length = coderHeaderLength cinfo.coderType := by
  unfold coderHeaderBytes coderHeaderLength
  split_ifs <;> simp [int32Encode, uint16Encode, uint32Encode]

theorem length_compFixedBytes (info : CompInfo) :
    (compFixedBytes info).length = COMP_HEADER_LENGTH := by
  simp [compFixedBytes, int16Encode, COMP_HEADER_LENGTH]

theorem length_compHeaderBytes (info : CompInfo) :
    (compHeaderBytes info).length = COMP_HEADER_LENGTH + coderHeaderLength info.cinfo.coderType := by
  rw [compHeaderBytes, List.length_append, length_compFixedBytes, length_coderHeaderBytes]

theorem length_compHeaderBytes_le (info : CompInfo) : (compHeaderBytes info).length ≤ 30 := by
  rw [length_compHeaderBytes, COMP_HEADER_LENGTH, coderHeaderLength]; split_ifs <;> omega

/-! ## `HCIread_header` -/

/-- Whether each file call of `HCIread_header` succeeds. -/
structure ReadHeaderOutcome where
  seek : Bool
  read : Bool
  readCoder : Bool

/-- `HCIread_header`: seek past the special code, read the fixed header, and read the coder
parameters of an N-bit or skipping-Huffman coder into `c_info`. The cursor `p` advances as
the `DECODE` macros advance it. The header version is read and not checked; the
skipping-Huffman "bytes compressed" word is read and ignored. -/
def hciReadHeader (f : FileRec) (info : CompInfo) (info_dd : DD) (c_info : CompParams)
    (o : ReadHeaderOutcome) : FileRec × CompInfo × CompParams × Except Dfe Unit :=
  if !o.seek then (f, info, c_info, .error .seekError) else
  let f := hpSeek f (wrap32 (info_dd.offset + 2))
  if !o.read then (f, info, c_info, .error .readError) else
  let (p, f) := hpRead f (COMP_HEADER_LENGTH - 2)
  let p := p.drop 2
  let length := int32Decode p
  let p := p.drop 4
  let comp_ref := uint16Decode p
  let p := p.drop 2
  let mtype := uint16Decode p
  let p := p.drop 2
  let ctype := uint16Decode p
  let info := { info with
    length := length
    compRef := UInt16.ofNat comp_ref
    minfo := { modelType := mtype }
    cinfo := { info.cinfo with coderType := ctype } }
  if ctype = COMP_CODE_NBIT then
    if !o.readCoder then (f, info, c_info, .error .readError) else
    let (p, f) := hpRead f 16
    let nt := int32Decode p
    let p := p.drop 4
    let s_ext := uint16Decode p
    let p := p.drop 2
    let f_one := uint16Decode p
    let p := p.drop 2
    let m_off := int32Decode p
    let p := p.drop 4
    let m_len := int32Decode p
    let c_info := { c_info with
      nt := nt, signExt := s_ext, fillOne := f_one, startBit := m_off, bitLen := m_len }
    (f, info, c_info, .ok ())
  else if ctype = COMP_CODE_SKPHUFF then
    if !o.readCoder then (f, info, c_info, .error .readError) else
    let (p, f) := hpRead f 8
    let skp_size := uint32Decode p
    (f, info, { c_info with skpSize := wrap32 skp_size }, .ok ())
  else (f, info, c_info, .ok ())

/-- Whatever its outcome, `HCIread_header` only moves the file position. -/
theorem hciReadHeader_sameDir (f : FileRec) (info : CompInfo) (info_dd : DD) (c_info : CompParams)
    (o : ReadHeaderOutcome) : f.SameDir (hciReadHeader f info info_dd c_info o).1 := by
  unfold hciReadHeader hpRead
  dsimp only
  split_ifs <;> exact ⟨rfl, rfl, rfl, rfl, rfl⟩

/-- `HCIread_header` moves only the file position. -/
theorem hciReadHeader_fst (f : FileRec) (info : CompInfo) (info_dd : DD) (c_info : CompParams)
    (o : ReadHeaderOutcome) : ∃ p, (hciReadHeader f info info_dd c_info o).1 = { f with fpos := p } := by
  unfold hciReadHeader hpRead hpSeek
  dsimp only
  split_ifs <;> exact ⟨_, rfl⟩

/-- A parse that succeeds is the parse in which every read succeeds. -/
theorem hciReadHeader_ok {f : FileRec} {info : CompInfo} {info_dd : DD} {c_info : CompParams}
    {o : ReadHeaderOutcome} (h : (hciReadHeader f info info_dd c_info o).2.2.2 = .ok ()) :
    hciReadHeader f info info_dd c_info o = hciReadHeader f info info_dd c_info ⟨true, true, true⟩ := by
  obtain ⟨_ | _, _ | _, _ | _⟩ := o <;> unfold hciReadHeader at h ⊢ <;> dsimp only at h ⊢ <;>
    split_ifs at h ⊢ <;> simp_all

/-! ## The reader returns what the writer wrote -/

/-- The N-bit parameters fit their descriptor fields, and `nt_size` is the table's. -/
structure NbitFits (DFKNTsize : Int → Int) (i : NbitInfo) : Prop where
  nt : IsInt32 i.nt
  signExt : 0 ≤ i.signExt ∧ i.signExt < 65536
  fillOne : 0 ≤ i.fillOne ∧ i.fillOne < 65536
  maskOff : IsInt32 i.maskOff
  maskLen : IsInt32 i.maskLen
  ntSize : i.ntSize = DFKNTsize i.nt

/-- A `compinfo_t` with the STDIO model, one of the four coders, and fields that fit the
descriptor fields `HCIwrite_header` writes them to. -/
structure HeaderWF (DFKNTsize : Int → Int) (info : CompInfo) : Prop where
  length : IsInt32 info.length
  model : info.minfo.modelType = COMP_MODEL_STDIO
  coder : info.cinfo.coderType < 4
  nbit : info.cinfo.coderType = COMP_CODE_NBIT → NbitFits DFKNTsize info.cinfo.nbitInfo
  skphuff : info.cinfo.coderType = COMP_CODE_SKPHUFF → IsInt32 info.cinfo.skipSize

/-- The coder records agree on the coder type and on every parameter of that coder. -/
def CoderInfo.Agree (a b : CoderInfo) : Prop :=
  a.coderType = b.coderType ∧ (a.coderType = COMP_CODE_NBIT → a.nbitInfo = b.nbitInfo) ∧
    (a.coderType = COMP_CODE_SKPHUFF → a.skipSize = b.skipSize)

/-- The records agree on every field the descriptor carries: length, `comp_ref`, model
type, coder type and the coder's parameters (with `nt_size`). -/
def CompInfo.Agree (a b : CompInfo) : Prop :=
  a.length = b.length ∧ a.compRef = b.compRef ∧ a.minfo = b.minfo ∧ a.cinfo.Agree b.cinfo

/-- `c` carries the parameters of the coder of `cinfo` under the names of `comp_info`. -/
def ParamsOf (cinfo : CoderInfo) (c : CompParams) : Prop :=
  (cinfo.coderType = COMP_CODE_NBIT → c.nt = cinfo.nbitInfo.nt ∧
    c.signExt = cinfo.nbitInfo.signExt ∧ c.fillOne = cinfo.nbitInfo.fillOne ∧
    c.startBit = cinfo.nbitInfo.maskOff ∧ c.bitLen = cinfo.nbitInfo.maskLen) ∧
  (cinfo.coderType = COMP_CODE_SKPHUFF → c.skpSize = cinfo.skipSize)

/-- Bytes `i` to `i + k` of a stored byte list are read back from position `pos + i`. -/
theorem FileRec.bytesAt_drop_take {f : FileRec} {pos : Nat} {bs : List UInt8}
    (h : f.bytesAt pos bs.length = bs) {i k : Nat} (hik : i + k ≤ bs.length) :
    f.bytesAt (pos + i) k = (bs.drop i).take k := by
  have hpt : ∀ j (hj : j < bs.length), f.disk (pos + j) = bs[j] := fun j hj => by
    have := congrArg (fun l => l[j]?) h
    simpa [FileRec.bytesAt, hj] using this
  apply List.ext_getElem
  · simp [FileRec.bytesAt]; omega
  · intro j h1 _
    simp only [FileRec.bytesAt, List.length_map, List.length_range] at h1
    simp [FileRec.bytesAt, List.getElem_take, List.getElem_drop, Nat.add_assoc,
      hpt (i + j) (by omega)]

/-- On a file that holds the descriptor of a well-formed record, `HCIread_header` succeeds,
stops right after the descriptor (it consumes the `length - 2` bytes after the special
code), and returns the record's length, `comp_ref`, model and coder types, and coder
parameters, whatever the records it fills held before. -/
theorem hciReadHeader_compHeaderBytes (DFKNTsize : Int → Int) {f : FileRec} {info : CompInfo}
    {dd : DD} (hwf : HeaderWF DFKNTsize info) (h0 : 0 ≤ dd.offset)
    (hfit : dd.offset + 2 ≤ 2147483647)
    (hdisk : f.bytesAt dd.offset.toNat (compHeaderBytes info).length = compHeaderBytes info)
    (info0 : CompInfo) (c0 : CompParams) :
    ∃ f' info' c', hciReadHeader f info0 dd c0 ⟨true, true, true⟩ = (f', info', c', .ok ()) ∧
      f'.fpos = dd.offset.toNat + (compHeaderBytes info).length ∧
      info'.length = info.length ∧ info'.compRef = info.compRef ∧ info'.minfo = info.minfo ∧
      info'.cinfo.coderType = info.cinfo.coderType ∧ ParamsOf info.cinfo c' := by
  have hlen := length_compHeaderBytes info
  have hoff : (wrap32 (dd.offset + 2)).toNat = dd.offset.toNat + 2 := by
    rw [wrap32_of_isInt32 ⟨by omega, hfit⟩]; omega
  -- the two reads see the fixed header after the special code, then the coder parameters
  have hfixed := FileRec.bytesAt_drop_take hdisk (show 2 + 12 ≤ _ by rw [hlen]; simp [COMP_HEADER_LENGTH])
  have hcoder := FileRec.bytesAt_drop_take hdisk
    (show 14 + coderHeaderLength info.cinfo.coderType ≤ _ by rw [hlen]; rfl)
  rw [compHeaderBytes, List.drop_append_of_le_length (by simp [length_compFixedBytes, COMP_HEADER_LENGTH]),
    List.take_append_of_le_length (by simp [length_compFixedBytes, COMP_HEADER_LENGTH])] at hfixed
  rw [compHeaderBytes, List.drop_left' (by rw [length_compFixedBytes]; rfl),
    List.take_of_length_le (by rw [length_coderHeaderBytes])] at hcoder
  simp only [FileRec.bytesAt] at hfixed hcoder
  simp only [compFixedBytes, int16Encode, List.append_assoc, drop_beEncode_append] at hfixed
  rw [List.take_of_length_le (by simp)] at hfixed
  have hm : info.minfo.modelType < 65536 := by rw [hwf.model]; decide
  have hc : info.cinfo.coderType < 65536 := by have := hwf.coder; omega
  simp only [hciReadHeader, Bool.not_true, Bool.false_eq_true, ite_false, hpSeek, hpRead, hoff,
    FileRec.bytesAt, show COMP_HEADER_LENGTH - 2 = 12 from rfl, hfixed, List.append_assoc,
    drop_uint16Encode, drop_int32Encode, int32Decode_int32Encode hwf.length,
    uint16Decode_uint16Encode_nat hm, uint16Decode_uint16Encode_nat hc,
    uint16Decode_uint16Encode_nat (toNat_lt_65536 _), uint16Decode_uint16Encode_self hc]
  replace hcoder : (List.range (coderHeaderLength info.cinfo.coderType)).map
      (fun i => f.disk (dd.offset.toNat + 2 + 12 + i)) = coderHeaderBytes info.cinfo := hcoder
  have hfpos : ∀ k, dd.offset.toNat + 2 + 12 + k = dd.offset.toNat + (compHeaderBytes info).length ↔
      k = coderHeaderLength info.cinfo.coderType := by
    intro k; rw [hlen, COMP_HEADER_LENGTH]; omega
  by_cases hN : info.cinfo.coderType = COMP_CODE_NBIT
  · have hn := hwf.nbit hN
    rw [hN] at hcoder hfpos
    simp only [coderHeaderLength, coderHeaderBytes, hN, if_true, List.append_assoc] at hcoder hfpos
    rw [if_pos hN, hcoder]
    refine ⟨_, _, _, rfl, (hfpos 16).mpr rfl, rfl, uint16_ofNat_toNat _, rfl, rfl, ?_⟩
    simp only [ParamsOf, hN, drop_int32Encode, drop_uint16Encode, int32Decode_int32Encode hn.nt,
      uint16Decode_uint16Encode hn.signExt.1 hn.signExt.2,
      uint16Decode_uint16Encode hn.fillOne.1 hn.fillOne.2, int32Decode_int32Encode hn.maskOff,
      int32Decode_int32Encode_self hn.maskLen]
    simp [COMP_CODE_NBIT, COMP_CODE_SKPHUFF]
  rw [if_neg hN]
  by_cases hS : info.cinfo.coderType = COMP_CODE_SKPHUFF
  · rw [hS] at hcoder hfpos
    simp only [coderHeaderLength, coderHeaderBytes, hS, if_true, List.append_assoc,
      show COMP_CODE_SKPHUFF ≠ COMP_CODE_NBIT by decide, if_false] at hcoder hfpos
    rw [if_pos hS, hcoder]
    refine ⟨_, _, _, rfl, (hfpos 8).mpr rfl, rfl, uint16_ofNat_toNat _, rfl, rfl, ?_⟩
    have hs := hwf.skphuff hS
    refine ⟨fun h => absurd (h.symm.trans hS) (by decide), fun _ => ?_⟩
    show wrap32 (uint32Decode (uint32Encode _ ++ uint32Encode _) : Int) = _
    rw [uint32Decode_uint32Encode]
    unfold wrap32; unfold IsInt32 at hs; omega
  · rw [if_neg hS]
    refine ⟨_, _, _, rfl, (hfpos 0).mpr ?_, rfl, uint16_ofNat_toNat _, rfl, rfl, ?_⟩
    · simp [coderHeaderLength, hN, hS]
    · exact ⟨fun h => absurd h hN, fun h => absurd h hS⟩

/-- `HCIinit_coder` on the parameters read back rebuilds the writer's coder record, `nt_size`
included, whatever the record held before. -/
theorem hciInitCoder_reparse (DFKNTsize : Int → Int) {info : CompInfo} {c : CompParams}
    (hwf : HeaderWF DFKNTsize info) (hp : ParamsOf info.cinfo c) (cinfo0 : CoderInfo) :
    (hciInitCoder DFKNTsize cinfo0 info.cinfo.coderType c).1.Agree info.cinfo := by
  obtain h | h | h | h : info.cinfo.coderType = COMP_CODE_NONE ∨
      info.cinfo.coderType = COMP_CODE_RLE ∨ info.cinfo.coderType = COMP_CODE_NBIT ∨
      info.cinfo.coderType = COMP_CODE_SKPHUFF := by
    have := hwf.coder; unfold COMP_CODE_NONE COMP_CODE_RLE COMP_CODE_NBIT COMP_CODE_SKPHUFF; omega
  all_goals simp only [hciInitCoder, CoderInfo.Agree, h]
  · simp [COMP_CODE_NONE, COMP_CODE_NBIT, COMP_CODE_SKPHUFF]
  · simp [COMP_CODE_NONE, COMP_CODE_RLE, COMP_CODE_NBIT, COMP_CODE_SKPHUFF]
  · obtain ⟨h1, h2, h3, h4, h5⟩ := hp.1 h
    have hn := (hwf.nbit h).ntSize
    simp [h1, h2, h3, h4, h5, ← hn, apply_ite Prod.fst, COMP_CODE_NONE, COMP_CODE_RLE,
      COMP_CODE_NBIT, COMP_CODE_SKPHUFF]
  · simp [hp.2 h, COMP_CODE_NONE, COMP_CODE_RLE, COMP_CODE_NBIT, COMP_CODE_SKPHUFF]

/-- The parameters a caller passes fit the descriptor fields of coder `coder_type`: the N-bit
`nt`, `start_bit` and `bit_len` and the skipping-Huffman `skp_size` in 32 bits, `sign_ext` and
`fill_one` in 16. -/
structure ParamsFit (coder_type : Nat) (c : CompParams) : Prop where
  nbit : coder_type = COMP_CODE_NBIT → IsInt32 c.nt ∧ (0 ≤ c.signExt ∧ c.signExt < 65536) ∧
    (0 ≤ c.fillOne ∧ c.fillOne < 65536) ∧ IsInt32 c.startBit ∧ IsInt32 c.bitLen
  skphuff : coder_type = COMP_CODE_SKPHUFF → IsInt32 c.skpSize

/-- `HCIinit_coder` of one of the four coders, on parameters that fit, builds a coder record
whose fields fit the descriptor. -/
theorem hciInitCoder_fits (DFKNTsize : Int → Int) {coder_type : Nat} {c : CompParams}
    (hc : coder_type < 4) (hp : ParamsFit coder_type c) (cinfo0 : CoderInfo) :
    (hciInitCoder DFKNTsize cinfo0 coder_type c).1.coderType = coder_type ∧
      (coder_type = COMP_CODE_NBIT →
        NbitFits DFKNTsize (hciInitCoder DFKNTsize cinfo0 coder_type c).1.nbitInfo) ∧
      (coder_type = COMP_CODE_SKPHUFF →
        IsInt32 (hciInitCoder DFKNTsize cinfo0 coder_type c).1.skipSize) := by
  obtain rfl | rfl | rfl | rfl : coder_type = COMP_CODE_NONE ∨ coder_type = COMP_CODE_RLE ∨
      coder_type = COMP_CODE_NBIT ∨ coder_type = COMP_CODE_SKPHUFF := by
    unfold COMP_CODE_NONE COMP_CODE_RLE COMP_CODE_NBIT COMP_CODE_SKPHUFF; omega
  · simp [hciInitCoder, COMP_CODE_NONE, COMP_CODE_NBIT, COMP_CODE_SKPHUFF]
  · simp [hciInitCoder, COMP_CODE_NONE, COMP_CODE_RLE, COMP_CODE_NBIT, COMP_CODE_SKPHUFF]
  · obtain ⟨h1, h2, h3, h4, h5⟩ := hp.nbit rfl
    simp only [hciInitCoder, apply_ite Prod.fst, ite_self, if_neg (by decide : COMP_CODE_NBIT ≠ 0),
      if_neg (by decide : COMP_CODE_NBIT ≠ 1)]
    exact ⟨rfl, fun _ => ⟨h1, h2, h3, h4, h5, rfl⟩, fun h => absurd h (by decide)⟩
  · simp [hciInitCoder, hp.skphuff rfl, COMP_CODE_NONE, COMP_CODE_RLE, COMP_CODE_NBIT,
      COMP_CODE_SKPHUFF]

/-- `HCIinit_model` on the model type read back rebuilds the writer's model record. -/
theorem hciInitModel_reparse {info : CompInfo} (hwf : HeaderWF DFKNTsize info) (minfo0 : ModelInfo) :
    (hciInitModel minfo0 info.minfo.modelType).1 = info.minfo := by
  rw [hwf.model, hciInitModel, if_pos rfl]
  exact congrArg ModelInfo.mk hwf.model.symm

/-- `HCIinit_model` and `HCIinit_coder` succeed on what `HCIread_header` parses from the
descriptor of a well-formed record, once an N-bit coder's number type has a size. -/
theorem hciInit_ok {DFKNTsize : Int → Int} {info info' : CompInfo} {c : CompParams} (hwf : HeaderWF DFKNTsize info)
    (hm : info'.minfo = info.minfo) (hc : info'.cinfo.coderType = info.cinfo.coderType)
    (hp : ParamsOf info.cinfo c)
    (hnt : info.cinfo.coderType = COMP_CODE_NBIT → info.cinfo.nbitInfo.ntSize ≠ FAIL)
    (m0 : ModelInfo) (c0 : CoderInfo) :
    (hciInitModel m0 info'.minfo.modelType).2 = .ok () ∧
      (hciInitCoder DFKNTsize c0 info'.cinfo.coderType c).2 = .ok () := by
  refine ⟨by simp [hciInitModel, hm, hwf.model], ?_⟩
  rw [hc]
  obtain h | h | h | h : info.cinfo.coderType = COMP_CODE_NONE ∨
      info.cinfo.coderType = COMP_CODE_RLE ∨ info.cinfo.coderType = COMP_CODE_NBIT ∨
      info.cinfo.coderType = COMP_CODE_SKPHUFF := by
    have := hwf.coder; unfold COMP_CODE_NONE COMP_CODE_RLE COMP_CODE_NBIT COMP_CODE_SKPHUFF; omega
  all_goals rw [h]
  · rfl
  · rfl
  · have hs : DFKNTsize c.nt ≠ FAIL := by
      rw [(hp.1 h).1, ← (hwf.nbit h).ntSize]; exact hnt h
    simp [hciInitCoder, hs, COMP_CODE_NONE, COMP_CODE_RLE, COMP_CODE_NBIT]
  · rfl

/-- What `HCIread_header` parses from the descriptor of a well-formed record, run through
`HCIinit_model` and `HCIinit_coder`, agrees with the record. -/
theorem hciInit_agree {DFKNTsize : Int → Int} {info info' : CompInfo} {c : CompParams}
    (hwf : HeaderWF DFKNTsize info) (hl : info'.length = info.length)
    (hr : info'.compRef = info.compRef) (hm : info'.minfo = info.minfo)
    (hc : info'.cinfo.coderType = info.cinfo.coderType) (hp : ParamsOf info.cinfo c) :
    CompInfo.Agree
      { info' with minfo := (hciInitModel info'.minfo info'.minfo.modelType).1
                   cinfo := (hciInitCoder DFKNTsize info'.cinfo info'.cinfo.coderType c).1 } info :=
  ⟨hl, hr, by rw [hm]; exact hciInitModel_reparse hwf _,
    by rw [hc]; exact hciInitCoder_reparse DFKNTsize hwf hp _⟩

/-- `HCPwrite`'s rewrite of the four bytes at offset 4 turns the descriptor of a record into
the descriptor of the same record with the new length: it changes the length field only. -/
theorem compHeaderBytes_setLength (info : CompInfo) (n : Int) :
    (compHeaderBytes info).take 4 ++ int32Encode n ++ (compHeaderBytes info).drop 8 =
      compHeaderBytes { info with length := n } := by
  simp [compHeaderBytes, compFixedBytes, int16Encode, List.take_append_eq_append_take,
    List.drop_append_eq_append_drop, List.take_of_length_le, List.drop_eq_nil_of_le]

/-- Records that agree have the same descriptor. -/
theorem CompInfo.Agree.compHeaderBytes_eq {a b : CompInfo} (h : a.Agree b) :
    compHeaderBytes a = compHeaderBytes b := by
  obtain ⟨hl, hc, hm, hct, hn, hs⟩ := h
  simp only [compHeaderBytes, compFixedBytes, coderHeaderBytes, hl, hc, hm, hct]
  split_ifs with h1 h2
  · rw [hn (hct.trans h1)]
  · rw [hs (hct.trans h2)]
  · rfl

/-- A record that agrees with one fit for the descriptor is fit for it. -/
theorem CompInfo.Agree.headerWF {DFKNTsize : Int → Int} {a b : CompInfo} (h : a.Agree b)
    (hw : HeaderWF DFKNTsize b) : HeaderWF DFKNTsize a := by
  obtain ⟨hl, -, hm, hct, hn, hs⟩ := h
  refine ⟨by rw [hl]; exact hw.length, by rw [hm]; exact hw.model, by rw [hct]; exact hw.coder,
    fun h => ?_, fun h => ?_⟩
  · rw [hn h]; exact hw.nbit (hct ▸ h)
  · rw [hs h]; exact hw.skphuff (hct ▸ h)

end Hdf4
