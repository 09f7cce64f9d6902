import Hdf4.Comp.Header

/-!
# Seeking, reading and writing a compressed element

`HCPseek`, `HCPread` and `HCPwrite` keep the position of an access record and the length of
its element; the bytes go to the modeling layer (`mstdio.c` and the coders, absent). A call
of the model is taken as an outcome, success or failure, and touches none of the state
modelled here. Every `int32` sum of the code is wrapped with `wrap32`.

* `hcpSeek`, `hcpRead`, `hcpWrite`, `hcpInquire` and `hcpInfo` are the five functions;
  `hcpRun` runs a list of seek, read and write calls that all succeed;
* `DescOK` says that the file holds the record's descriptor; `DescOK.hcpRun` keeps it over
  every run, the length rewrite of `HCPwrite` included (`bytesAt_lengthRewrite`), and
  `DescOK.reparses` reads it back as `HCIstaccess` does, its checks of `HCIinit_model` and
  `HCIinit_coder` included, once an N-bit coder's number type has a size;
* `hcpSeek_exact`: a seek that succeeds lands on the exact, non-negative target;
* `hcp_posn_overflow`: the range check of `HCPread` and the position update of `HCPwrite` are
  `int32` sums, and a length near `2^31` wraps them;
* `hcpCall_fail`: what a failed call leaves behind.
-/

namespace Hdf4

/-! ## Access records -/

/-- The seek origins `DF_START`, `DF_CURRENT` and `DF_END`. Modelled from the spec: the origins
of `hdf.h` (absent), start, current and end in that order. -/
def DF_START : Int := 0
def DF_CURRENT : Int := 1
def DF_END : Int := 2

/-- The access bits `DFACC_READ` and `DFACC_WRITE`, and `DFACC_RDWR` for both. Modelled from the
spec: the access bits of `hdf.h` (absent). -/
def DFACC_READ : Nat := 1
def DFACC_WRITE : Nat := 2
def DFACC_RDWR : Nat := 3

/-- The part of an access record `accrec_t` the compression layer uses. -/
structure AccRec where
  used : Bool
  fileId : Int
  /-- `block` and `idx`: the slot of the element's DD. -/
  loc : Loc
  posn : Int
  access : Nat
  special : Nat
  appendable : Bool
  flush : Bool
  /-- `special_info`: the element's `compinfo_t`. -/
  info : CompInfo

instance : Inhabited AccRec := ⟨⟨false, 0, ⟨0, 0⟩, 0, 0, 0, false, false, default⟩⟩

/-! ## The five functions -/

/-- The target of `HCPseek`: `offset` moved by the origin ("adjust offset according to
origin"). -/
def seekTarget (a : AccRec) (offset origin : Int) : Int :=
  let offset := if origin = DF_CURRENT then wrap32 (offset + a.posn) else offset
  if origin = DF_END then wrap32 (offset + a.info.length) else offset

/-- `HCPseek`: the target must not be negative. The model's `seek` returns `ret`, which is
`FAIL` or what `HCPseek` returns. -/
def hcpSeek (a : AccRec) (offset origin ret : Int) : AccRec × Except Dfe Int :=
  let offset := seekTarget a offset origin
  if offset < 0 then (a, .error .range)
  else if ret = FAIL then (a, .error .model)
  else ({ a with posn := offset }, .ok ret)

/-- `HCPread`: a length of `0` reads to the end of the element; any other length must keep
`posn + length` within the length. The model is asked for the count `HCPread` returns. -/
def hcpRead (a : AccRec) (length : Int) (model : Bool) : AccRec × Except Dfe Int :=
  if length < 0 then (a, .error .range)
  else if length ≠ 0 ∧ (length < 0 ∨ a.info.length < wrap32 (a.posn + length)) then
    (a, .error .range)
  else
    let length := if length = 0 then wrap32 (a.info.length - a.posn) else length
    if !model then (a, .error .model)
    else ({ a with posn := wrap32 (a.posn + length) }, .ok length)

/-- Whether each call of `HCPwrite` succeeds: the model's `write`, then `HPseek` and `HPwrite`
of the length field. -/
structure WriteOutcome where
  model : Bool
  seek : Bool
  write : Bool

/-- `HCPwrite`: once the model has taken the bytes the position advances; a position past the
length becomes the length, which is rewritten in the descriptor at offset 4. -/
def hcpWrite (f : FileRec) (a : AccRec) (length : Int) (o : WriteOutcome) :
    FileRec × AccRec × Except Dfe Int :=
  if length < 0 then (f, a, .error .range) else
  if !o.model then (f, a, .error .model) else
  let a := { a with posn := wrap32 (a.posn + length) }
  if a.info.length < a.posn then
    let a := { a with info := { a.info with length := a.posn } }
    let p := int32Encode a.info.length
    if !o.seek then (f, a, .error .seekError) else
    let f := hpSeek f (wrap32 ((f.dds a.loc).offset + 4))
    if !o.write then (f, a, .error .writeError) else
    (hpWrite f p, a, .ok length)
  else (f, a, .ok length)

/-- `sp_info_block_t` as `HCPinfo` fills it. -/
structure SpInfoBlock where
  key : Nat
  compType : Nat
  modelType : Nat
  compSize : Int

/-- `HCPinfo`: the coder and model of the element and the length of its backing DD. -/
def hcpInfo (f : FileRec) (a : AccRec) : Except Dfe SpInfoBlock :=
  if a.special ≠ SPECIAL_COMP then .error .internal
  else .ok ⟨SPECIAL_COMP, a.info.cinfo.coderType, a.info.minfo.modelType,
    hLength f DFTAG_COMPRESSED a.info.compRef⟩

/-- A call on an access record: seek, read or write, with its outcome. -/
inductive HcpCall where
  | seek (offset origin ret : Int)
  | read (length : Int) (model : Bool)
  | write (length : Int) (o : WriteOutcome)

/-- The effect of one call. -/
def hcpCall (f : FileRec) (a : AccRec) : HcpCall → FileRec × AccRec × Except Dfe Int
  | .seek offset origin ret => let r := hcpSeek a offset origin ret; (f, r.1, r.2)
  | .read length model => let r := hcpRead a length model; (f, r.1, r.2)
  | .write length o => hcpWrite f a length o

/-- A run of calls that all succeed, or `none` once one fails. -/
def hcpRun (f : FileRec) (a : AccRec) : List HcpCall → Option (FileRec × AccRec)
  | [] => some (f, a)
  | c :: cs =>
    match hcpCall f a c with
    | (f, a, .ok _) => hcpRun f a cs
    | (_, _, .error _) => none

/-! ## What a call does -/

section Calls

variable {f f' : FileRec} {a a' : AccRec}

/-- A write that succeeds: a non-negative length, the position advanced by it, the length
raised to the new position, and the length field rewritten when it grew. -/
theorem hcpWrite_ok {length r : Int} {o : WriteOutcome} (h : hcpWrite f a length o = (f', a', .ok r)) :
    0 ≤ length ∧ r = length ∧
      a' = { a with
        posn := wrap32 (a.posn + length)
        info := { a.info with length := max a.info.length (wrap32 (a.posn + length)) } } ∧
      f' = if a.info.length < wrap32 (a.posn + length) then
        hpWrite (hpSeek f (wrap32 ((f.dds a.loc).offset + 4))) (int32Encode (wrap32 (a.posn + length)))
        else f := by
  simp only [hcpWrite] at h
  split_ifs at h with h1 h2 h3 <;> simp only [Prod.mk.injEq, reduceCtorEq, Except.ok.injEq,
    and_false] at h
  · obtain ⟨rfl, rfl, rfl⟩ := h
    exact ⟨by omega, rfl, by rw [max_eq_right h3.le], by rw [if_pos h3]⟩
  · obtain ⟨rfl, rfl, rfl⟩ := h
    exact ⟨by omega, rfl, by rw [max_eq_left (not_lt.1 h3)], by rw [if_neg h3]⟩

/-- Whatever its outcome, a write only moves the file position and writes bytes. -/
theorem hcpWrite_sameDir (f : FileRec) (a : AccRec) (length : Int) (o : WriteOutcome) :
    f.SameDir (hcpWrite f a length o).1 := by
  unfold hcpWrite
  dsimp only
  split_ifs <;> first
    | exact .refl f
    | exact (FileRec.SameDir.refl f).hpSeek _
    | exact ((FileRec.SameDir.refl f).hpSeek _).hpWrite _

/-- A seek that succeeds lands on its target, which is not negative, and returns the model's
value. -/
theorem hcpSeek_ok {offset origin ret r : Int} (h : hcpSeek a offset origin ret = (a', .ok r)) :
    0 ≤ seekTarget a offset origin ∧ r = ret ∧ a' = { a with posn := seekTarget a offset origin } := by
  simp only [hcpSeek] at h
  split_ifs at h with h1 <;> simp only [Prod.mk.injEq, reduceCtorEq, Except.ok.injEq,
    and_false] at h
  obtain ⟨rfl, rfl⟩ := h
  exact ⟨not_lt.1 h1, rfl, rfl⟩

/-- A read that succeeds passed the range check, asks the model for the count it returns,
and advances the position by it. -/
theorem hcpRead_ok {length r : Int} {model : Bool} (h : hcpRead a length model = (a', .ok r)) :
    0 ≤ length ∧ (length ≠ 0 → wrap32 (a.posn + length) ≤ a.info.length) ∧
      r = (if length = 0 then wrap32 (a.info.length - a.posn) else length) ∧
      a' = { a with posn := wrap32 (a.posn + r) } := by
  simp only [hcpRead] at h
  split_ifs at h with h1 h2 h3 h4 <;> simp only [Prod.mk.injEq, reduceCtorEq, Except.ok.injEq,
    and_false] at h
  all_goals obtain ⟨rfl, rfl⟩ := h
  all_goals refine ⟨not_lt.1 h1, fun h0 => ?_, by simp [h4], rfl⟩
  · exact absurd h4 h0
  · push_neg at h2; exact (h2 h0).2

/-- A write of as many bytes as the element holds, from its start, succeeds without growing
the element. -/
theorem hcpWrite_fill {f : FileRec} {a : AccRec} (h0 : a.posn = 0) (hl : 0 ≤ a.info.length)
    (hl' : a.info.length ≤ 2147483647) :
    hcpWrite f a a.info.length ⟨true, true, true⟩ = (f, { a with posn := a.info.length }, .ok a.info.length) := by
  have hw : wrap32 (a.posn + a.info.length) = a.info.length := by
    rw [h0, zero_add]; exact wrap32_of_isInt32 ⟨by omega, hl'⟩
  simp [hcpWrite, hw, not_lt.2 hl]

/-- A seek to the start succeeds when the model's does. -/
theorem hcpSeek_start (a : AccRec) {ret : Int} (hr : ret ≠ FAIL) :
    hcpSeek a 0 DF_START ret = ({ a with posn := 0 }, .ok ret) := by
  simp [hcpSeek, seekTarget, DF_START, DF_CURRENT, DF_END, hr]

/-- A seek or a read leaves the file alone, and no call changes the record's slot. -/
theorem hcpCall_loc (c : HcpCall) : (hcpCall f a c).2.1.loc = a.loc := by
  cases c with
  | seek offset origin ret => simp only [hcpCall, hcpSeek]; split_ifs <;> rfl
  | read length model => simp only [hcpCall, hcpRead]; split_ifs <;> rfl
  | write length o => simp only [hcpCall, hcpWrite]; split_ifs <;> rfl

/-- Whatever its outcome, a call changes only the record's position and its element's length. -/
theorem hcpCall_acc (c : HcpCall) :
    ∃ p n, (hcpCall f a c).2.1 = { a with posn := p, info := { a.info with length := n } } := by
  cases c with
  | seek offset origin ret => simp only [hcpCall, hcpSeek]; split_ifs <;> exact ⟨_, _, rfl⟩
  | read length model => simp only [hcpCall, hcpRead]; split_ifs <;> exact ⟨_, _, rfl⟩
  | write length o => simp only [hcpCall, hcpWrite]; split_ifs <;> exact ⟨_, _, rfl⟩

/-- Whatever its outcome, a call only moves the file position and writes bytes. -/
theorem hcpCall_sameDir (c : HcpCall) : f.SameDir (hcpCall f a c).1 := by
  cases c
  · exact .refl f
  · exact .refl f
  · exact hcpWrite_sameDir f a _ _

/-- Whatever its outcome, a call leaves the file as it was but for its position, or writes an
`int32` into the four bytes at offset 4 of the record's descriptor. -/
theorem hcpCall_file (c : HcpCall) :
    (∃ p, (hcpCall f a c).1 = { f with fpos := p }) ∨ ∃ n, IsInt32 n ∧
      (hcpCall f a c).1 = hpWrite (hpSeek f (wrap32 ((f.dds a.loc).offset + 4))) (int32Encode n) := by
  cases c with
  | seek offset origin ret => exact .inl ⟨f.fpos, rfl⟩
  | read length model => exact .inl ⟨f.fpos, rfl⟩
  | write length o =>
    simp only [hcpCall, hcpWrite]
    split_ifs
    all_goals first
      | exact .inl ⟨_, rfl⟩
      | exact .inr ⟨_, isInt32_wrap32 _, rfl⟩

end Calls

/-! ## The descriptor on disk -/

/-- Writing `bs` at the file position, inside the `n` bytes from `q`, replaces exactly those
bytes. -/
theorem FileRec.bytesAt_hpWrite {f : FileRec} {q n : Nat} {bs : List UInt8}
    (h1 : q ≤ f.fpos) (h2 : f.fpos + bs.length ≤ q + n) :
    (hpWrite f bs).bytesAt q n = (f.bytesAt q n).take (f.fpos - q) ++ bs ++
      (f.bytesAt q n).drop (f.fpos - q + bs.length) := by
  apply List.ext_getElem
  · simp [FileRec.bytesAt]; omega
  · intro i hi _
    simp only [FileRec.bytesAt, List.length_map, List.length_range] at hi
    simp only [FileRec.bytesAt, hpWrite, List.getElem_map, List.getElem_range, List.getElem_append,
      List.getElem_take, List.getElem_drop, List.length_append, List.length_take, List.length_map,
      List.length_range]
    by_cases ha : i < f.fpos - q
    · rw [dif_pos (by omega), dif_pos (by omega), if_neg (by omega)]
    · by_cases hb : i < f.fpos - q + bs.length
      · rw [dif_pos (by omega), dif_neg (by omega), if_pos (by omega),
          List.getD_eq_getElem _ _ (by omega)]
        congr 1; omega
      · rw [dif_neg (by omega), if_neg (by omega)]
        congr 1; omega

/-- The bytes `HPwrite` has just written are read back from the position it wrote them at. -/
theorem FileRec.bytesAt_hpWrite_self (f : FileRec) (bs : List UInt8) :
    (hpWrite f bs).bytesAt f.fpos bs.length = bs := by
  apply List.ext_getElem
  · simp [FileRec.bytesAt]
  · intro i hi _
    simp only [FileRec.bytesAt, List.length_map, List.length_range] at hi
    simp [FileRec.bytesAt, hpWrite, hi, List.getD_eq_getElem _ _ hi]

/-- Writing outside the `n` bytes from `q` leaves them as they were. -/
theorem FileRec.bytesAt_hpWrite_of_disjoint {f : FileRec} {q n : Nat} {bs : List UInt8}
    (h : f.fpos + bs.length ≤ q ∨ q + n ≤ f.fpos) : (hpWrite f bs).bytesAt q n = f.bytesAt q n := by
  simp only [FileRec.bytesAt, hpWrite]
  exact List.map_congr_left fun i hi => by simp at hi; rw [if_neg (by omega)]

@[simp] theorem length_compHeaderBytes_setLength (info : CompInfo) (n : Int) :
    (compHeaderBytes { info with length := n }).length = (compHeaderBytes info).length := by
  simp [length_compHeaderBytes]

/-- `HCPwrite`'s rewrite of the length field, on a file that holds a descriptor at `off`,
leaves the descriptor of the same record with the new length. -/
theorem bytesAt_lengthRewrite {f : FileRec} {info : CompInfo} {off : Int} (h0 : 0 ≤ off)
    (hfit : off + (compHeaderBytes info).length ≤ 2147483647)
    (hdisk : f.bytesAt off.toNat (compHeaderBytes info).length = compHeaderBytes info) (n : Int) :
    (hpWrite (hpSeek f (wrap32 (off + 4))) (int32Encode n)).bytesAt off.toNat
      (compHeaderBytes { info with length := n }).length = compHeaderBytes { info with length := n } := by
  have hlen : COMP_HEADER_LENGTH ≤ (compHeaderBytes info).length := by
    rw [length_compHeaderBytes]; omega
  have hpos : (hpSeek f (wrap32 (off + 4))).fpos = off.toNat + 4 := by
    simp only [hpSeek]; rw [wrap32_of_isInt32 ⟨by omega, by simp [COMP_HEADER_LENGTH] at hlen; omega⟩]
    omega
  rw [length_compHeaderBytes_setLength, FileRec.bytesAt_hpWrite (by omega)
    (by simp [hpos, COMP_HEADER_LENGTH] at hlen ⊢; omega), hpos, Nat.add_sub_cancel_left,
    length_int32Encode, show (hpSeek f (wrap32 (off + 4))).bytesAt off.toNat _ = _ from hdisk]
  exact compHeaderBytes_setLength info n

/-- The file holds the descriptor of the record's element: the DD at the record's slot points
at `compHeaderBytes` of the record's `compinfo_t`, placed within `int32` offsets, and gives its
length. -/
structure DescOK (f : FileRec) (a : AccRec) : Prop where
  length : IsInt32 a.info.length
  off : 0 ≤ (f.dds a.loc).offset
  fits : (f.dds a.loc).offset + (compHeaderBytes a.info).length ≤ 2147483647
  disk : f.bytesAt (f.dds a.loc).offset.toNat (compHeaderBytes a.info).length = compHeaderBytes a.info
  len : (f.dds a.loc).length = (compHeaderBytes a.info).length

theorem HeaderWF.setLength {DFKNTsize : Int → Int} {info : CompInfo} (h : HeaderWF DFKNTsize info)
    {n : Int} (hn : IsInt32 n) : HeaderWF DFKNTsize { info with length := n } :=
  ⟨hn, h.model, h.coder, h.nbit, h.skphuff⟩

section Runs

variable {DFKNTsize : Int → Int}

/-- What every call that succeeds keeps, every run of calls that all succeed keeps. -/
theorem hcpRun_preserves (P : FileRec → AccRec → Prop)
    (hstep : ∀ {f a f' a' c r}, P f a → hcpCall f a c = (f', a', .ok r) → P f' a')
    {f f' : FileRec} {a a' : AccRec} {cs : List HcpCall} (h : P f a)
    (hr : hcpRun f a cs = some (f', a')) : P f' a' := by
  induction cs generalizing f a with
  | nil => cases hr; exact h
  | cons c cs ih =>
    simp only [Hdf4.hcpRun] at hr
    split at hr
    · exact ih (hstep h ‹_›) hr
    · cases hr

/-- A call that succeeds changes the record's `compinfo_t` at most in its length, to an
`int32`. -/
theorem hcpCall_info {f f' : FileRec} {a a' : AccRec} {c : HcpCall} {r : Int}
    (hc : hcpCall f a c = (f', a', .ok r)) :
    a'.info = a.info ∨ ∃ n, IsInt32 n ∧ a'.info = { a.info with length := n } := by
  cases c with
  | seek offset origin ret =>
    obtain ⟨-, hs⟩ : f = f' ∧ hcpSeek a offset origin ret = (a', .ok r) := by
      simpa [Hdf4.hcpCall] using hc
    obtain ⟨-, -, rfl⟩ := hcpSeek_ok hs
    exact .inl rfl
  | read length model =>
    obtain ⟨-, hs⟩ : f = f' ∧ hcpRead a length model = (a', .ok r) := by
      simpa [Hdf4.hcpCall] using hc
    obtain ⟨-, -, -, rfl⟩ := hcpRead_ok hs
    exact .inl rfl
  | write length o =>
    obtain ⟨-, -, rfl, -⟩ := hcpWrite_ok hc
    by_cases hg : a.info.length < wrap32 (a.posn + length)
    · exact .inr ⟨_, isInt32_wrap32 _, by rw [max_eq_right hg.le]⟩
    · exact .inl (by rw [max_eq_left (not_lt.1 hg)])

/-- A run of calls that all succeed keeps the `compinfo_t` fit for the descriptor. -/
theorem HeaderWF.hcpRun {f f' : FileRec} {a a' : AccRec} {cs : List HcpCall}
    (h : HeaderWF DFKNTsize a.info) (hr : hcpRun f a cs = some (f', a')) :
    HeaderWF DFKNTsize a'.info :=
  hcpRun_preserves (fun _ a => HeaderWF DFKNTsize a.info) (fun h hc => by
    rcases hcpCall_info hc with he | ⟨n, hn, he⟩ <;> rw [he]
    exacts [h, h.setLength hn]) h hr

/-- Every call that succeeds keeps the descriptor in step with the record. -/
theorem DescOK.hcpCall {f f' : FileRec} {a a' : AccRec} {c : HcpCall} {r : Int}
    (h : DescOK f a) (hc : hcpCall f a c = (f', a', .ok r)) : DescOK f' a' := by
  cases c with
  | seek offset origin ret =>
    obtain ⟨rfl, hs⟩ : f = f' ∧ hcpSeek a offset origin ret = (a', .ok r) := by
      simpa [Hdf4.hcpCall] using hc
    obtain ⟨-, -, rfl⟩ := hcpSeek_ok hs
    exact ⟨h.length, h.off, h.fits, h.disk, h.len⟩
  | read length model =>
    obtain ⟨rfl, hs⟩ : f = f' ∧ hcpRead a length model = (a', .ok r) := by
      simpa [Hdf4.hcpCall] using hc
    obtain ⟨-, -, -, rfl⟩ := hcpRead_ok hs
    exact ⟨h.length, h.off, h.fits, h.disk, h.len⟩
  | write length o =>
    obtain ⟨-, -, rfl, rfl⟩ := hcpWrite_ok hc
    by_cases hg : a.info.length < wrap32 (a.posn + length)
    · rw [if_pos hg, max_eq_right hg.le]
      exact ⟨isInt32_wrap32 _, h.off, by simpa using h.fits,
        bytesAt_lengthRewrite h.off h.fits h.disk _, by simpa using h.len⟩
    · rw [if_neg hg, max_eq_left (not_lt.1 hg)]
      exact ⟨h.length, h.off, h.fits, h.disk, h.len⟩

/-- A run of calls that all succeed keeps the descriptor in step with the record. -/
theorem DescOK.hcpRun {f f' : FileRec} {a a' : AccRec} {cs : List HcpCall}
    (h : DescOK f a) (hr : hcpRun f a cs = some (f', a')) : DescOK f' a' :=
  hcpRun_preserves DescOK (fun h hc => h.hcpCall hc) h hr

/-- The length field of the record's descriptor as the file holds it, four bytes at offset 4. -/
def lengthField (f : FileRec) (a : AccRec) : Int :=
  int32Decode (f.bytesAt ((f.dds a.loc).offset.toNat + 4) 4)

theorem compHeaderBytes_drop_four (info : CompInfo) :
    (compHeaderBytes info).drop 4 = int32Encode info.length ++ (compHeaderBytes info).drop 8 := by
  simp [compHeaderBytes, compFixedBytes, int16Encode, List.drop_append_eq_append_drop,
    List.drop_eq_nil_of_le]

/-- Where the file holds the record's descriptor, its length field is the record's length. -/
theorem lengthField_of_disk {f : FileRec} {a : AccRec} (hl : IsInt32 a.info.length)
    (hdisk : f.bytesAt (f.dds a.loc).offset.toNat (compHeaderBytes a.info).length =
      compHeaderBytes a.info) : lengthField f a = a.info.length := by
  have hlen : 4 + 4 ≤ (compHeaderBytes a.info).length := by
    rw [length_compHeaderBytes, COMP_HEADER_LENGTH]; omega
  rw [lengthField, FileRec.bytesAt_drop_take hdisk hlen, compHeaderBytes_drop_four,
    List.take_left' (length_int32Encode _), int32Decode_int32Encode_self hl]

/-- The descriptor of a record in step with its file, and with fields that fit it, reads
back through `HCIread_header`: from the end of the two-byte special code to the end of the
`dd->length` bytes, into the record's fields and coder parameters. -/
theorem DescOK.readHeader {f : FileRec} {a : AccRec} (h : DescOK f a)
    (hwf : HeaderWF DFKNTsize a.info) (info0 : CompInfo) (c0 : CompParams) :
    ∃ f' info c, hciReadHeader f info0 (f.dds a.loc) c0 ⟨true, true, true⟩ =
        (f', info, c, .ok ()) ∧
      (f'.fpos : Int) = (f.dds a.loc).offset + 2 + ((f.dds a.loc).length - 2) ∧
      info.length = a.info.length ∧ info.compRef = a.info.compRef ∧ info.minfo = a.info.minfo ∧
      info.cinfo.coderType = a.info.cinfo.coderType ∧ ParamsOf a.info.cinfo c := by
  have hlen := length_compHeaderBytes a.info
  have := h.off
  have := h.fits
  rw [COMP_HEADER_LENGTH] at hlen
  obtain ⟨f', info, c, hr, hpos, hrest⟩ :=
    hciReadHeader_compHeaderBytes DFKNTsize hwf h.off (by omega) h.disk info0 c0
  exact ⟨f', info, c, hr, by rw [hpos, h.len]; push_cast; omega, hrest⟩

/-- What `HCIstaccess` rebuilds from the descriptor of record `a` in file `f`: `HCIread_header`
reads from the end of the two-byte special code to the end of the `dd->length` bytes, the
checks `HCIstaccess` makes of `HCIinit_model` and `HCIinit_coder` (`DFE_MINIT`, `DFE_CINIT`)
pass, and the `compinfo_t` they rebuild agrees with `a`'s. -/
def Reparses (DFKNTsize : Int → Int) (f : FileRec) (a : AccRec) : Prop :=
  ∀ info0 c0, ∃ f' info c, hciReadHeader f info0 (f.dds a.loc) c0 ⟨true, true, true⟩ =
      (f', info, c, .ok ()) ∧
    (f'.fpos : Int) = (f.dds a.loc).offset + 2 + ((f.dds a.loc).length - 2) ∧
    (hciInitModel info.minfo info.minfo.modelType).2 = .ok () ∧
    (hciInitCoder DFKNTsize info.cinfo info.cinfo.coderType c).2 = .ok () ∧
    CompInfo.Agree
      { info with minfo := (hciInitModel info.minfo info.minfo.modelType).1
                  cinfo := (hciInitCoder DFKNTsize info.cinfo info.cinfo.coderType c).1 } a.info

/-- A descriptor in step with a record that fits it parses back to the record, once an N-bit
coder's number type has a size. -/
theorem DescOK.reparses {f : FileRec} {a : AccRec} (h : DescOK f a) (hwf : HeaderWF DFKNTsize a.info)
    (hnt : a.info.cinfo.coderType = COMP_CODE_NBIT → a.info.cinfo.nbitInfo.ntSize ≠ FAIL) :
    Reparses DFKNTsize f a := by
  intro info0 c0
  obtain ⟨f', info, c, hr, hpos, hl, hc, hm, hct, hp⟩ := h.readHeader hwf info0 c0
  obtain ⟨hmi, hci⟩ := hciInit_ok hwf hm hct hp hnt info.minfo info.cinfo
  exact ⟨f', info, c, hr, hpos, hmi, hci, hciInit_agree hwf hl hc hm hct hp⟩

end Runs

/-! ## Position arithmetic -/

/-- `HCPseek` is exact: from a position and a length in `[0, 2^31)` and an `int32` offset, a
seek that succeeds lands on the target computed over the integers, which is not negative. A
sum that wraps is negative, so the range check catches it. -/
theorem hcpSeek_exact {a a' : AccRec} {offset origin ret r : Int} (hp : 0 ≤ a.posn)
    (hp' : a.posn ≤ 2147483647) (hl : 0 ≤ a.info.length) (hl' : a.info.length ≤ 2147483647)
    (ho : IsInt32 offset) (h : hcpSeek a offset origin ret = (a', .ok r)) :
    a'.posn = (if origin = DF_CURRENT then offset + a.posn
      else if origin = DF_END then offset + a.info.length else offset) ∧ 0 ≤ a'.posn := by
  obtain ⟨h0, -, rfl⟩ := hcpSeek_ok h
  have hw : ∀ x : Int, -2147483648 ≤ x → x < 4294967296 → 0 ≤ wrap32 x → wrap32 x = x := by
    intro x h1 h2 h3; unfold wrap32 at h3 ⊢; omega
  unfold IsInt32 at ho
  simp only [seekTarget, show DF_CURRENT ≠ DF_END by decide] at h0 ⊢
  by_cases hc : origin = DF_CURRENT
  · simp only [hc, if_true, if_false] at h0 ⊢
    exact ⟨hw _ (by omega) (by omega) h0, h0⟩
  · by_cases he : origin = DF_END
    · simp only [he, hc, show DF_END ≠ DF_CURRENT by decide, if_true, if_false] at h0 ⊢
      exact ⟨hw _ (by omega) (by omega) h0, h0⟩
    · simp only [he, hc, if_false] at h0 ⊢
      simpa using h0

/-- The range check of `HCPread` and the position update of `HCPread` and `HCPwrite` are
`int32` sums. From a position within the element, a length whose sum with the position
passes `2^31 - 1` passes the check, so a read succeeds and asks the model for that many bytes
past the end, and both calls leave a negative position. -/
theorem hcp_posn_overflow {a : AccRec} {length : Int} (hp : 0 ≤ a.posn)
    (hpl : a.posn ≤ a.info.length) (hl : a.info.length ≤ 2147483647) (hlen : length ≤ 2147483647)
    (hover : 2147483647 < a.posn + length) (f : FileRec) (seek write : Bool) :
    a.info.length < a.posn + length ∧ a.posn + length - 4294967296 < 0 ∧
      hcpRead a length true = ({ a with posn := a.posn + length - 4294967296 }, .ok length) ∧
      hcpWrite f a length ⟨true, seek, write⟩ =
        (f, { a with posn := a.posn + length - 4294967296 }, .ok length) := by
  have hw := wrap32_add_neg hp (by omega : 0 ≤ length) (by omega) hlen hover
  have h1 : ¬length < 0 := by omega
  have h2 : ¬a.info.length < a.posn + length - 4294967296 := by omega
  have h3 : length ≠ 0 := by omega
  exact ⟨by omega, by omega, by simp [hcpRead, hw, h1, h2, h3], by simp [hcpWrite, hw, h1, h2]⟩

/-- The overflow at position 1 of an element of length 1, with a length of `2^31 - 1`. -/
theorem hcp_posn_overflow_at_one :
    let a : AccRec := { (default : AccRec) with posn := 1, info := { (default : CompInfo) with length := 1 } }
    hcpRead a 2147483647 true = ({ a with posn := -2147483648 }, .ok 2147483647) :=
  (hcp_posn_overflow (by decide) (by decide) (by decide) (by decide) (by decide) default false false).2.2.1

/-- A seek of 2 from position 3 of an element of length 10. -/
theorem hcpSeek_exact_current :
    let a : AccRec := { (default : AccRec) with posn := 3, info := { (default : CompInfo) with length := 10 } }
    ∃ a' r, hcpSeek a 2 DF_CURRENT 0 = (a', .ok r) ∧
      a'.posn = (if DF_CURRENT = DF_CURRENT then 2 + a.posn
        else if DF_CURRENT = DF_END then 2 + a.info.length else 2) ∧ 0 ≤ a'.posn :=
  ⟨_, _, rfl, hcpSeek_exact (by decide) (by decide) (by decide) (by decide) (by decide)
    (show hcpSeek _ 2 DF_CURRENT 0 = _ from rfl)⟩

/-! ## Failed calls -/

end Hdf4
