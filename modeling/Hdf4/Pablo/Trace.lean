import Hdf4.Basic

/-!
# Pablo tracing: the switches, and the calls into the tracer

The Pablo front end of the HDF library keeps three globals and hands each event to one of two
tracers, SDDF trace files or real-time summaries. The tracers' code (`HDFinitTrace_SDDF`,
`traceEvent`, `traceEvent_RT`, `set_c_mappedID` and the rest) is not among the sources, so the
model records every call the front end makes into it, in order: what the front end guarantees
is a property of that record.

* `TraceState`: `OUTPUT_SWITCH`, `procTrace`, `IOtracingEnabled`, and the calls made so far;
* `hdfInitTrace`, `hinittracex`, `hdfEndTrace`: the switches; `startHDFtraceEvent`,
  `endHDFtraceEvent` and `traceIOEvent` send an event to the tracer `OUTPUT_SWITCH` names;
* `Protocol`: which tracers are open along a record of calls, and whether every event so far
  went to an open one (`Obeys`); `Routed` adds that the tracer the next event goes to is open.
  `startHDFtraceEvent_routed` and its neighbours say which switches keep `Routed`;
* `computePacketTag` and `computeProcMask` find the bin of an event id in the table of
  procedure families; `binIndex_spec` reads the bin off a table in increasing order.
-/

namespace Hdf4
namespace Pablo

/-! ## The state of the front end -/

/-- The values of `OUTPUT_SWITCH`: no tracer (`NO_OUTPUT`), SDDF trace files (`SDDF_OUTPUT`) and
real-time summaries (`RT_OUTPUT`). -/
def NO_OUTPUT : Int := 0
def SDDF_OUTPUT : Int := 1
def RT_OUTPUT : Int := 2

/-- The two tracers: SDDF trace files (`traceEvent`) and real-time summaries (`traceEvent_RT`). -/
inductive Format
  | sddf
  | rt
  deriving DecidableEq, Repr

/-- The traced I/O calls, by the prefix of their begin and end ids (`HDFtrace3OPEN` and
`HDFtraceCREAT` share `openBeginID`; `HDFtracePUTS`, `HDFtraceFPUTC` and `HDFtraceFPUTS` share
`fwriteBeginID`). -/
inductive IOOp
  | fopen | openFd | fflush | fclose | close | read | fread | lseek | fseek | rewind | write | fwrite
  deriving DecidableEq, Repr

/-- An event id: the id of an HDF procedure, or the begin or end id of a traced I/O call. -/
inductive EventID
  | proc (id : Int)
  | ioBegin (op : IOOp)
  | ioEnd (op : IOOp)
  deriving DecidableEq, Repr

/-- What the data pointer of an event points at, by the type the caller gives it. -/
inductive EventData
  /-- `NULL`, or `(char *) 0`. -/
  | null
  /-- An `HDFsetInfo`. -/
  | setInfo (setID : Int) (setName : List Char)
  /-- A `struct open_args`. -/
  | openArgs (filename : List Char) (flags : Nat) (mode : Int)
  /-- A `struct read_write_args`. -/
  | readWriteArgs (fileID numVariables cause : Int)
  /-- A `struct seek_args`. -/
  | seekArgs (fileID offset whence : Int)
  /-- An `int`. -/
  | int (v : Int)
  /-- A `long`. -/
  | long (v : Int)
  deriving DecidableEq, Repr

/-- A call of the front end into the Pablo code outside the sources. -/
inductive TracerCall
  /-- `HDFinitTrace_SDDF` or `HDFinitTrace_RT`. -/
  | init (fmt : Format) (traceFileName : List Char) (procTraceMask : Nat)
  /-- `HDFendTrace_SDDF` or `HDFendTrace_RT`. -/
  | finish (fmt : Format)
  /-- `traceEvent` or `traceEvent_RT`, with the data pointer and the length passed. -/
  | event (fmt : Format) (eventID : EventID) (data : EventData) (dataLen : Nat)
  /-- `set_c_mappedID`, which gives a file descriptor its trace id. -/
  | setMappedID (fd : Int)
  deriving DecidableEq, Repr

/-- The front end's globals, and its calls into the tracer so far, oldest first. -/
structure TraceState where
  OUTPUT_SWITCH : Int
  procTrace : Nat
  IOtracingEnabled : Int
  calls : List TracerCall
  deriving DecidableEq, Repr

namespace TraceState

/-- At program start `OUTPUT_SWITCH` and `procTrace` are `0`, as C starts a global without an
initializer; `IOtracingEnabled` is defined outside the sources. -/
def initial (IOtracingEnabled : Int) : TraceState := ⟨0, 0, IOtracingEnabled, []⟩

/-- The tracer an event goes to: SDDF when `OUTPUT_SWITCH` is `SDDF_OUTPUT`, the real-time one
otherwise. -/
def fmt (st : TraceState) : Format := if st.OUTPUT_SWITCH = SDDF_OUTPUT then .sddf else .rt

/-- One more call into the tracer. -/
def call (st : TraceState) (c : TracerCall) : TraceState := { st with calls := st.calls ++ [c] }

variable (st : TraceState) (c : TracerCall)

@[simp] theorem call_calls : (st.call c).calls = st.calls ++ [c] := rfl
@[simp] theorem call_OUTPUT_SWITCH : (st.call c).OUTPUT_SWITCH = st.OUTPUT_SWITCH := rfl
@[simp] theorem call_IOtracingEnabled : (st.call c).IOtracingEnabled = st.IOtracingEnabled := rfl
@[simp] theorem fmt_call : (st.call c).fmt = st.fmt := rfl

end TraceState

/-! ## The switches and the events -/

/-- What `HDFinitTrace` prints on `stderr` before it exits on an unknown `out_sw`. -/
def initTraceError (out_sw : Int) : String :=
  ">> Error in HDFinitTrace: the third argument " ++ "must have the value 0, 1, <<<\n" ++
    ">> or 2.  The value received was " ++ toString out_sw ++ "." ++
    " Exiting program.                  <<<\n"

/-- How the program ends when the front end calls `exit`: the status, and what it printed on
`stderr` just before. -/
structure Exit where
  status : Int
  stderr : String
  deriving DecidableEq, Repr

/-- `HDFinitTrace`: open the SDDF or the real-time tracer, or none for `NO_OUTPUT`; any other
`out_sw` prints an error and exits with status `-1`. Then I/O tracing is on, and
`OUTPUT_SWITCH` is `out_sw`. -/
def hdfInitTrace (st : TraceState) (traceFileName : List Char) (procTraceMask : Nat)
    (out_sw : Int) : Except Exit TraceState :=
  let tracing (st : TraceState) : TraceState := { st with IOtracingEnabled := 1, OUTPUT_SWITCH := out_sw }
  if out_sw = SDDF_OUTPUT then .ok (tracing (st.call (.init .sddf traceFileName procTraceMask)))
  else if out_sw = RT_OUTPUT then .ok (tracing (st.call (.init .rt traceFileName procTraceMask)))
  else if out_sw = NO_OUTPUT then .ok (tracing { st with procTrace := 0 })
  else .error ⟨-1, initTraceError out_sw⟩

/-- `hinittracex_`, the Fortran entry: copy the first `len` characters of `file` into a new C
string and call `HDFinitTrace` on it, whose name then ends at the first NUL among them. -/
def hinittracex (st : TraceState) (file : List Char) (len procMask : Nat) (out_sw : Int) :
    Except Exit TraceState :=
  hdfInitTrace st ((file.take len).takeWhile fun ch => ch.toNat ≠ 0) procMask out_sw

/-- `HDFendTrace` (and `hdfendtrace_`): end the tracer `OUTPUT_SWITCH` names, none for any other
value, and clear `procTrace`. `IOtracingEnabled` stays as it was. -/
def hdfEndTrace (st : TraceState) : TraceState :=
  let st :=
    if st.OUTPUT_SWITCH = SDDF_OUTPUT then st.call (.finish .sddf)
    else if st.OUTPUT_SWITCH = RT_OUTPUT then st.call (.finish .rt)
    else st
  { st with procTrace := 0 }

/-- `startHDFtraceEvent`: the procedure's begin event, with no data. -/
def startHDFtraceEvent (st : TraceState) (eventID : Int) : TraceState :=
  st.call (.event st.fmt (.proc eventID) .null 0)

/-- `endHDFtraceEvent`: the procedure's end event, pointing at an `HDFsetInfo` for the set it
worked on, with a length of `0`. It does not use `IDtype`. -/
def endHDFtraceEvent (st : TraceState) (eventID setID : Int) (setName : List Char)
    (_IDtype : Int) : TraceState :=
  st.call (.event st.fmt (.proc eventID) (.setInfo setID setName) 0)

/-- `traceIOEvent`: an I/O event, to the SDDF tracer when `OUTPUT_SWITCH` is `1`. -/
def traceIOEvent (st : TraceState) (eventType : EventID) (dataPtr : EventData) (dataLen : Nat) :
    TraceState :=
  st.call (.event st.fmt eventType dataPtr dataLen)

theorem hdfInitTrace_eq_ok {st st' : TraceState} {name : List Char} {mask : Nat} {out_sw : Int}
    (h : hdfInitTrace st name mask out_sw = .ok st') :
    st'.IOtracingEnabled = 1 ∧ st'.OUTPUT_SWITCH = out_sw ∧
      ((out_sw = SDDF_OUTPUT ∧ st'.calls = st.calls ++ [.init .sddf name mask]) ∨
        (out_sw = RT_OUTPUT ∧ st'.calls = st.calls ++ [.init .rt name mask]) ∨
        (out_sw = NO_OUTPUT ∧ st'.calls = st.calls)) := by
  unfold hdfInitTrace at h
  split_ifs at h <;> cases h <;> simp_all

/-- `HDFinitTrace` exits exactly on an `out_sw` other than `0`, `1` and `2`, with status `-1` and
a message that names the value it received. -/
theorem hdfInitTrace_eq_error_iff (st : TraceState) (name : List Char) (mask : Nat) (out_sw : Int)
    (e : Exit) : hdfInitTrace st name mask out_sw = .error e ↔
      out_sw ≠ NO_OUTPUT ∧ out_sw ≠ SDDF_OUTPUT ∧ out_sw ≠ RT_OUTPUT ∧ e = ⟨-1, initTraceError out_sw⟩ := by
  unfold hdfInitTrace
  split_ifs <;> simp_all [eq_comm]

/-! ## The tracers' protocol -/

/-- The tracers' protocol, read along a record of calls: which tracers are open, and whether
every event so far went to an open one. -/
structure Protocol where
  sddf : Bool
  rt : Bool
  ok : Bool
  deriving DecidableEq, Repr

namespace Protocol

/-- Whether tracer `fmt` is open. -/
def isOpen (p : Protocol) : Format → Bool
  | .sddf => p.sddf
  | .rt => p.rt

/-- Open or close tracer `fmt`. -/
def setOpen (p : Protocol) : Format → Bool → Protocol
  | .sddf, b => { p with sddf := b }
  | .rt, b => { p with rt := b }

/-- A tracer is open from its init to its end; an event is fine when its tracer is open. -/
def step (p : Protocol) : TracerCall → Protocol
  | .init fmt _ _ => p.setOpen fmt true
  | .finish fmt => p.setOpen fmt false
  | .event fmt _ _ _ => { p with ok := p.ok && p.isOpen fmt }
  | .setMappedID _ => p

@[simp] theorem isOpen_setOpen (p : Protocol) (f g : Format) (b : Bool) :
    (p.setOpen f b).isOpen g = if f = g then b else p.isOpen g := by
  cases f <;> cases g <;> rfl

@[simp] theorem ok_setOpen (p : Protocol) (f : Format) (b : Bool) : (p.setOpen f b).ok = p.ok := by
  cases f <;> rfl

end Protocol

/-- Where the protocol stands after a record of calls, from no tracer open. -/
def protocol (cs : List TracerCall) : Protocol := cs.foldl Protocol.step ⟨false, false, true⟩

@[simp] theorem protocol_append_single (cs : List TracerCall) (c : TracerCall) :
    protocol (cs ++ [c]) = (protocol cs).step c := List.foldl_append ..

/-- Every event of the record went to a tracer that was open. -/
def Obeys (cs : List TracerCall) : Prop := (protocol cs).ok = true

/-- The record obeys the protocol, and the tracer the next event goes to is open. -/
def Routed (st : TraceState) : Prop :=
  (protocol st.calls).ok = true ∧ (protocol st.calls).isOpen st.fmt = true

/-- An event to the tracer `OUTPUT_SWITCH` names keeps the state routed. -/
theorem Routed.event {st : TraceState} (h : Routed st) (id : EventID) (d : EventData) (n : Nat) :
    Routed (st.call (.event st.fmt id d n)) := by
  simp only [Routed, TraceState.call_calls, protocol_append_single, Protocol.step,
    TraceState.fmt_call] at h ⊢
  exact ⟨by simp [h.1, h.2], h.2⟩

theorem startHDFtraceEvent_routed {st : TraceState} (h : Routed st) (eventID : Int) :
    Routed (startHDFtraceEvent st eventID) := h.event ..

theorem endHDFtraceEvent_routed {st : TraceState} (h : Routed st) (eventID setID : Int)
    (setName : List Char) (IDtype : Int) : Routed (endHDFtraceEvent st eventID setID setName IDtype) :=
  h.event ..

theorem traceIOEvent_routed {st : TraceState} (h : Routed st) (e : EventID) (d : EventData)
    (n : Nat) : Routed (traceIOEvent st e d n) := h.event ..

/-- `HDFinitTrace` of the SDDF or the real-time tracer, on a record that obeys the protocol,
leaves the state routed. -/
theorem hdfInitTrace_routed {st st' : TraceState} {name : List Char} {mask : Nat} {out_sw : Int}
    (h : Obeys st.calls) (ho : out_sw = SDDF_OUTPUT ∨ out_sw = RT_OUTPUT)
    (hi : hdfInitTrace st name mask out_sw = .ok st') : Routed st' := by
  obtain ⟨-, hsw, hc⟩ := hdfInitTrace_eq_ok hi
  have hfmt : st'.fmt = if out_sw = SDDF_OUTPUT then .sddf else .rt := by
    simp only [TraceState.fmt, hsw]
  rcases hc with ⟨rfl, hc⟩ | ⟨rfl, hc⟩ | ⟨rfl, -⟩ <;>
    simp_all [Routed, Obeys, Protocol.step, SDDF_OUTPUT, RT_OUTPUT, NO_OUTPUT]

/-- `HDFendTrace` ends the tracer the next event goes to, and leaves I/O tracing as it was. -/
theorem hdfEndTrace_closes (st : TraceState)
    (ho : st.OUTPUT_SWITCH = SDDF_OUTPUT ∨ st.OUTPUT_SWITCH = RT_OUTPUT) :
    (protocol (hdfEndTrace st).calls).isOpen (hdfEndTrace st).fmt = false ∧
      (hdfEndTrace st).IOtracingEnabled = st.IOtracingEnabled := by
  unfold hdfEndTrace
  rcases ho with h | h <;>
    simp [h, TraceState.fmt, Protocol.step, SDDF_OUTPUT, RT_OUTPUT]

/-! ## The table of procedure families -/

/-- The procedure families' first ids (`ProcIDs.h`), in the order of `TagBin`; the values are
not among the sources. -/
structure ProcIDs where
  DUMMY_HDF : Int
  ID_DFAN : Int
  ID_DFP : Int
  ID_DFR8 : Int
  ID_DFSD : Int
  ID_DF24 : Int
  ID_H : Int
  ID_HE : Int
  ID_SD : Int
  ID_VF : Int
  ID_V : Int
  ID_VH : Int
  ID_VS : Int
  ID_AN : Int
  ID_GR : Int
  ID_HA : Int
  ID_DA : Int
  ID_HUL : Int
  END_HDF : Int

/-- `TagBin`, the table `computePacketTag` and `computeProcMask` build. -/
def ProcIDs.TagBin (p : ProcIDs) : List Int :=
  [p.DUMMY_HDF, p.ID_DFAN, p.ID_DFP, p.ID_DFR8, p.ID_DFSD, p.ID_DF24, p.ID_H, p.ID_HE, p.ID_SD,
    p.ID_VF, p.ID_V, p.ID_VH, p.ID_VS, p.ID_AN, p.ID_GR, p.ID_HA, p.ID_DA, p.ID_HUL, p.END_HDF]

/-- The loop `computePacketTag` and `computeProcMask` share: the first `j < nBins - 1` with
`TagBin[j] ≤ eventID < TagBin[j+1]`. -/
def binIndex : List Int → Int → Option Nat
  | a :: b :: rest, eventID =>
    if a ≤ eventID ∧ eventID < b then some 0 else (binIndex (b :: rest) eventID).map (· + 1)
  | _, _ => none

/-- In a list in increasing order, an entry is at most every entry after it. -/
theorem le_of_sorted_getElem? {l : List Int} (hl : l.Sorted (· < ·)) {i k : Nat} {x y : Int}
    (hx : l[i]? = some x) (hy : l[k]? = some y) (hik : i ≤ k) : x ≤ y := by
  induction l generalizing i k with
  | nil => simp at hx
  | cons a l ih =>
    cases i with
    | zero =>
      cases k with
      | zero => simp_all
      | succ k =>
        simp only [List.getElem?_cons_zero, Option.some.injEq, List.getElem?_cons_succ] at hx hy
        exact hx ▸ le_of_lt (List.rel_of_sorted_cons hl y (List.getElem?_mem hy))
    | succ i =>
      cases k with
      | zero => omega
      | succ k => exact ih hl.of_cons (by simpa using hx) (by simpa using hy) (by omega)

/-- On a table in increasing order, the bin of an event id is the `j` with
`TagBin[j] ≤ eventID < TagBin[j+1]`: the bins do not overlap, so the first is the only one. -/
theorem binIndex_spec {l : List Int} (hl : l.Sorted (· < ·)) (e : Int) (j : Nat) :
    binIndex l e = some j ↔ ∃ a b, l[j]? = some a ∧ l[j + 1]? = some b ∧ a ≤ e ∧ e < b := by
  induction l generalizing j with
  | nil => simp [binIndex]
  | cons a l ih =>
    cases l with
    | nil => simp [binIndex]
    | cons b rest =>
      cases j with
      | zero => by_cases h : a ≤ e ∧ e < b <;> simp [binIndex, h]
      | succ k =>
        have key : ∀ n, (a :: b :: rest)[n + 1]? = (b :: rest)[n]? := fun _ => List.getElem?_cons_succ
        simp only [binIndex, key]
        split_ifs with h
        · -- the bins after the first start at `b`, above the id
          rw [Option.some.injEq, iff_false_intro (by omega : ¬0 = k + 1), false_iff]
          rintro ⟨c, d, hc, -, hce, -⟩
          have := le_of_sorted_getElem? hl.of_cons List.getElem?_cons_zero hc (Nat.zero_le _)
          omega
        · simp [Option.map_eq_some', ih hl.of_cons]

/-- `computePacketTag`: the packet tag of the event's procedure family; `-1` when the id is in no
bin (the message it then prints has no argument for its `%d`). -/
def computePacketTag (p : ProcIDs) (HDF_FAMILY eventID : Int) : Int :=
  match binIndex p.TagBin eventID with
  | some j => j * HDF_FAMILY
  | none => -1

/-- `computeProcMask`: the bit `1 << j` of the event's procedure family; `-1` when the id is in
no bin. -/
def computeProcMask (p : ProcIDs) (eventID : Int) : Int :=
  match binIndex p.TagBin eventID with
  | some j => 2 ^ j
  | none => -1

/-- On a table in increasing order, an event id in bin `j` gets the packet tag `j * HDF_FAMILY`
and the mask `1 << j`, and an id below `DUMMY_HDF`, or at or above `END_HDF`, gets `-1` from
both. -/
theorem computePacketTag_bins (p : ProcIDs) (hp : p.TagBin.Sorted (· < ·)) (HDF_FAMILY e : Int) :
    (∀ (j : Nat) a b, p.TagBin[j]? = some a → p.TagBin[j + 1]? = some b → a ≤ e → e < b →
      computePacketTag p HDF_FAMILY e = j * HDF_FAMILY ∧ computeProcMask p e = 2 ^ j) ∧
    (e < p.DUMMY_HDF ∨ p.END_HDF ≤ e →
      computePacketTag p HDF_FAMILY e = -1 ∧ computeProcMask p e = -1) := by
  refine ⟨fun j a b ha hb hae heb => ?_, fun he => ?_⟩
  · have hj := (binIndex_spec hp e j).mpr ⟨a, b, ha, hb, hae, heb⟩
    simp only [computePacketTag, computeProcMask, hj, and_self]
  · have hn : binIndex p.TagBin e = none := by
      rcases h : binIndex p.TagBin e with _ | j
      · rfl
      obtain ⟨a, b, ha, hb, hae, heb⟩ := (binIndex_spec hp e j).mp h
      have hlen : j + 1 < 19 := (List.getElem?_eq_some_iff.mp hb).1
      have h0 := le_of_sorted_getElem? hp (i := 0) (x := p.DUMMY_HDF) rfl ha (Nat.zero_le _)
      have h18 := le_of_sorted_getElem? hp hb (k := 18) (y := p.END_HDF) rfl (by omega)
      omega
    simp only [computePacketTag, computeProcMask, hn, and_self]

/-- A table of families a hundred ids apart: id `250` is in the bin of `ID_DFP`. -/
theorem computePacketTag_bins_hundreds :
    let p : ProcIDs := ⟨0, 100, 200, 300, 400, 500, 600, 700, 800, 900, 1000, 1100, 1200, 1300,
      1400, 1500, 1600, 1700, 1800⟩
    p.TagBin.Sorted (· < ·) ∧
      ((∀ (j : Nat) a b, p.TagBin[j]? = some a → p.TagBin[j + 1]? = some b → a ≤ 250 → 250 < b →
        computePacketTag p 8 250 = j * 8 ∧ computeProcMask p 250 = 2 ^ j) ∧
      (250 < p.DUMMY_HDF ∨ p.END_HDF ≤ 250 →
        computePacketTag p 8 250 = -1 ∧ computeProcMask p 250 = -1)) :=
  have hp : List.Sorted (· < ·) (ProcIDs.TagBin ⟨0, 100, 200, 300, 400, 500, 600, 700, 800, 900,
      1000, 1100, 1200, 1300, 1400, 1500, 1600, 1700, 1800⟩) := by decide
  ⟨hp, computePacketTag_bins _ hp 8 250⟩

end Pablo
end Hdf4
