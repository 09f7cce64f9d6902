import Hdf4.Pablo.Trace

/-!
# Pablo tracing: the I/O wrappers

Each `HDFtrace*` wrapper stands in for a call of the C library: with `IOtracingEnabled` set it
hands the tracer a begin record before the call and an end record after it, each with a
pointer to its data and a length. What the library call does to the files is outside the model;
what it returns, and what `c_mappedID` and `set_c_mappedID` return, are the wrapper's
parameters.

* `tracedCall` is the shape most wrappers share, and each of them is `tracedCall` applied to its
  own ids, data and lengths; `hdfTraceFFLUSH`, `hdfTraceFPUTC`, `hdfTraceFOPEN` and
  `hdfTrace3OPEN` have bodies of their own;
* `IOCall` lists the wrappers; `IOCall.run_frame`, `IOCall.run_paired` and `IOCall.run_sized`
  say once what one wrapper adds to the record;
* `runWrappers_events`: over every run of wrappers other than `fflush(NULL)` and an `fputc` that
  succeeds, the tracer receives one begin and one end record per call, in order; the first of
  the two exceptions hands it an end record alone, the second a begin record alone;
* `Sized`: a record hands the tracer no more bytes than its data has. Every wrapper's records are
  sized but the begin record of `HDFtraceFFLUSH`, of `int_SIZE` bytes at a null pointer;
* `fopenFlags` is the `open` flags `HDFtraceFOPEN` records for an `fopen` mode.
-/

namespace Hdf4
namespace Pablo

/-- What `fputc` returns when it fails, and the origin `HDFtraceREWIND` records, from
`<stdio.h>`. -/
def EOF : Int := -1
def SEEK_SET : Int := 0

/-- The `open` flags of `<fcntl.h>` that `HDFtraceFOPEN` records, with the values Linux gives
them. -/
def O_RDONLY : Nat := 0
def O_WRONLY : Nat := 1
def O_RDWR : Nat := 2
def O_CREAT : Nat := 64
def O_TRUNC : Nat := 512
def O_APPEND : Nat := 1024

/-- The lengths the wrappers pass: `sizeof` of the argument records of `IOTrace.h` and of
`HDFsetInfo`, `int_SIZE` and `long_SIZE`. Their values are not among the sources. -/
structure Sizes where
  open_args : Nat
  read_write_args : Nat
  seek_args : Nat
  HDFsetInfo : Nat
  int_SIZE : Nat
  long_SIZE : Nat

/-- The number of bytes a record's data has; none at a null pointer. -/
def Sizes.of (sz : Sizes) : EventData → Nat
  | .null => 0
  | .setInfo .. => sz.HDFsetInfo
  | .openArgs .. => sz.open_args
  | .readWriteArgs .. => sz.read_write_args
  | .seekArgs .. => sz.seek_args
  | .int _ => sz.int_SIZE
  | .long _ => sz.long_SIZE

/-- A record hands the tracer no more bytes than its data has, so the tracer reads neither
past the data nor at a null pointer. -/
def TracerCall.Sized (sz : Sizes) : TracerCall → Prop
  | .event _ _ d n => n ≤ sz.of d
  | _ => True

instance (sz : Sizes) : (c : TracerCall) → Decidable (c.Sized sz)
  | .event _ _ d n => inferInstanceAs (Decidable (n ≤ sz.of d))
  | .init .. | .finish _ | .setMappedID _ => isTrue trivial

namespace TracerCall

variable (sz : Sizes) (f : Format)

@[simp] theorem sized_event (id : EventID) (d : EventData) (n : Nat) :
    (event f id d n).Sized sz ↔ n ≤ sz.of d := Iff.rfl
@[simp] theorem sized_init (name : List Char) (mask : Nat) : (init f name mask).Sized sz := trivial
@[simp] theorem sized_finish : (finish f).Sized sz := trivial
@[simp] theorem sized_setMappedID (fd : Int) : (setMappedID fd).Sized sz := trivial

end TracerCall

/-! ## The wrappers -/

/-- The shape most wrappers share: with I/O tracing on, the begin record, then the call, then
with I/O tracing on the end record, whose data may hold what the call returned. -/
def tracedCall (st : TraceState) (beginID : EventID) (beginData : EventData) (beginLen : Nat)
    (endID : EventID) (endData : EventData) (endLen : Nat) : TraceState :=
  let st := if st.IOtracingEnabled ≠ 0 then traceIOEvent st beginID beginData beginLen else st
  if st.IOtracingEnabled ≠ 0 then traceIOEvent st endID endData endLen else st

section Wrappers

variable (sz : Sizes) (st : TraceState)

/-- `HDFtraceREAD`: `id` is what `c_mappedID(fd)` returns, `ret` what `read` returns. -/
def hdfTraceREAD (id ret : Int) : TraceState × Int :=
  (tracedCall st (.ioBegin .read) (.readWriteArgs id 1 (-1)) sz.read_write_args
    (.ioEnd .read) (.int ret) sz.int_SIZE, ret)

/-- `HDFtraceFREAD`: the end record holds the bytes read, `ret * size` in `int`. -/
def hdfTraceFREAD (size nitems id ret : Int) : TraceState × Int :=
  (tracedCall st (.ioBegin .fread) (.readWriteArgs id nitems (-1)) sz.read_write_args
    (.ioEnd .fread) (.int (wrap32 (ret * size))) sz.int_SIZE, ret)

/-- `HDFtraceWRITE`: as `HDFtraceREAD`, for `write`. -/
def hdfTraceWRITE (id ret : Int) : TraceState × Int :=
  (tracedCall st (.ioBegin .write) (.readWriteArgs id 1 (-1)) sz.read_write_args
    (.ioEnd .write) (.int ret) sz.int_SIZE, ret)

/-- `HDFtraceFWRITE`: the end record holds the bytes written, `ret * size` in `int`. -/
def hdfTraceFWRITE (size nitems id ret : Int) : TraceState × Int :=
  (tracedCall st (.ioBegin .fwrite) (.readWriteArgs id nitems (-1)) sz.read_write_args
    (.ioEnd .fwrite) (.int (wrap32 (ret * size))) sz.int_SIZE, ret)

/-- `HDFtracePUTS`, on `stdout`. -/
def hdfTracePUTS (id ret : Int) : TraceState × Int :=
  (tracedCall st (.ioBegin .fwrite) (.readWriteArgs id 1 (-1)) sz.read_write_args
    (.ioEnd .fwrite) (.int ret) sz.int_SIZE, ret)

/-- `HDFtraceFPUTS`: recorded as an `fwrite` of one item, the end record holding what `fputs`
returned. -/
def hdfTraceFPUTS (id ret : Int) : TraceState × Int :=
  (tracedCall st (.ioBegin .fwrite) (.readWriteArgs id 1 (-1)) sz.read_write_args
    (.ioEnd .fwrite) (.int ret) sz.int_SIZE, ret)

/-- `HDFtraceFPUTC`: the end record, of `0` bytes written, is made only when `fputc` returns
`EOF`. -/
def hdfTraceFPUTC (id ret : Int) : TraceState × Int :=
  let st := if st.IOtracingEnabled ≠ 0 then
    traceIOEvent st (.ioBegin .fwrite) (.readWriteArgs id 1 (-1)) sz.read_write_args else st
  let st := if st.IOtracingEnabled ≠ 0 ∧ ret = EOF then
    traceIOEvent st (.ioEnd .fwrite) (.int 0) sz.int_SIZE else st
  (st, ret)

/-- `HDFtraceLSEEK`: the offset is recorded as an `int`, the result as a `long`. -/
def hdfTraceLSEEK (offset whence id ret : Int) : TraceState × Int :=
  (tracedCall st (.ioBegin .lseek) (.seekArgs id (wrap32 offset) whence) sz.seek_args
    (.ioEnd .lseek) (.long ret) sz.long_SIZE, ret)

/-- `HDFtraceFSEEK`: the end record holds `ftell` after the seek, `pos`. -/
def hdfTraceFSEEK (offset whence id ret pos : Int) : TraceState × Int :=
  (tracedCall st (.ioBegin .fseek) (.seekArgs id (wrap32 offset) whence) sz.seek_args
    (.ioEnd .fseek) (.long pos) sz.long_SIZE, ret)

/-- `HDFtraceREWIND`: recorded as a seek to offset 0 from `SEEK_SET`, ending at position 0. -/
def hdfTraceREWIND (id : Int) : TraceState :=
  tracedCall st (.ioBegin .rewind) (.seekArgs id 0 SEEK_SET) sz.seek_args
    (.ioEnd .rewind) (.long 0) sz.long_SIZE

/-- `HDFtraceFCLOSE`: the begin record holds the id, the end record no data. -/
def hdfTraceFCLOSE (id ret : Int) : TraceState × Int :=
  (tracedCall st (.ioBegin .fclose) (.int id) sz.int_SIZE (.ioEnd .fclose) .null 0, ret)

/-- `HDFtraceCLOSE`: as `HDFtraceFCLOSE`, for `close`. -/
def hdfTraceCLOSE (id ret : Int) : TraceState × Int :=
  (tracedCall st (.ioBegin .close) (.int id) sz.int_SIZE (.ioEnd .close) .null 0, ret)

/-- `HDFtraceFFLUSH`: a null stream, which flushes every stream, gets no begin record and the
id `-2`; any other gets a begin record of `int_SIZE` bytes at a null pointer. The end record
points at the id with a length of `0`. -/
def hdfTraceFFLUSH (streamNull : Bool) (mapped ret : Int) : TraceState × Int :=
  let id : Int := if streamNull then -2 else mapped
  let st := if st.IOtracingEnabled ≠ 0 ∧ streamNull = false then
    traceIOEvent st (.ioBegin .fflush) .null sz.int_SIZE else st
  let st := if st.IOtracingEnabled ≠ 0 then traceIOEvent st (.ioEnd .fflush) (.int id) 0 else st
  (st, ret)

/-- `HDFtrace3OPEN`: whatever `open` returns, even `-1`, is handed to `set_c_mappedID`, whose
result `mappedId` the end record holds. -/
def hdfTrace3OPEN (path : List Char) (flags : Nat) (mode fd mappedId : Int) : TraceState × Int :=
  let st := if st.IOtracingEnabled ≠ 0 then
    traceIOEvent st (.ioBegin .openFd) (.openArgs path flags mode) sz.open_args else st
  let st := st.call (.setMappedID fd)
  let st := if st.IOtracingEnabled ≠ 0 then
    traceIOEvent st (.ioEnd .openFd) (.int mappedId) sz.int_SIZE else st
  (st, fd)

/-- `HDFtraceCREAT`: `creat` is `open` with `O_WRONLY | O_CREAT | O_TRUNC`. -/
def hdfTraceCREAT (path : List Char) (mode fd mappedId : Int) : TraceState × Int :=
  hdfTrace3OPEN sz st path (O_WRONLY ||| O_CREAT ||| O_TRUNC) mode fd mappedId

end Wrappers

/-- The `open` flags `HDFtraceFOPEN` records for an `fopen` mode: a mode of two characters whose
second is `b` counts as one character; a mode of one character opens for reading, writing or
appending, a longer one the same for reading and writing. -/
def fopenFlags (type : List Char) : Nat :=
  let typeLen := if type.length = 2 ∧ type[1]? = some 'b' then 1 else type.length
  if typeLen = 1 then
    match type.head? with
    | some 'r' => 0 ||| O_RDONLY
    | some 'w' => O_TRUNC ||| O_CREAT ||| O_WRONLY
    | some 'a' => 0 ||| O_APPEND ||| O_CREAT ||| O_WRONLY
    | _ => 0
  else
    match type.head? with
    | some 'r' => O_RDWR
    | some 'w' => O_TRUNC ||| O_CREAT ||| O_RDWR
    | some 'a' => O_APPEND ||| O_CREAT ||| O_RDWR
    | _ => 0

-- `rb` is recorded as `fopen` opens it, but a second character other than `b`, such as the
-- close-on-exec `e` of POSIX.1-2024, makes a read-only mode a recorded read and write open
example : fopenFlags ['r', 'b'] = O_RDONLY := rfl
example : fopenFlags ['r', 'e'] = O_RDWR := rfl

/-- `HDFtraceFOPEN`: `fp` is the descriptor of the stream `fopen` returns, `none` for `NULL`; a
stream gets the id `set_c_mappedID` returns, `mappedId`, and a failure the id `-1`. -/
def hdfTraceFOPEN (sz : Sizes) (st : TraceState) (filename type : List Char) (fp : Option Int)
    (mappedId : Int) : TraceState × Option Int :=
  let st := if st.IOtracingEnabled ≠ 0 then
    traceIOEvent st (.ioBegin .fopen) (.openArgs filename (fopenFlags type) (-1)) sz.open_args
    else st
  let (st, id) : TraceState × Int := match fp with
    | some fd => (st.call (.setMappedID fd), mappedId)
    | none => (st, -1)
  let st := if st.IOtracingEnabled ≠ 0 then
    traceIOEvent st (.ioEnd .fopen) (.int id) sz.int_SIZE else st
  (st, fp)

/-! ## One wrapper, and a run of them -/

/-- A call of a wrapper, with what its C call, `c_mappedID` and `set_c_mappedID` return. -/
inductive IOCall
  | fopen (filename type : List Char) (fp : Option Int) (mappedId : Int)
  | open3 (path : List Char) (flags : Nat) (mode fd mappedId : Int)
  | creat (path : List Char) (mode fd mappedId : Int)
  | fflush (streamNull : Bool) (mapped ret : Int)
  | fclose (id ret : Int)
  | close (id ret : Int)
  | read (id ret : Int)
  | fread (size nitems id ret : Int)
  | lseek (offset whence id ret : Int)
  | fseek (offset whence id ret pos : Int)
  | rewind (id : Int)
  | write (id ret : Int)
  | fwrite (size nitems id ret : Int)
  | puts (id ret : Int)
  | fputc (id ret : Int)
  | fputs (id ret : Int)
  deriving DecidableEq, Repr

namespace IOCall

/-- The state a wrapper leaves. -/
def run (sz : Sizes) (st : TraceState) : IOCall → TraceState
  | .fopen filename type fp mappedId => (hdfTraceFOPEN sz st filename type fp mappedId).1
  | .open3 path flags mode fd mappedId => (hdfTrace3OPEN sz st path flags mode fd mappedId).1
  | .creat path mode fd mappedId => (hdfTraceCREAT sz st path mode fd mappedId).1
  | .fflush streamNull mapped ret => (hdfTraceFFLUSH sz st streamNull mapped ret).1
  | .fclose id ret => (hdfTraceFCLOSE sz st id ret).1
  | .close id ret => (hdfTraceCLOSE sz st id ret).1
  | .read id ret => (hdfTraceREAD sz st id ret).1
  | .fread size nitems id ret => (hdfTraceFREAD sz st size nitems id ret).1
  | .lseek offset whence id ret => (hdfTraceLSEEK sz st offset whence id ret).1
  | .fseek offset whence id ret pos => (hdfTraceFSEEK sz st offset whence id ret pos).1
  | .rewind id => hdfTraceREWIND sz st id
  | .write id ret => (hdfTraceWRITE sz st id ret).1
  | .fwrite size nitems id ret => (hdfTraceFWRITE sz st size nitems id ret).1
  | .puts id ret => (hdfTracePUTS sz st id ret).1
  | .fputc id ret => (hdfTraceFPUTC sz st id ret).1
  | .fputs id ret => (hdfTraceFPUTS sz st id ret).1

/-- The operation whose begin and end ids a wrapper uses. -/
def op : IOCall → IOOp
  | .fopen .. => .fopen
  | .open3 .. | .creat .. => .openFd
  | .fflush .. => .fflush
  | .fclose .. => .fclose
  | .close .. => .close
  | .read .. => .read
  | .fread .. => .fread
  | .lseek .. => .lseek
  | .fseek .. => .fseek
  | .rewind .. => .rewind
  | .write .. => .write
  | .fwrite .. | .puts .. | .fputc .. | .fputs .. => .fwrite

/-- The calls that hand the tracer both a begin and an end record: all but `fflush` of a null
stream, and an `fputc` that does not return `EOF`. -/
def Paired : IOCall → Prop
  | .fflush streamNull _ _ => streamNull = true → False
  | .fputc _ ret => ret = EOF
  | _ => True

/-- The calls whose records are all sized: all but `fflush` of a stream. -/
def SizedCall : IOCall → Prop
  | .fflush streamNull _ _ => streamNull = true
  | _ => True

end IOCall

/-- Run wrappers one after another. -/
def runWrappers (sz : Sizes) : List IOCall → TraceState → TraceState
  | [], st => st
  | c :: cs, st => runWrappers sz cs (c.run sz st)

/-- The event a call into the tracer is, with the tracer it goes to. -/
def TracerCall.eventOf : TracerCall → Option (Format × EventID)
  | .event fmt id _ _ => some (fmt, id)
  | _ => none

/-- The events of a record of calls, with the tracer each went to. -/
def events (cs : List TracerCall) : List (Format × EventID) := cs.filterMap TracerCall.eventOf

@[simp] theorem events_append (cs cs' : List TracerCall) : events (cs ++ cs') = events cs ++ events cs' :=
  List.filterMap_append ..

@[simp] theorem events_nil : events [] = [] := rfl

@[simp] theorem events_cons (c : TracerCall) (cs : List TracerCall) :
    events (c :: cs) = c.eventOf.toList ++ events cs := by
  cases c <;> rfl

/-- `st` with more calls made. -/
def TraceState.add (st : TraceState) (l : List TracerCall) : TraceState :=
  { st with calls := st.calls ++ l }

namespace TraceState

variable (st : TraceState) (l : List TracerCall)

@[simp] theorem add_calls : (st.add l).calls = st.calls ++ l := rfl
@[simp] theorem add_OUTPUT_SWITCH : (st.add l).OUTPUT_SWITCH = st.OUTPUT_SWITCH := rfl
@[simp] theorem add_IOtracingEnabled : (st.add l).IOtracingEnabled = st.IOtracingEnabled := rfl
@[simp] theorem add_procTrace : (st.add l).procTrace = st.procTrace := rfl
@[simp] theorem fmt_add : (st.add l).fmt = st.fmt := rfl
@[simp] theorem add_nil : st.add [] = st := by simp [add]
@[simp] theorem add_add (l' : List TracerCall) : (st.add l).add l' = st.add (l ++ l') := by
  simp [add]
theorem call_eq_add (c : TracerCall) : st.call c = st.add [c] := rfl

end TraceState

/-! ### What each wrapper adds -/

section NormalForms

variable (sz : Sizes) (st : TraceState)

theorem tracedCall_eq (b : EventID) (bd : EventData) (bl : Nat) (e : EventID) (ed : EventData)
    (el : Nat) : tracedCall st b bd bl e ed el =
      st.add (if st.IOtracingEnabled = 0 then [] else [.event st.fmt b bd bl, .event st.fmt e ed el]) := by
  by_cases h : st.IOtracingEnabled = 0 <;> simp [tracedCall, traceIOEvent, TraceState.call_eq_add, h]

theorem hdfTraceFPUTC_eq (id ret : Int) : (hdfTraceFPUTC sz st id ret).1 = st.add
    ((if st.IOtracingEnabled = 0 then [] else
      [.event st.fmt (.ioBegin .fwrite) (.readWriteArgs id 1 (-1)) sz.read_write_args]) ++
    (if st.IOtracingEnabled = 0 ∨ ret ≠ EOF then [] else [.event st.fmt (.ioEnd .fwrite) (.int 0) sz.int_SIZE])) := by
  by_cases h : st.IOtracingEnabled = 0 <;> by_cases hr : ret = EOF <;>
    simp [hdfTraceFPUTC, traceIOEvent, TraceState.call_eq_add, h, hr]

theorem hdfTraceFFLUSH_eq (streamNull : Bool) (mapped ret : Int) :
    (hdfTraceFFLUSH sz st streamNull mapped ret).1 = st.add
      (if st.IOtracingEnabled = 0 then [] else
        (if streamNull then [] else [.event st.fmt (.ioBegin .fflush) .null sz.int_SIZE]) ++
          [.event st.fmt (.ioEnd .fflush) (.int (if streamNull then -2 else mapped)) 0]) := by
  by_cases h : st.IOtracingEnabled = 0 <;> cases streamNull <;>
    simp [hdfTraceFFLUSH, traceIOEvent, TraceState.call_eq_add, h]

-- with tracing on, `fflush(NULL)` hands the tracer an end record with no begin record, and an
-- `fputc` that does not return `EOF` a begin record with no end record
example : events (hdfTraceFFLUSH ⟨24, 12, 12, 16, 4, 8⟩ (TraceState.initial 1) true 5 0).1.calls =
    [((TraceState.initial 1).fmt, .ioEnd .fflush)] := by decide
example : events (hdfTraceFPUTC ⟨24, 12, 12, 16, 4, 8⟩ (TraceState.initial 1) 5 97).1.calls =
    [((TraceState.initial 1).fmt, .ioBegin .fwrite)] := by decide

theorem hdfTrace3OPEN_eq (path : List Char) (flags : Nat) (mode fd mappedId : Int) :
    (hdfTrace3OPEN sz st path flags mode fd mappedId).1 = st.add
      (if st.IOtracingEnabled = 0 then [.setMappedID fd] else
        [.event st.fmt (.ioBegin .openFd) (.openArgs path flags mode) sz.open_args, .setMappedID fd,
          .event st.fmt (.ioEnd .openFd) (.int mappedId) sz.int_SIZE]) := by
  by_cases h : st.IOtracingEnabled = 0 <;> simp [hdfTrace3OPEN, traceIOEvent, TraceState.call_eq_add, h]

theorem hdfTraceFOPEN_eq (filename type : List Char) (fp : Option Int) (mappedId : Int) :
    (hdfTraceFOPEN sz st filename type fp mappedId).1 = st.add
      ((if st.IOtracingEnabled = 0 then [] else
        [.event st.fmt (.ioBegin .fopen) (.openArgs filename (fopenFlags type) (-1)) sz.open_args]) ++
      fp.toList.map .setMappedID ++
      (if st.IOtracingEnabled = 0 then [] else
        [.event st.fmt (.ioEnd .fopen) (.int (fp.elim (-1) fun _ => mappedId)) sz.int_SIZE])) := by
  by_cases h : st.IOtracingEnabled = 0 <;> cases fp <;>
    simp [hdfTraceFOPEN, traceIOEvent, TraceState.call_eq_add, h]

end NormalForms

/-- A call the tracer protocol allows after the state `st` routes events to `fmt`: an event to
`fmt`, or a `set_c_mappedID`. -/
def TracerCall.Harmless (fmt : Format) : TracerCall → Prop
  | .event f _ _ _ => f = fmt
  | .setMappedID _ => True
  | _ => False

/-- Calls that keep to the routed tracer keep the state routed. -/
theorem Routed.add {st : TraceState} (h : Routed st) {l : List TracerCall}
    (hl : ∀ r ∈ l, r.Harmless st.fmt) : Routed (st.add l) := by
  induction l generalizing st with
  | nil => simpa using h
  | cons r l ih =>
    have h₁ : Routed (st.add [r]) := by
      have hr := hl r (List.mem_cons_self _ _)
      cases r with
      | event f id d n => simp only [TracerCall.Harmless] at hr; subst hr; exact h.event id d n
      | setMappedID fd => simpa [Routed, Protocol.step] using h
      | init _ _ _ => exact hr.elim
      | finish _ => exact hr.elim
    simpa using ih h₁ fun r' hr' => by simpa using hl r' (List.mem_cons_of_mem _ hr')

section Step

variable (sz : Sizes) (st : TraceState)

/-- A traced call adds records to the tracer `OUTPUT_SWITCH` names, sized when its two lengths
fit their data. -/
theorem tracedCall_spec (b : EventID) (bd : EventData) (bl : Nat) (e : EventID) (ed : EventData)
    (el : Nat) (hb : bl ≤ sz.of bd) (he : el ≤ sz.of ed) :
    ∃ l, tracedCall st b bd bl e ed el = st.add l ∧ ∀ r ∈ l, r.Harmless st.fmt ∧ r.Sized sz := by
  rw [tracedCall_eq]
  refine ⟨_, rfl, ?_⟩
  split_ifs <;> simp [TracerCall.Harmless, hb, he]

/-- What one wrapper can do: add calls to the record, each an event to the tracer
`OUTPUT_SWITCH` names or a `set_c_mappedID`, and each sized unless the wrapper is `fflush` of a
stream. -/
theorem IOCall.run_spec (c : IOCall) :
    ∃ l, c.run sz st = st.add l ∧ ∀ r ∈ l, r.Harmless st.fmt ∧ (c.SizedCall → r.Sized sz) := by
  have traced : ∀ {b bd bl e ed el}, bl ≤ sz.of bd → el ≤ sz.of ed → ∃ l,
      tracedCall st b bd bl e ed el = st.add l ∧ ∀ r ∈ l, r.Harmless st.fmt ∧ (c.SizedCall → r.Sized sz) :=
    fun hb he => (tracedCall_spec sz st _ _ _ _ _ _ hb he).imp fun _ h =>
      ⟨h.1, fun r hr => ⟨(h.2 r hr).1, fun _ => (h.2 r hr).2⟩⟩
  cases c
  case fopen | open3 | creat | fflush | fputc =>
    -- the five with bodies of their own
    clear traced
    (try cases ‹Option Int›) <;>
      simp only [IOCall.run, hdfTraceFOPEN_eq, hdfTrace3OPEN_eq, hdfTraceCREAT, hdfTraceFFLUSH_eq,
        hdfTraceFPUTC_eq] <;>
      refine ⟨_, rfl, ?_⟩ <;> split_ifs <;>
      simp_all [TracerCall.Harmless, Sizes.of, IOCall.SizedCall]
  -- the wrappers of the shared shape pass lengths that fit their data
  all_goals exact traced le_rfl le_rfl

theorem IOCall.run_fmt (c : IOCall) : (c.run sz st).fmt = st.fmt ∧
    (c.run sz st).IOtracingEnabled = st.IOtracingEnabled := by
  obtain ⟨l, hl, -⟩ := c.run_spec sz st
  simp [hl]

/-- A paired wrapper adds the begin and the end record of its operation, with tracing on, and
no event with tracing off. -/
theorem IOCall.run_events (c : IOCall) (hc : c.Paired) :
    events (c.run sz st).calls = events st.calls ++
      if st.IOtracingEnabled = 0 then [] else [(st.fmt, .ioBegin c.op), (st.fmt, .ioEnd c.op)] := by
  cases c <;> (try cases ‹Option Int›) <;> (try cases ‹Bool›) <;>
    simp only [IOCall.run, hdfTraceFOPEN_eq, hdfTrace3OPEN_eq, hdfTraceCREAT, hdfTraceFFLUSH_eq,
      hdfTraceFCLOSE, hdfTraceCLOSE, hdfTraceREAD, hdfTraceFREAD, hdfTraceLSEEK, hdfTraceFSEEK,
      hdfTraceREWIND, hdfTraceWRITE, hdfTraceFWRITE, hdfTracePUTS, hdfTraceFPUTC_eq, hdfTraceFPUTS,
      tracedCall_eq] <;>
    by_cases h : st.IOtracingEnabled = 0 <;>
    simp_all [IOCall.Paired, IOCall.op, TracerCall.eventOf]

end Step

/-- Over every run of wrappers but `fflush(NULL)` and an `fputc` that succeeds, the tracer
`OUTPUT_SWITCH` names receives, with tracing on, a begin and an end record of each call's
operation, in the order of the calls, and no event with tracing off. -/
theorem runWrappers_events (sz : Sizes) (cs : List IOCall) (st : TraceState) (hc : ∀ c ∈ cs, c.Paired) :
    events (runWrappers sz cs st).calls = events st.calls ++
      if st.IOtracingEnabled = 0 then []
      else cs.flatMap fun c => [(st.fmt, .ioBegin c.op), (st.fmt, .ioEnd c.op)] := by
  induction cs generalizing st with
  | nil => simp [runWrappers]
  | cons c cs ih =>
    obtain ⟨hf, he⟩ := c.run_fmt sz st
    rw [runWrappers, ih _ fun c' h' => hc c' (List.mem_cons_of_mem _ h'),
      c.run_events sz st (hc c (List.mem_cons_self _ _)), hf, he]
    split_ifs <;> simp

/-- A run that opens a file, reads from it and closes it, with tracing on. -/
theorem runWrappers_events_open_read_close :
    let sz : Sizes := ⟨24, 12, 12, 16, 4, 8⟩
    let cs : List IOCall := [.open3 "data.hdf".toList 2 0 3 7, .read 7 100, .close 7 0]
    (∀ c ∈ cs, c.Paired) ∧ events (runWrappers sz cs (TraceState.initial 1)).calls =
      events (TraceState.initial 1).calls ++
        if (TraceState.initial 1).IOtracingEnabled = 0 then []
        else cs.flatMap fun c => [((TraceState.initial 1).fmt, .ioBegin c.op),
          ((TraceState.initial 1).fmt, .ioEnd c.op)] :=
  have hc : ∀ c ∈ ([.open3 "data.hdf".toList 2 0 3 7, .read 7 100, .close 7 0] : List IOCall),
      c.Paired := by simp [IOCall.Paired]
  ⟨hc, runWrappers_events _ _ _ hc⟩

end Pablo
end Hdf4
