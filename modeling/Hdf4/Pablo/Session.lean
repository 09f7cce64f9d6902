import Hdf4.Pablo.Wrappers

/-!
# Pablo tracing: sessions

A traced program calls `HDFinitTrace`, then HDF procedures, which report their begin and end
events, and I/O wrappers, and at last `HDFendTrace`. This file runs such calls one after
another, stopping where `HDFinitTrace` exits the program, and states what holds over every run.

* `ApiCall` and `runApi`: a run of calls into the front end;
* `runApi_sized`: over every run without an `fflush` of a stream, every record the tracer gets
  is sized;
* `runApi_routed`: from a routed state, calls other than `HDFendTrace` and an `HDFinitTrace`
  that opens no tracer never exit and keep the state routed; `runApi_session` closes a whole
  session with `HDFendTrace`, and every event of it goes to an open tracer;
* `protocol_broken`: the front end reports I/O to a tracer that is not open after
  `HDFendTrace`, which leaves `IOtracingEnabled` set, and after `HDFinitTrace` of `NO_OUTPUT`.
-/

namespace Hdf4
namespace Pablo

/-- A call into the front end. -/
inductive ApiCall
  /-- `HDFinitTrace`, with the file name, the mask of procedure families and `OUTPUT_SWITCH`. -/
  | initTrace (traceFileName : List Char) (procTraceMask : Nat) (out_sw : Int)
  /-- `hinittracex_`, the Fortran entry, with the name's length. -/
  | initTraceFortran (file : List Char) (len procMask : Nat) (out_sw : Int)
  /-- `HDFendTrace` or `hdfendtrace_`. -/
  | endTrace
  /-- `startHDFtraceEvent` of an event id. -/
  | startEvent (eventID : Int)
  /-- `endHDFtraceEvent`, with the data set the event closes on. -/
  | endEvent (eventID setID : Int) (setName : List Char) (IDtype : Int)
  /-- An I/O wrapper. -/
  | io (c : IOCall)

/-- One call; `HDFinitTrace` may exit the program. -/
def ApiCall.run (sz : Sizes) (st : TraceState) : ApiCall → Except Exit TraceState
  | .initTrace name mask out_sw => hdfInitTrace st name mask out_sw
  | .initTraceFortran file len mask out_sw => hinittracex st file len mask out_sw
  | .endTrace => .ok (hdfEndTrace st)
  | .startEvent eventID => .ok (startHDFtraceEvent st eventID)
  | .endEvent eventID setID setName IDtype => .ok (endHDFtraceEvent st eventID setID setName IDtype)
  | .io c => .ok (c.run sz st)

/-- A run of calls: the state it ends in, and the exit if a call ended the program. -/
def runApi (sz : Sizes) : List ApiCall → TraceState → TraceState × Option Exit
  | [], st => (st, none)
  | c :: cs, st =>
    match c.run sz st with
    | .ok st' => runApi sz cs st'
    | .error e => (st, some e)

/-- A run of calls that does not exit goes on with the calls after it. -/
theorem runApi_append_of_none (sz : Sizes) (cs cs' : List ApiCall) (st : TraceState)
    (h : (runApi sz cs st).2 = none) : runApi sz (cs ++ cs') st = runApi sz cs' (runApi sz cs st).1 := by
  induction cs generalizing st with
  | nil => rfl
  | cons c cs ih =>
    simp only [runApi] at h
    rcases hc : c.run sz st with e | st'
    · simp [hc] at h
    · rw [hc] at h
      simp only [List.cons_append, runApi, hc]
      exact ih st' h

/-! ## Sized records -/

/-- The calls whose records are all sized: all but `fflush` of a stream. -/
def ApiCall.SizedCall : ApiCall → Prop
  | .io c => c.SizedCall
  | _ => True

theorem hdfEndTrace_calls (st : TraceState) :
    ∃ l, (hdfEndTrace st).calls = st.calls ++ l ∧ ∀ r ∈ l, ∃ f, r = .finish f := by
  unfold hdfEndTrace
  split_ifs <;> simp

theorem ApiCall.run_sized {sz : Sizes} {st st' : TraceState} (c : ApiCall) (hc : c.SizedCall)
    (h : ∀ r ∈ st.calls, r.Sized sz) (hr : c.run sz st = .ok st') : ∀ r ∈ st'.calls, r.Sized sz := by
  have hinit : ∀ {name mask out_sw}, hdfInitTrace st name mask out_sw = .ok st' →
      ∀ r ∈ st'.calls, r.Sized sz := fun hi => by
    obtain ⟨-, -, ⟨-, hc⟩ | ⟨-, hc⟩ | ⟨-, hc⟩⟩ := hdfInitTrace_eq_ok hi <;> rw [hc]
    all_goals first | exact h | exact List.forall_mem_append.2 ⟨h, by simp⟩
  cases c with
  | initTrace name mask out_sw => exact hinit hr
  | initTraceFortran file len mask out_sw => exact hinit hr
  | io c =>
    simp only [ApiCall.run, Except.ok.injEq] at hr
    subst hr
    obtain ⟨l, hl, hs⟩ := c.run_spec sz st
    rw [hl, TraceState.add_calls]
    exact List.forall_mem_append.2 ⟨h, fun r hr => (hs r hr).2 hc⟩
  | endTrace =>
    simp only [ApiCall.run, Except.ok.injEq] at hr
    subst hr
    obtain ⟨l, hl, hf⟩ := hdfEndTrace_calls st
    rw [hl]
    exact List.forall_mem_append.2 ⟨h, fun r hr => by obtain ⟨f, rfl⟩ := hf r hr; trivial⟩
  | startEvent eventID =>
    simp only [ApiCall.run, Except.ok.injEq] at hr
    subst hr
    exact List.forall_mem_append.2 ⟨h, by simp [Sizes.of]⟩
  | endEvent eventID setID setName IDtype =>
    simp only [ApiCall.run, Except.ok.injEq] at hr
    subst hr
    exact List.forall_mem_append.2 ⟨h, by simp⟩

/-- Over every run without an `fflush` of a stream, from a record whose calls are sized, every
record the tracer gets hands it no more bytes than its data has, up to where the run ends or the
program exits. -/
theorem runApi_sized (sz : Sizes) (cs : List ApiCall) (st : TraceState)
    (hc : ∀ c ∈ cs, c.SizedCall) (h : ∀ r ∈ st.calls, r.Sized sz) :
    ∀ r ∈ (runApi sz cs st).1.calls, r.Sized sz := by
  induction cs generalizing st with
  | nil => exact h
  | cons c cs ih =>
    simp only [runApi]
    split
    · rename_i st' hst
      exact ih st' (fun c' h' => hc c' (List.mem_cons_of_mem _ h'))
        (c.run_sized (hc c (List.mem_cons_self _ _)) h hst)
    · exact h

/-- A session from the start of the program: SDDF tracing, one traced procedure that reads a
file, and the end of the trace. -/
theorem runApi_sized_session :
    let cs : List ApiCall := [.initTrace "run.sddf".toList 0 SDDF_OUTPUT, .startEvent 7,
      .io (.read 3 10), .endEvent 7 1 "set".toList 0, .endTrace]
    (∀ c ∈ cs, c.SizedCall) ∧ (∀ r ∈ (TraceState.initial 0).calls, r.Sized ⟨24, 12, 12, 16, 4, 8⟩) ∧
      ∀ r ∈ (runApi ⟨24, 12, 12, 16, 4, 8⟩ cs (TraceState.initial 0)).1.calls,
        r.Sized ⟨24, 12, 12, 16, 4, 8⟩ :=
  have hc : ∀ c ∈ ([.initTrace "run.sddf".toList 0 SDDF_OUTPUT, .startEvent 7, .io (.read 3 10),
      .endEvent 7 1 "set".toList 0, .endTrace] : List ApiCall), c.SizedCall := by
    simp [ApiCall.SizedCall, IOCall.SizedCall]
  have h : ∀ r ∈ (TraceState.initial 0).calls, r.Sized ⟨24, 12, 12, 16, 4, 8⟩ := by
    simp [TraceState.initial]
  ⟨hc, h, runApi_sized _ _ _ hc h⟩

/-! ## The tracers' protocol over a session -/

/-- The calls that keep every event going to an open tracer: all but `HDFendTrace`, and an
`HDFinitTrace` of anything but the SDDF or the real-time tracer. -/
def ApiCall.KeepsOpen : ApiCall → Prop
  | .initTrace _ _ out_sw => out_sw = SDDF_OUTPUT ∨ out_sw = RT_OUTPUT
  | .initTraceFortran _ _ _ out_sw => out_sw = SDDF_OUTPUT ∨ out_sw = RT_OUTPUT
  | .endTrace => False
  | _ => True

theorem hdfInitTrace_routed_ok (st : TraceState) (h : Routed st) (name : List Char) (mask : Nat)
    {out_sw : Int} (ho : out_sw = SDDF_OUTPUT ∨ out_sw = RT_OUTPUT) :
    ∃ st', hdfInitTrace st name mask out_sw = .ok st' ∧ Routed st' := by
  have hok : ∃ st', hdfInitTrace st name mask out_sw = .ok st' := by
    rcases ho with rfl | rfl <;> exact ⟨_, rfl⟩
  obtain ⟨st', hst⟩ := hok
  exact ⟨st', hst, hdfInitTrace_routed h.1 ho hst⟩

theorem ApiCall.run_routed (sz : Sizes) {st : TraceState} (c : ApiCall) (hc : c.KeepsOpen)
    (h : Routed st) : ∃ st', c.run sz st = .ok st' ∧ Routed st' := by
  cases c with
  | initTrace name mask out_sw => exact hdfInitTrace_routed_ok st h name mask hc
  | initTraceFortran file len mask out_sw => exact hdfInitTrace_routed_ok st h _ mask hc
  | endTrace => exact hc.elim
  | startEvent eventID => exact ⟨_, rfl, startHDFtraceEvent_routed h eventID⟩
  | endEvent eventID setID setName IDtype =>
    exact ⟨_, rfl, endHDFtraceEvent_routed h eventID setID setName IDtype⟩
  | io c =>
    obtain ⟨l, hl, hs⟩ := c.run_spec sz st
    exact ⟨_, rfl, hl ▸ h.add fun r hr => (hs r hr).1⟩

/-- From a routed state, a run of calls other than `HDFendTrace` and an `HDFinitTrace` that
opens no tracer never exits, and stays routed. -/
theorem runApi_routed (sz : Sizes) (cs : List ApiCall) (st : TraceState) (h : Routed st)
    (hc : ∀ c ∈ cs, c.KeepsOpen) : (runApi sz cs st).2 = none ∧ Routed (runApi sz cs st).1 := by
  induction cs generalizing st with
  | nil => exact ⟨rfl, h⟩
  | cons c cs ih =>
    obtain ⟨st', hst, h'⟩ := c.run_routed sz (hc c (List.mem_cons_self _ _)) h
    simp only [runApi, hst]
    exact ih st' h' fun c' h'' => hc c' (List.mem_cons_of_mem _ h'')

/-- Ending tracers adds no event, so a record that obeys the protocol still does. -/
theorem protocol_ok_finish {cs l : List TracerCall} (hcs : (protocol cs).ok = true)
    (hl : ∀ r ∈ l, ∃ f, r = .finish f) : (protocol (cs ++ l)).ok = true := by
  induction l generalizing cs with
  | nil => simpa using hcs
  | cons r l ih =>
    obtain ⟨f, rfl⟩ := hl r (List.mem_cons_self _ _)
    rw [← List.singleton_append, ← List.append_assoc]
    exact ih (by simpa [Protocol.step] using hcs) fun r hr => hl r (List.mem_cons_of_mem _ hr)

/-- A session that opens the SDDF or the real-time tracer, makes any calls but `HDFendTrace`
and an `HDFinitTrace` that opens no tracer, and ends the trace, on a record that obeys the
protocol: it never exits, and every event of it goes to an open tracer. -/
theorem runApi_session (sz : Sizes) (st : TraceState) (h : Obeys st.calls) (name : List Char)
    (mask : Nat) (out_sw : Int) (ho : out_sw = SDDF_OUTPUT ∨ out_sw = RT_OUTPUT)
    (body : List ApiCall) (hb : ∀ c ∈ body, c.KeepsOpen) :
    (runApi sz (.initTrace name mask out_sw :: body ++ [.endTrace]) st).2 = none ∧
      Obeys (runApi sz (.initTrace name mask out_sw :: body ++ [.endTrace]) st).1.calls := by
  obtain ⟨st₁, hst₁, h₁⟩ : ∃ st₁, hdfInitTrace st name mask out_sw = .ok st₁ ∧ Routed st₁ := by
    have hok : ∃ st', hdfInitTrace st name mask out_sw = .ok st' := by
      rcases ho with rfl | rfl <;> exact ⟨_, rfl⟩
    obtain ⟨st₁, hst⟩ := hok
    exact ⟨st₁, hst, hdfInitTrace_routed h ho hst⟩
  obtain ⟨hn, h₂⟩ := runApi_routed sz body st₁ h₁ hb
  have hrun : runApi sz (.initTrace name mask out_sw :: body ++ [.endTrace]) st =
      (hdfEndTrace (runApi sz body st₁).1, none) := by
    rw [List.cons_append, runApi, ApiCall.run, hst₁]
    dsimp only
    rw [runApi_append_of_none sz body _ st₁ hn]
    rfl
  obtain ⟨l, hl, hf⟩ := hdfEndTrace_calls (runApi sz body st₁).1
  rw [hrun]
  exact ⟨rfl, by rw [Obeys, hl]; exact protocol_ok_finish h₂.1 hf⟩

/-- An SDDF session from the start of the program, with one traced procedure that reads a
file. -/
theorem runApi_session_sddf :
    Obeys (TraceState.initial 0).calls ∧ (SDDF_OUTPUT = SDDF_OUTPUT ∨ SDDF_OUTPUT = RT_OUTPUT) ∧
      (∀ c ∈ ([.startEvent 7, .io (.read 3 10), .endEvent 7 1 "set".toList 0] : List ApiCall),
        c.KeepsOpen) ∧
      ((runApi ⟨24, 12, 12, 16, 4, 8⟩ (.initTrace "run.sddf".toList 0 SDDF_OUTPUT ::
          [.startEvent 7, .io (.read 3 10), .endEvent 7 1 "set".toList 0] ++ [.endTrace])
          (TraceState.initial 0)).2 = none ∧
        Obeys (runApi ⟨24, 12, 12, 16, 4, 8⟩ (.initTrace "run.sddf".toList 0 SDDF_OUTPUT ::
          [.startEvent 7, .io (.read 3 10), .endEvent 7 1 "set".toList 0] ++ [.endTrace])
          (TraceState.initial 0)).1.calls) :=
  have h : Obeys (TraceState.initial 0).calls := rfl
  have hb : ∀ c ∈ ([.startEvent 7, .io (.read 3 10), .endEvent 7 1 "set".toList 0] : List ApiCall),
      c.KeepsOpen := by simp [ApiCall.KeepsOpen]
  ⟨h, .inl rfl, hb, runApi_session _ _ h _ _ _ (.inl rfl) _ hb⟩

/-! ## Where the protocol breaks -/

/-- Once an event went to a closed tracer, no later call mends the record. -/
theorem Protocol.ok_step_of_false {p : Protocol} (h : p.ok = false) (c : TracerCall) :
    (p.step c).ok = false := by
  cases c <;> simp [Protocol.step, h]

theorem protocol_not_ok_append {cs : List TracerCall} (hcs : (protocol cs).ok = false)
    (l : List TracerCall) : (protocol (cs ++ l)).ok = false := by
  induction l generalizing cs with
  | nil => simpa using hcs
  | cons r l ih =>
    rw [← List.singleton_append, ← List.append_assoc]
    exact ih (by rw [protocol_append_single]; exact Protocol.ok_step_of_false hcs r)

/-- Events to a tracer that is not open, with nothing opening it, leave the record broken. -/
theorem protocol_add_closed {cs l : List TracerCall} {f : Format}
    (hf : (protocol cs).isOpen f = false) (hl : ∀ r ∈ l, r.Harmless f) (he : events l ≠ []) :
    (protocol (cs ++ l)).ok = false := by
  induction l generalizing cs with
  | nil => simp at he
  | cons r l ih =>
    have hr := hl r (List.mem_cons_self _ _)
    have hl' := fun r' (h' : r' ∈ l) => hl r' (List.mem_cons_of_mem _ h')
    rw [← List.singleton_append, ← List.append_assoc]
    cases r with
    | event g id d n =>
      simp only [TracerCall.Harmless] at hr
      subst hr
      exact protocol_not_ok_append (by simp [Protocol.step, hf]) l
    | setMappedID fd =>
      exact ih (by simpa [Protocol.step] using hf) hl' (by simpa [TracerCall.eventOf] using he)
    | init _ _ _ => exact hr.elim
    | finish _ => exact hr.elim

/-- Two ways the front end reports an I/O call to a tracer that is not open. `HDFendTrace` ends
the tracer but leaves `IOtracingEnabled` set, so the next I/O call still reports to it; and
`HDFinitTrace` of `NO_OUTPUT` turns I/O tracing on with `OUTPUT_SWITCH` at `0`, so I/O calls
report to the real-time tracer, which nothing opened. -/
theorem protocol_broken (sz : Sizes) (st : TraceState) (c : IOCall) (hc : c.Paired) :
    (st.IOtracingEnabled ≠ 0 → (st.OUTPUT_SWITCH = SDDF_OUTPUT ∨ st.OUTPUT_SWITCH = RT_OUTPUT) →
      ¬Obeys (runApi sz [.endTrace, .io c] st).1.calls) ∧
    ((protocol st.calls).rt = false → ∀ name mask,
      ¬Obeys (runApi sz [.initTrace name mask NO_OUTPUT, .io c] st).1.calls) := by
  -- a paired call with tracing on, from a state whose tracer is closed
  have key : ∀ st₁ : TraceState, st₁.IOtracingEnabled ≠ 0 →
      (protocol st₁.calls).isOpen st₁.fmt = false → ¬Obeys (c.run sz st₁).calls := by
    intro st₁ ht hf
    obtain ⟨l, hl, hs⟩ := c.run_spec sz st₁
    have he := c.run_events sz st₁ hc
    rw [hl, TraceState.add_calls, events_append, if_neg ht] at he
    simp only [Obeys, hl, TraceState.add_calls]
    rw [protocol_add_closed hf (fun r hr => (hs r hr).1) (by simp [List.append_cancel_left_eq] at he; simp [he])]
    simp
  refine ⟨fun ht ho => ?_, fun hrt name mask => ?_⟩
  · have hcl := hdfEndTrace_closes st ho
    exact key _ (by rw [hcl.2]; exact ht) hcl.1
  · exact key { st with procTrace := 0, IOtracingEnabled := 1, OUTPUT_SWITCH := NO_OUTPUT }
      one_ne_zero (by simpa [TraceState.fmt, Protocol.isOpen, NO_OUTPUT, SDDF_OUTPUT] using hrt)

/-- A read after the SDDF tracer was opened. -/
theorem protocol_broken_read :
    (IOCall.read 3 10).Paired ∧
      ((TraceState.mk SDDF_OUTPUT 0 1 [.init .sddf [] 0]).IOtracingEnabled ≠ 0 →
        ((TraceState.mk SDDF_OUTPUT 0 1 [.init .sddf [] 0]).OUTPUT_SWITCH = SDDF_OUTPUT ∨
          (TraceState.mk SDDF_OUTPUT 0 1 [.init .sddf [] 0]).OUTPUT_SWITCH = RT_OUTPUT) →
        ¬Obeys (runApi ⟨24, 12, 12, 16, 4, 8⟩ [.endTrace, .io (.read 3 10)]
          (TraceState.mk SDDF_OUTPUT 0 1 [.init .sddf [] 0])).1.calls) ∧
      ((protocol (TraceState.mk SDDF_OUTPUT 0 1 [.init .sddf [] 0]).calls).rt = false →
        ∀ name mask, ¬Obeys (runApi ⟨24, 12, 12, 16, 4, 8⟩ [.initTrace name mask NO_OUTPUT,
          .io (.read 3 10)] (TraceState.mk SDDF_OUTPUT 0 1 [.init .sddf [] 0])).1.calls) :=
  ⟨trivial, protocol_broken _ _ (.read 3 10) trivial⟩

end Pablo
end Hdf4
