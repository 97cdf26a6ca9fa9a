import ScriptEngine.Proofs.Frame.CallSite
import ScriptEngine.Proofs.Frame.Restoration
import ScriptEngine.Proofs.Frame.Suspension

/-!
# Calls come back to their callers

A call that a function makes lasts through nested calls, protected calls and
suspensions of its coroutine.  All the while the caller and what is below it are
as they were, and it ends by giving the caller its result or by an error that
nothing in the call has handled.
-/

namespace ScriptEngine

variable {H : HostTypes}

namespace CallSite

/-- The call on the processor of a coroutine at rest. -/
inductive Parked (s : CallSite H) (p : Processor) : CoroutineState → Prop where
  | suspended (h : s.Holds (.aside p.yielded?) p) : Parked s p .suspended
  | forced (h : s.Holds .working p) : Parked s p .forceSuspended

/-- The caller's loop or a nested call is the innermost one. -/
inductive Active (s : CallSite H) (m : Machine H) : Prop where
  | executing (hloop : s.loop.At m.activations)
      (hholds : s.Holds (m.control.stage m.core.proc) m.core.proc)
  /-- Something in the call waits for a nested call. -/
  | nested (k : Enclosure H) (above : List Frame) (hloop : s.loop.At k.outer)
      (hbelow : k.below = above ++ s.below) (hoperands : k.operands = s.operands)
      (hbases : ∀ f ∈ above, s.operands.length ≤ f.base)
      (hfits : k.waiter.stage.Fits s.address above) (hlasts : k.Lasts m)

/-- The caller and the frames of the call on the processor of the caller's loop. -/
def invariant (s : CallSite H) : LoopInvariant H where
  loop := s.loop
  Active := s.Active
  Waits activations p := s.loop.At activations ∧ s.Holds .working p
  Parked := s.Parked

/-- The call has begun and not ended. -/
def InForce (s : CallSite H) (m : Machine H) : Prop :=
  s.invariant.InForce m

/-- The ways in which a call ends. -/
inductive Ends (s : CallSite H) (m : Machine H) : Prop where
  | returned (o : Outcome) (hloop : s.loop.At m.activations)
      (hcontrol : m.control = .loop o ∨ m.control = .settling o)
      (hreturned : s.Returned o m.core)
  /-- A script error that nothing in the call handles comes to the caller. -/
  | passed (e : ScriptError) (above : List Frame) (hloop : s.loop.At m.activations)
      (hcontrol : m.control = .unwinding e [])
      (hover : m.core.proc.Over s.operands above s.below)
      (hnone : ∀ f ∈ above, f.handlers.errorHandler? = none)
  /-- An error that scripts cannot handle. -/
  | stopped (e : RuntimeError) (he : ∀ s, e ≠ .script s) (hloop : s.loop.At m.activations)
      (hcontrol : m.control = .failed e) (hholds : s.Holds .failing m.core.proc)
  /-- A suspension where none is allowed. -/
  | refused (exit : LoopExit) (mark : LoopMark) (waiter : Waiter H)
      (rest : List (Activation H)) (hexit : ∀ v, exit ≠ .returned v)
      (hloop : s.loop = .nested mark waiter rest)
      (h : m.activations = .call mark waiter :: rest)
      (hcontrol : m.control = .leaving (.ok exit)) (hholds : s.Holds .failing m.core.proc)
  /-- The answer to an error within the call is no length where one is due. -/
  | escaped (frame : Frame) (v : Value) (hloop : s.loop.At m.activations)
      (hcontrol : m.control = .settling (.finish frame v))
      (hpost : frame.handlers.continuation? = some (.post .length))
      (hv : v.toNumber? = none) (hholds : s.Holds .failing m.core.proc)

/-- The call goes on or ends. -/
def Lasts (s : CallSite H) (m : Machine H) : Prop :=
  s.InForce m ∨ s.Ends m

theorem Ends.operands {s : CallSite H} {m : Machine H} (h : s.Ends m) :
    s.operands <:+ m.core.proc.stack.items := by
  cases h with
  | returned o hloop hcontrol hreturned => exact hreturned.operands
  | passed e above hloop hcontrol hover hnone => exact hover.operands
  | stopped e he hloop hcontrol hholds => exact hholds.operands
  | refused exit mark waiter rest hexit hloop h hcontrol hholds => exact hholds.operands
  | escaped frame v hloop hcontrol hpost hv hholds => exact hholds.operands

variable {s : CallSite H} {activations : List (Activation H)} {core : Core H}
  {phase : LoopPhase} {stage : Stage}

/-- The caller's loop is the innermost one. -/
structure Acting (s : CallSite H) (activations : List (Activation H))
    (phase : LoopPhase) (stage : Stage) (core : Core H) : Prop where
  atLoop : s.loop.At activations
  holds : s.Holds stage core.proc
  stands : StandsOn phase activations core.proc.nesting core.proc.frames.items

theorem Acting.of_same {core' : Core H} (h : s.Acting activations phase stage core)
    (hframes : core'.proc.frames = core.proc.frames)
    (hstack : core'.proc.stack = core.proc.stack)
    (hnesting : core'.proc.nesting = core.proc.nesting) :
    s.Acting activations phase stage core' := by
  refine ⟨h.atLoop, h.holds.of_same hframes hstack, ?_⟩
  rw [hframes, hnesting]
  exact h.stands

/-- All frames of the call belong to the caller's loop. -/
theorem Acting.own (h : s.Acting activations phase stage core) :
    ∃ above between below, core.proc.Over s.operands above s.below ∧
      stage.Fits s.address above ∧ s.lower = between ++ below ∧
      below.length = frameFloor activations ∧ phase.Fits (above ++ s.caller :: between) := by
  obtain ⟨above, hover, hfits⟩ := h.holds
  obtain ⟨between, below, hlower, hlength, hstands⟩ :=
    Machine.own_of_stands h.atLoop s.floor h.stands hover.frames
  exact ⟨above, between, below, hover, hfits, hlower, hlength, hstands⟩

/-- What is being dealt with in the call does not end the loop. -/
theorem inner_of_handing {b : Bool} {above between : List Frame} {f : Frame}
    (h : (LoopPhase.handing b).Fits (above ++ f :: between)) : b = false := by
  rcases rooted_cons.mp h with ⟨hnil, -⟩ | ⟨hfalse, -⟩
  · exact absurd (List.map_eq_nil_iff.mp hnil) (by simp)
  · exact hfalse

/-! ## Programs -/

theorem Acting.called {flags : FrameFlags} {returnAddress : Nat} {handlers : Handlers}
    {r : EStateM.Result RuntimeError (Core H) Outcome}
    (h : s.Acting activations phase (.handing returnAddress) core)
    (hcalled : Exec.Called core flags returnAddress handlers r) : Exec.ResultCalled s r := by
  obtain ⟨above, hover, hfits⟩ := h.holds
  exact hcalled.site hover hfits

theorem Acting.delivered {flags : FrameFlags} {returnAddress : Nat} {v? : Option Value}
    {r : EStateM.Result RuntimeError (Core H) Outcome}
    (h : s.Acting activations (.handing flags.entryPoint) (.handing returnAddress) core)
    (hdelivered : Exec.Delivered core flags returnAddress v? r) : Exec.ResultCalled s r := by
  obtain ⟨above, between, below, hover, hfits, -, -, hstands⟩ := h.own
  exact hdelivered.site (inner_of_handing hstands) hover hfits

theorem Acting.finished {frame : Frame} {v : Value}
    {r : EStateM.Result RuntimeError (Core H) Outcome}
    (h : s.Acting activations (.handing frame.flags.entryPoint)
      (.handing frame.returnAddress) core)
    (hfinished : Exec.Finished core frame v r) : Exec.ResultCalled s r := by
  obtain ⟨above, between, below, hover, hfits, -, -, hstands⟩ := h.own
  exact hfinished.site (inner_of_handing hstands) hover hfits

theorem Acting.completed {outcome : NativeOutcome}
    {r : EStateM.Result RuntimeError (Core H) Outcome}
    (h : s.Acting activations .working .working core)
    (hcompleted : Exec.Completed core outcome r) : Exec.ResultCalled s r := by
  obtain ⟨above, between, below, hover, hfits, -, -, hstands⟩ := h.own
  exact hcompleted.site hover hfits (Machine.inner_of_failing hstands.failing)

theorem Acting.stepped [HostObjects H] (h : s.Acting activations .working .working core)
    (hsparing : s.operands = [] ∨ core.Sparing) : Exec.ResultCalled s (Exec.step core) := by
  obtain ⟨above, between, below, hover, hfits, -, -, hstands⟩ := h.own
  exact Exec.step_site hover hfits (Machine.inner_of_failing hstands.failing) hsparing

theorem lasts_executing {control : Control H} (hloop : s.loop.At activations)
    (hholds : s.Holds (control.stage core.proc) core.proc) :
    s.Lasts ⟨core, activations, control⟩ := by
  refine Or.inl (.active ?_)
  exact .executing hloop hholds

/-- What hands the answer of a handler on does not fail in the caller's loop. -/
theorem lasts_exec {route : Machine.Route} {x : Exec H Outcome}
    (hloop : s.loop.At activations) (hresult : Exec.ResultCalled s (x core))
    (hok : route = .loop ∨ ∀ e c, x core ≠ .error e c) :
    s.Lasts (Machine.exec route x core activations) := by
  unfold Machine.exec
  cases hx : x core with
  | ok o c =>
      rw [hx] at hresult
      rcases hresult with hholds | hreturned
      · cases route <;> exact lasts_executing hloop hholds
      · exact Or.inr (.returned o hloop (route.done_cases o) hreturned)
  | error e c =>
      rw [hx] at hresult
      rcases hok with rfl | hok
      · exact lasts_executing hloop hresult
      · exact absurd hx (hok e c)

/-! ## Steps in the caller's loop -/

section

variable [Host H]

theorem Acting.polled (h : s.Acting activations .working .working core)
    (hsparing : s.operands = [] ∨ (Machine.counted core).Sparing) :
    Exec.ResultCalled s (Exec.poll core) := by
  have hcounted := h.of_same (Machine.counted_frames core) (Machine.stack_counted core)
    (Machine.counted_nesting core)
  rcases Machine.poll_cases core with hrun | hrun | hrun
  · rw [hrun]
    exact h.holds.failing
  · rw [hrun]
    exact Or.inl hcounted.holds
  · rw [hrun]
    exact hcounted.stepped hsparing

theorem lasts_afterOutcome {o : Outcome}
    (h : s.Acting activations (o.phase core.proc) (o.stage core.proc) core)
    (hsparing : o = .proceed → s.operands = [] ∨ (Machine.counted core).Sparing) :
    s.Lasts (Machine.afterOutcome core activations o) := by
  cases o with
  | proceed => exact lasts_exec h.atLoop (h.polled (hsparing rfl)) (Or.inl rfl)
  | finish frame v =>
      exact lasts_exec h.atLoop (h.finished (Exec.finished_finish frame v core)) (Or.inl rfl)
  | invoke f args => exact lasts_executing h.atLoop h.holds
  | recover e decorator? handler flags returnAddress =>
      cases decorator? with
      | none => exact lasts_executing h.atLoop h.holds
      | some decorator => exact lasts_executing h.atLoop h.holds
  | tailCall request flags returnAddress =>
      exact lasts_exec h.atLoop (h.called (Exec.called_call _ _ _ _ _ core)) (Or.inl rfl)
  | yield v =>
      unfold Machine.afterOutcome
      rcases Machine.checkYield_cases core with hrun | ⟨violation, hrun⟩
      · rw [hrun]
        exact lasts_executing h.atLoop h.holds
      · rw [hrun]
        exact lasts_executing h.atLoop (h.holds.failing.of_same rfl rfl)
  | forceYield => exact lasts_executing h.atLoop h.holds
  | «return» v =>
      obtain ⟨above, -, hfits⟩ := h.holds
      exact hfits.elim

theorem lasts_calling {m : Machine H} {function : Value} {args : List Value}
    {waiter : Waiter H} (hcontrol : m.control = .calling function args waiter)
    (hloop : s.loop.At m.activations) (hholds : s.Holds waiter.stage m.core.proc) :
    s.Lasts m.next := by
  obtain ⟨above, hover, hfits⟩ := hholds
  rcases Machine.begins_calling hcontrol hover.operands with hrefused | hbegins
  · rw [hrefused]
    exact lasts_executing hloop ⟨above, hover, hfits⟩
  · exact Or.inl
      (.active (.nested _ above hloop hover.frames rfl hover.bases hfits hbegins))

omit [Host H] in
theorem lasts_answer {waiter : Waiter H} (result : Except RuntimeError Value)
    (h : s.Acting activations waiter.phase waiter.stage core)
    (hwaiter : waiter.Fits activations) :
    s.Lasts (Machine.answer core activations result waiter) := by
  cases waiter with
  | action next => exact lasts_executing h.atLoop h.holds
  | decorated e rest => exact lasts_executing h.atLoop h.holds
  | refused e handler flags returnAddress => exact lasts_executing h.atLoop h.holds
  | recovered flags returnAddress =>
      cases result with
      | ok v =>
          exact lasts_exec h.atLoop
            (h.delivered (Exec.delivered_deliver flags returnAddress (some v) core)) (Or.inl rfl)
      | error e => exact lasts_executing h.atLoop h.holds.failing
  | caught flags returnAddress =>
      cases result with
      | ok v =>
          have hdelivered := Exec.delivered_deliver flags returnAddress (some v) core
          refine lasts_exec h.atLoop (h.delivered hdelivered) (Or.inr ?_)
          intro e c herror
          rw [herror] at hdelivered
          cases hdelivered
      | error e => exact lasts_executing h.atLoop h.holds.failing
  | processor =>
      obtain ⟨above, -, hfits⟩ := h.holds
      exact hfits.elim

omit [Host H] in
theorem lasts_settle {o : Outcome}
    (h : s.Acting activations (o.phase core.proc) (o.stage core.proc) core)
    (hends : ¬s.Ends ⟨core, activations, .settling o⟩) :
    s.Lasts (Machine.settle core activations o) := by
  cases o with
  | finish frame v =>
      have hfinished := Exec.finished_finish frame v core
      refine lasts_exec h.atLoop (h.finished hfinished) (Or.inr ?_)
      intro e c herror
      rw [herror] at hfinished
      cases hfinished with
      | delivered v? hpost hdelivered => cases hdelivered
      | notNumber hpost hv =>
          exact hends (.escaped frame v h.atLoop rfl hpost hv h.holds.failing)
  | _ => exact lasts_executing h.atLoop h.holds

omit [Host H] in
theorem lasts_afterFailure (e : RuntimeError)
    (h : s.Acting activations .failing .failing core)
    (hends : ¬s.Ends ⟨core, activations, .failed e⟩) :
    s.Lasts (Machine.afterFailure core activations e) := by
  have hstop (he : ∀ s, e ≠ .script s) : False :=
    hends (.stopped e he h.atLoop rfl h.holds)
  cases e with
  | script e => exact lasts_executing h.atLoop h.holds
  | contract v => exact (hstop (by simp)).elim
  | internal reason => exact (hstop (by simp)).elim
  | terminated => exact (hstop (by simp)).elim
  | fault f => exact (hstop (by simp)).elim

omit [Host H] in
/-- A handler in the call answers the error. -/
theorem lasts_catchError (e : ScriptError) (h : s.Acting activations .failing .failing core)
    (hends : ¬s.Ends ⟨core, activations, .unwinding e []⟩) :
    s.Lasts (Machine.catchError core activations e) := by
  obtain ⟨above, between, below, hover, hfits, hlower, hfloor, hstands⟩ := h.own
  have hinner := Machine.inner_of_failing hstands
  rcases Machine.handler_cases above with hnone | ⟨path, d, rest, handler, rfl, hpath, hd⟩
  · exact absurd (.passed e above h.atLoop rfl hover hnone) hends
  · have herror : errorPath (path ++ d :: (rest ++ s.caller :: between)) = path ++ [d] := by
      refine Machine.errorPath_eq ?_ (by rw [hd]; rfl)
      exact fun f hf => ⟨hpath f hf, hinner f (List.mem_append_left _ hf)⟩
    have hframes : core.proc.frames.items =
        path ++ d :: (rest ++ s.caller :: between) ++ below := by
      rw [hover.frames]
      unfold CallSite.below
      rw [hlower]
      simp
    obtain ⟨frames, hitems, hcaught⟩ := Machine.catchError_eq e hframes hfloor herror hd
    rw [hcaught]
    have hbase : s.operands.length ≤ d.base :=
      hover.bases d (List.mem_append_right path List.mem_cons_self)
    have hlast : LastIs s.address (d.returnAddress :: addresses rest) := by
      have hall := hfits.resolve_left (by simp)
      unfold addresses at hall
      rw [List.map_append, List.map_cons] at hall
      exact hall.of_append (List.cons_ne_nil _ _)
    refine lasts_executing h.atLoop ⟨rest, ⟨?_, ?_, ?_⟩, hlast⟩
    · rw [hitems]
      unfold CallSite.below
      rw [hlower, List.append_assoc]
      rfl
    · exact fun f hf => hover.bases f
        (List.mem_append_right path (List.mem_cons_of_mem d hf))
    · exact suffix_truncate hover.operands hbase

omit [Host H] in
theorem lasts_leave (exit : Except RuntimeError LoopExit) (hloop : s.loop.At activations)
    (hholds : s.Holds (LoopExit.stage core.proc exit) core.proc)
    (hends : ¬s.Ends ⟨core, activations, .leaving exit⟩) :
    s.Lasts (Machine.leave core activations exit) := by
  obtain ⟨above, -, hfits⟩ := id hholds
  rcases exit with e | exit
  · exact hfits.elim
  · have hexit : ∀ v, exit ≠ .returned v := by
      rintro v rfl
      exact hfits.elim
    generalize hown : s.loop = loop at hloop
    cases hloop with
    | nested mark waiter rest =>
        exact absurd (.refused exit mark waiter rest hexit hown rfl rfl hholds.failing) hends
    | body r outer next rest =>
        have hidle {stage : Stage} (h : s.Holds stage core.proc) :
            s.Holds stage { core.proc with nesting := 0 } := h.of_same rfl rfl
        refine Or.inl (.departing r outer next rest exit hown rfl rfl ?_)
        cases exit with
        | returned v => exact absurd rfl (hexit v)
        | yielded v => exact .suspended (hidle hholds)
        | forceYielded => exact .forced (hidle hholds)

theorem lasts_act (a : Action H NativeOutcome)
    (h : s.Acting activations .working .working core) :
    s.Lasts (Machine.act core activations a) := by
  have hin := h.atLoop.inLoop
  have hactive (a : Action H NativeOutcome) :
      s.invariant.Active ⟨core, activations, .running a⟩ := .executing h.atLoop h.holds
  cases a with
  | done outcome =>
      rw [Machine.act_done hin]
      exact lasts_exec h.atLoop (h.completed (Exec.completed_completeNative outcome core))
        (Or.inl rfl)
  | fail e =>
      rw [Machine.act_fail hin]
      exact lasts_executing h.atLoop h.holds.failing
  | read next => exact lasts_executing h.atLoop h.holds
  | write change next =>
      have hholds : s.Holds .working (⟨change core.world, core.proc⟩ : Core H).proc := h.holds
      exact lasts_executing h.atLoop hholds
  | call function args next => exact lasts_executing h.atLoop h.holds
  | resume r args next =>
      exact Or.inl (LoopInvariant.inForce_resume r args hactive ⟨h.atLoop, h.holds⟩)
  | enterMain function args next =>
      exact Or.inl (LoopInvariant.inForce_enterMain function args hactive ⟨h.atLoop, h.holds⟩)

end

/-! ## Steps of the machine -/

variable [Host H] {m : Machine H}

theorem lasts_executing_next (hm : m.WellNested) (hg : m.WellFramed)
    (hsparing : s.operands = [] ∨ m.Sparing) (hloop : s.loop.At m.activations)
    (hholds : s.Holds (m.control.stage m.core.proc) m.core.proc) (hends : ¬s.Ends m) :
    s.Lasts m.next := by
  obtain ⟨core, activations, control⟩ := m
  have hseated := hg.seated
  have hcontrol := hm.control
  have hnever (h : control.stage core.proc = .over) : False := by
    change s.Holds (control.stage core.proc) core.proc at hholds
    rw [h] at hholds
    obtain ⟨above, -, hfits⟩ := hholds
    exact hfits
  cases control with
  | loop o =>
      refine lasts_afterOutcome ⟨hloop, hholds, hseated⟩ ?_
      rintro rfl
      exact hsparing.imp_right fun h => h rfl
  | failed e => exact lasts_afterFailure e ⟨hloop, hholds, hseated⟩ hends
  | unwinding e decorators =>
      cases decorators with
      | nil => exact lasts_catchError e ⟨hloop, hholds, hseated⟩ hends
      | cons d rest => exact lasts_executing hloop hholds
  | calling function args waiter => exact lasts_calling rfl hloop hholds
  | leaving exit => exact lasts_leave exit hloop hholds hends
  | answering waiter result => exact lasts_answer result ⟨hloop, hholds, hseated⟩ hcontrol
  | switching exit => exact (hnever rfl).elim
  | running a => exact lasts_act a ⟨hloop, hholds, hseated⟩
  | settling o => exact lasts_settle ⟨hloop, hholds, hseated⟩ hends
  | finished result => exact (hnever rfl).elim

/-- A nested call comes back to what waits for it. -/
theorem lasts_nested_next (hm : m.WellNested) (hg : m.WellFramed) (hb : m.Bounded)
    (hsparing : s.operands = [] ∨ m.Sparing) {k : Enclosure H} {above : List Frame}
    (hloop : s.loop.At k.outer) (hbelow : k.below = above ++ s.below)
    (hoperands : k.operands = s.operands) (hbases : ∀ f ∈ above, s.operands.length ≤ f.base)
    (hfits : k.waiter.stage.Fits s.address above) (hlasts : k.Lasts m) : s.Lasts m.next := by
  have hspares : k.operands = [] ∨ m.Sparing := by
    rw [hoperands]
    exact hsparing
  rcases hlasts.next hm hg hb hspares with hstill | hleft
  · exact Or.inl (.active (.nested k above hloop hbelow hoperands hbases hfits hstill))
  · obtain ⟨result, hanswer⟩ := hleft.control
    refine Or.inl (.active (.executing ?_ ?_))
    · rw [hleft.activations]
      exact hloop
    · rw [hanswer]
      refine ⟨above, ⟨hleft.frames.trans hbelow, hbases, ?_⟩, hfits⟩
      rw [← hoperands]
      exact hleft.operands

/-! ## Suspensions -/

omit [Host H] in
theorem Parked.of_alike {p p' : Processor} {state : CoroutineState} (h : s.Parked p state)
    (halike : p.Alike p') : s.Parked p' state := by
  cases h with
  | suspended h =>
      refine .suspended ?_
      rw [halike.yielded]
      exact h.of_same halike.frames halike.stack
  | forced h => exact .forced (h.of_same halike.frames halike.stack)

omit [Host H] in
theorem Parked.suspended_or {p : Processor} {state : CoroutineState} (h : s.Parked p state) :
    state = .suspended ∨ state = .forceSuspended := by
  cases h with
  | suspended h => exact Or.inl rfl
  | forced h => exact Or.inr rfl

/-- The coroutine is back in the call, which goes on where it was. -/
theorem lasts_resumed {r : CoroutineRef} {c : Coroutine} {p : Processor} {world : World H}
    {outer : Processor} {activations : List (Activation H)}
    {next : Except RuntimeError Value → Action H NativeOutcome} (args : List Value)
    (hloop : s.loop = .body r) (hkind : c.kind = .script) (hparked : s.Parked p c.state) :
    s.Lasts (Machine.runCoroutine world (.switch r outer next :: activations) c p args) := by
  have hat : s.loop.At (.body :: .switch r outer next :: activations) := by
    rw [hloop]
    exact .body r outer next activations
  generalize hstate : c.state = state at hparked
  cases hparked with
  | suspended h =>
      obtain ⟨above, hover, f, hyielded, hlast⟩ := h
      rw [Machine.runCoroutine_of_yielded hkind hstate hyielded]
      exact lasts_executing hat ⟨above, hover.of_same rfl rfl, hlast⟩
  | forced h =>
      rw [Machine.runCoroutine_of_forced hkind hstate]
      exact lasts_executing hat (h.of_same rfl rfl)

theorem persists (s : CallSite H) : s.invariant.Persists s.Ends where
  ne_nil := by
    rintro m (⟨hloop, -⟩ | ⟨k, above, -, -, -, -, -, hlasts⟩) hnil
    · have hin := hloop.inLoop
      rw [hnil] at hin
      exact not_inLoop_nil hin
    · have hlong := Machine.length_of_lasts hlasts
      rw [hnil] at hlong
      exact absurd hlong (Nat.not_lt_zero _)
  back := by
    rintro activations p ⟨hloop, hholds⟩ w a
    exact .executing hloop hholds
  of_alike := fun hparked halike => hparked.of_alike halike
  suspended := fun hparked => hparked.suspended_or
  resumed := fun _ args hloop hkind hparked _ => lasts_resumed args hloop hkind hparked

/-- A call goes on until it ends. -/
theorem lasts_active_next (hm : m.WellNested) (hg : m.WellFramed) (hb : m.Bounded)
    (hsparing : s.operands = [] ∨ m.Sparing) (h : s.Active m) (hends : ¬s.Ends m) :
    s.Lasts m.next := by
  cases h with
  | executing hloop hholds => exact lasts_executing_next hm hg hsparing hloop hholds hends
  | nested k above hloop hbelow hoperands hbases hfits hlasts =>
      exact lasts_nested_next hm hg hb hsparing hloop hbelow hoperands hbases hfits hlasts

end CallSite

end ScriptEngine
