import ScriptEngine.Proofs.Coroutine.History
import ScriptEngine.Proofs.Frame.Containment
import ScriptEngine.Proofs.Request.CallSimulation

/-!
# Calls and requests for calls

A host function that returns the result of a call and one that asks for the call in its own place
come to the same: whoever called the function gets the same value, the world is the same, or the
same error is raised, whatever is still to be done with the function's result or with an error of
it.  There is one exception, an answer to an error within the call that is no length where one is
due: it leaves the loop in which the call runs.
-/

namespace ScriptEngine

variable {H : HostTypes}

/-- The same error, but for the place and the traceback. -/
structure ScriptError.SameCause (e e' : ScriptError) : Prop where
  kind : e'.kind = e.kind
  message : e'.message = e.message
  payload : e'.payload? = e.payload?

theorem ScriptError.Alike.sameCause {e e' : ScriptError} (h : e.Alike e') : e.SameCause e' := by
  rw [h]
  exact ⟨rfl, rfl, rfl⟩

theorem ScriptError.SameCause.located {e e' : ScriptError} (h : e.SameCause e') (p : Processor)
    (w : World H) (floor : Nat) : (p.located w floor e).SameCause e' := by
  unfold Processor.located ScriptError.withLocation
  dsimp only
  split <;> split <;> exact ⟨h.kind, h.message, h.payload⟩

/-- The handler of a frame, with the frame.  Whether the frame waited for a call makes no
difference. -/
def Frame.answerer? (f : Frame) : Option (Frame × NativeRef) :=
  f.handlers.errorHandler?.map fun h => ({ f with flags := { f.flags with awaiting := false } }, h)

/-- The frame whose handler answers an error, with that handler. -/
def answererOf (frames : List Frame) : Option (Frame × NativeRef) :=
  (errorPath frames).getLast?.bind Frame.answerer?

namespace Exchange

section

variable [Host H]

/-- The function returns the result of the call. -/
def calling (x : Exchange H) (function : Value) (args : List Value) : Machine H :=
  ⟨x.core, x.outer, .running do pure (.result (← Action.callValue function args))⟩

omit [Host H] in
/-- The function asks for the call. -/
def requesting (x : Exchange H) (function : Value) (args : List Value) : Machine H :=
  ⟨x.core, x.outer, .running (.done (.tailCall { function, args }))⟩

/-- Nothing tells the call apart from the request in so many steps. -/
def Quiet (x : Exchange H) (function : Value) (args : List Value) (n : Nat) : Prop :=
  ∀ k ≤ n, ¬Machine.Disturbs x.inner ((x.calling function args).after k) ∧
    ¬Machine.Disturbs x.outer ((x.requesting function args).after k)

/-- The call is over: there is the same below the function's frame. -/
structure Resumes (x : Exchange H) (core core' : Core H) : Prop where
  world : core'.world = core.world
  stack : core'.proc.stack = core.proc.stack
  nesting : core.proc.nesting = x.core.proc.nesting
  nesting' : core'.proc.nesting = x.core.proc.nesting
  frames : core.proc.frames.items = x.own ++ x.below
  frames' : core'.proc.frames.items = x.own ++ x.below

/-- How the call ends. -/
inductive Concludes (x : Exchange H) (m m' : Machine H) : Prop where
  /-- Both functions give their caller the same value. -/
  | gives (v : Value) {core core' : Core H} (hresumes : x.Resumes core core')
      (h : ∃ i ≤ 4, m.after i = Machine.exec .loop (Exec.finish x.caller v) core x.outer)
      (h' : ∃ j ≤ 1, m'.after j = Machine.exec .loop (Exec.finish x.caller v) core' x.outer)
  /-- The value is the answer to an error in the call.  On the second machine it goes on as such
  to what the first function's caller gets. -/
  | answers (v : Value) {core core' : Core H} (hresumes : x.Resumes core core')
      (h : ∃ i ≤ 5, m.after i = Machine.exec .loop (Exec.finish x.caller v) core x.outer)
      (h' : ∃ j ≤ 1, m'.after j = Machine.exec .settling (Exec.finish x.caller v) core' x.outer)
  /-- Both functions fail with the same script error, which the same functions see and the same
  handler answers. -/
  | fails {e e' : ScriptError} {core core' : Core H} (decorators : List Value)
      (hworld : core'.world = core.world) (hcause : e.SameCause e')
      (hframes : core.proc.frames.items = x.caller :: (x.own ++ x.below))
      (hanswerer : answererOf (core'.proc.frames.above x.below.length) =
        answererOf (core.proc.frames.above x.below.length))
      (h : m.after 5 = ⟨core, x.outer, .unwinding e decorators⟩)
      (h' : m' = ⟨core', x.outer, .unwinding e' decorators⟩)
  /-- Both functions fail with the same error that nothing can handle. -/
  | stops {e : RuntimeError} {core core' : Core H} (hworld : core'.world = core.world)
      (he : ∀ s, e ≠ .script s)
      (h : m.after 5 = ⟨core, x.outer, .leaving (.error e)⟩)
      (h' : m'.next = ⟨core', x.outer, .leaving (.error e)⟩)
  /-- An answer to an error in the call is no length where one is due. -/
  | escapes {frame : Frame} {v : Value} {core core' : Core H} (hworld : core'.world = core.world)
      (hpost : frame.handlers.continuation? = some (.post .length)) (hv : v.toNumber? = none)
      (hcontrol : m.control = .settling (.finish frame v))
      (h : m.next = ⟨core, x.inner, .leaving (.error (.script .lengthNotNumber))⟩)
      (h' : m'.next = ⟨core', x.outer, .leaving (.error (.script .lengthNotNumber))⟩)

variable {x : Exchange H} {c c' : Core H} {fs gs : List Frame}

omit [Host H] in
theorem deliver_eq {flags flags' : FrameFlags} (h : flags'.entryPoint = flags.entryPoint)
    (address : Nat) (v? : Option Value) :
    (Exec.deliver flags' address v? : Exec H Outcome) = Exec.deliver flags address v? := by
  unfold Exec.deliver
  rw [h]

/-! ## Results -/

/-- The processor after the call's own loop. -/
def leaves (x : Exchange H) (p : Processor) : Processor :=
  { p with nesting := p.nesting - 1, ip := x.mark.ip, chunk? := x.mark.chunk? }

/-- The call's own loop has returned, and the function returns its result. -/
theorem after_returned (h : x.placement.Meets [] [] c c') (v : Value) :
    ∃ core, core.world = c.world ∧ core.proc.stack = c.proc.stack ∧
      core.proc.nesting = x.core.proc.nesting ∧ core.proc.frames.items = x.own ++ x.below ∧
      Machine.after ⟨c, x.inner, .loop (.return v)⟩ 4 =
        Machine.exec .loop (Exec.finish x.caller v) core x.outer := by
  obtain ⟨w, p⟩ := c
  have hitems : p.frames.items = x.caller :: (x.own ++ x.below) := h.beside.frames
  have hnesting : p.nesting = x.core.proc.nesting + 1 := h.beside.nesting
  let lower : Stack Frame := ⟨x.own ++ x.below, _, rfl⟩
  have htop : (x.leaves p).frames = lower.push x.caller := Stack.ext hitems
  refine ⟨⟨w, { x.leaves p with frames := lower }⟩, rfl, rfl, ?_, rfl, ?_⟩
  · change p.nesting - 1 = _
    omega
  · have hdone : Machine.after ⟨⟨w, p⟩, x.inner, .loop (.return v)⟩ 4 =
        Machine.act ⟨w, x.leaves p⟩ x.outer (.done (.result v)) := rfl
    have hrun : Exec.completeNative (.result v) ⟨w, x.leaves p⟩ =
        Exec.finish x.caller v ⟨w, { x.leaves p with frames := lower }⟩ := by
      rw [Exec.completeNative, Exec.run_bind_of_ok (Exec.popFrame?_run_of_top htop)]
    rw [hdone, Machine.act_done x.loop]
    exact Machine.exec_congr hrun x.outer

omit [Host H] in
/-- Either the function's frame is gone or it gets the result now. -/
theorem deliver_run (h : x.placement.Meets [] [] c c') {flags : FrameFlags}
    (hflags : flags.entryPoint = (x.caller.handlers.isEmpty && x.caller.flags.entryPoint))
    (v : Value) :
    ∃ core, core.world = c'.world ∧ core.proc.stack = c'.proc.stack ∧
      core.proc.nesting = c'.proc.nesting ∧ core.proc.frames.items = x.own ++ x.below ∧
      (Exec.deliver flags x.caller.returnAddress (some v) c' = Exec.finish x.caller v core ∨
        Exec.deliver flags x.caller.returnAddress (some v) c' =
          .ok (.finish x.waiting v) core) := by
  have hitems : c'.proc.frames.items = x.rest ++ x.below := h.beside.frames'
  unfold rest at hitems
  by_cases hempty : x.caller.handlers.isEmpty = true
  · rw [if_pos hempty] at hitems
    rw [hempty, Bool.true_and] at hflags
    refine ⟨c', rfl, rfl, rfl, hitems, Or.inl ?_⟩
    unfold Exec.finish
    rw [Handlers.isEmpty_iff.mp hempty, deliver_eq hflags]
    rfl
  · rw [if_neg hempty] at hitems
    have hinner : flags.entryPoint = false := by rw [hflags]; simp [hempty]
    let lower : Stack Frame := ⟨x.own ++ x.below, _, rfl⟩
    have htop : c'.proc.frames = lower.push x.waiting := Stack.ext hitems
    exact ⟨{ c' with proc := { c'.proc with frames := lower } }, rfl, rfl, rfl, rfl,
      Or.inr (Exec.deliver_run_awaited _ _ hinner htop rfl)⟩

/-- The result of the call is a result of the requested function, whichever way both go. -/
theorem exists_resumed (h : x.placement.Meets [] [] c c') {flags : FrameFlags}
    (hflags : flags.entryPoint = (x.caller.handlers.isEmpty && x.caller.flags.entryPoint))
    (v : Value) (route : Machine.Route) :
    ∃ core core', x.Resumes core core' ∧
      Machine.after ⟨c, x.inner, .loop (.return v)⟩ 4 =
        Machine.exec .loop (Exec.finish x.caller v) core x.outer ∧
      ∃ j ≤ 1, (Machine.exec route (Exec.deliver flags x.caller.returnAddress (some v)) c'
          x.outer).after j = Machine.exec route (Exec.finish x.caller v) core' x.outer := by
  obtain ⟨core, hworld, hstack, hnesting, hframes, hafter⟩ := after_returned h v
  obtain ⟨core', hworld', hstack', hnesting', hframes', hrun⟩ := deliver_run h hflags v
  refine ⟨core, core', ⟨?_, ?_, hnesting, ?_, hframes, hframes'⟩, hafter, ?_⟩
  · rw [hworld, hworld', h.world]
  · rw [hstack, hstack', h.beside.stack]
  · rw [hnesting', h.beside.nesting']
    rfl
  · rcases hrun with hrun | hrun
    · refine ⟨0, by omega, ?_⟩
      exact Machine.exec_congr hrun x.outer
    · refine ⟨1, by omega, ?_⟩
      rw [Machine.exec_ok hrun x.outer]
      exact Machine.next_finish_done core' x.outer route x.waiting v

theorem concludes_returned (h : x.placement.Meets [] [] c c') {flags : FrameFlags}
    (hflags : flags.entryPoint = (x.caller.handlers.isEmpty && x.caller.flags.entryPoint))
    (v : Value) :
    x.Concludes ⟨c, x.inner, .loop (.return v)⟩
      (Machine.exec .loop (Exec.deliver flags x.caller.returnAddress (some v)) c' x.outer) := by
  obtain ⟨core, core', hresumes, hafter, hafter'⟩ := exists_resumed h hflags v .loop
  exact .gives v hresumes ⟨4, by omega, hafter⟩ hafter'

theorem concludes_settled (h : x.placement.Meets [] [] c c') {flags : FrameFlags}
    (hflags : flags.entryPoint = (x.caller.handlers.isEmpty && x.caller.flags.entryPoint))
    (v : Value) :
    x.Concludes ⟨c, x.inner, .settling (.return v)⟩
      (Machine.exec .settling (Exec.deliver flags x.caller.returnAddress (some v)) c' x.outer) := by
  obtain ⟨core, core', hresumes, hafter, hafter'⟩ := exists_resumed h hflags v .settling
  exact .answers v hresumes ⟨5, by omega, hafter⟩ hafter'

/-! ## Errors -/

/-- The call's own loop is left with an error, and the function fails with it. -/
theorem after_leaving (c : Core H) (e : RuntimeError) {frames : Stack Frame}
    (hframes : frames.items = x.caller :: (x.own ++ x.below)) :
    ∃ core, core.world = c.world ∧ core.proc.frames.items = frames.items ∧
      Machine.after ⟨{ c with proc := { c.proc with frames } }, x.inner, .leaving (.error e)⟩ 3 =
        ⟨core, x.outer, .failed e⟩ := by
  obtain ⟨w, p⟩ := c
  let cut : Processor :=
    { x.leaves p with
      frames := frames.truncate x.mark.frames, stack := p.stack.truncate x.mark.stack }
  have hmark : x.mark.frames = frames.items.length := by
    rw [hframes, ← x.frames]
    exact x.core.proc.frames.height_eq
  refine ⟨⟨w, cut⟩, rfl, ?_, ?_⟩
  · change (frames.truncate x.mark.frames).items = frames.items
    rw [hmark]
    exact items_truncate_append (List.nil_append frames.items).symm
  · have hfail : Machine.after ⟨⟨w, { p with frames }⟩, x.inner, .leaving (.error e)⟩ 3 =
        Machine.act ⟨w, cut⟩ x.outer (.fail e) := rfl
    rw [hfail, Machine.act_fail x.loop]

omit [Host H] in
theorem answerer_append {path rest : List Frame} (hnone : Unhandled path) :
    (path ++ rest).getLast?.bind Frame.answerer? = rest.getLast?.bind Frame.answerer? := by
  rw [List.getLast?_append]
  cases rest.getLast? with
  | some f => rfl
  | none =>
    cases hlast : path.getLast? with
    | none => rfl
    | some f =>
      have hf := hnone f (List.mem_of_getLast? hlast)
      simp [Frame.answerer?, hf]

omit [Host H] in
/-- With nothing left to do in it the function's frame makes no difference to an error. -/
theorem errorPath_of_empty (x : Exchange H) (hempty : x.caller.handlers.isEmpty = true) :
    errorPath (x.caller :: x.own) = [x.caller] ++ errorPath x.own := by
  rw [errorPath, Handlers.isEmpty_iff.mp hempty]
  cases hentry : x.caller.flags.entryPoint with
  | true =>
    rw [x.entry hentry]
    rfl
  | false => rfl

omit [Host H] in
/-- Below the call an error takes the same path. -/
theorem errorPath_rest (x : Exchange H) :
    (errorPath x.rest).getLast?.bind Frame.answerer? = answererOf (x.caller :: x.own) ∧
      decoratorsOf (errorPath x.rest) = decoratorsOf (errorPath (x.caller :: x.own)) := by
  unfold rest answererOf
  by_cases hempty : x.caller.handlers.isEmpty = true
  · have hhandlers := Handlers.isEmpty_iff.mp hempty
    have hnone : Unhandled [x.caller] := by simp [Unhandled, hhandlers, Handlers.none]
    have hdecorators : decoratorsOf [x.caller] = [] := by
      simp [decoratorsOf, hhandlers, Handlers.none]
    rw [if_pos hempty, x.errorPath_of_empty hempty, answerer_append hnone]
    refine ⟨rfl, ?_⟩
    change _ = List.filterMap _ ([x.caller] ++ errorPath x.own)
    rw [List.filterMap_append]
    exact (congrArg (· ++ decoratorsOf (errorPath x.own)) hdecorators).symm
  · rw [if_neg hempty, errorPath, errorPath]
    by_cases hlast : (x.caller.handlers.errorHandler?.isSome || x.caller.flags.entryPoint) = true
    · have hlast' : (x.waiting.handlers.errorHandler?.isSome ||
          x.waiting.flags.entryPoint) = true := hlast
      rw [if_pos hlast, if_pos hlast']
      exact ⟨rfl, decoratorsOf_eq rfl⟩
    · have hlast' : ¬(x.waiting.handlers.errorHandler?.isSome ||
          x.waiting.flags.entryPoint) = true := hlast
      have hhandler : x.caller.handlers.errorHandler? = none := by
        simp only [Bool.or_eq_true, not_or, Bool.not_eq_true, Option.isSome_eq_false_iff,
          Option.isNone_iff_eq_none] at hlast
        exact hlast.1
      have hnone : Unhandled [x.caller] := by simpa [Unhandled] using hhandler
      have hnone' : Unhandled [x.waiting] := by simpa [Unhandled, waiting] using hhandler
      rw [if_neg hlast, if_neg hlast']
      exact ⟨(answerer_append hnone').trans (answerer_append hnone).symm, decoratorsOf_eq rfl⟩

theorem concludes_raised (h : x.placement.Meets fs gs c c') (hnone : Unhandled fs)
    {e e' : ScriptError} (he : e.Alike e') :
    x.Concludes ⟨c, x.inner, .unwinding e []⟩
      ⟨c', x.outer, .unwinding e' (decoratorsOf (errorPath x.rest))⟩ := by
  obtain ⟨hfloor, -⟩ := (LoopPlacement.Chain.own (x := x)).floor
  obtain ⟨hpath, hpath'⟩ := h.beside.framesAlike.errorPath_of_unhandled hnone x.placement.alone
  obtain ⟨frames, hitems, hcaught⟩ :=
    Machine.catchError_of_unhandled e h.beside.frames hfloor.symm hnone hpath
  obtain ⟨core, hworld, hframes, hafter⟩ := after_leaving c (.script e) hitems
  have hcaller : core.proc.frames.items = x.caller :: (x.own ++ x.below) := hframes.trans hitems
  have habove : core.proc.frames.above x.below.length = x.caller :: x.own :=
    items_above_append hcaller
  obtain ⟨-, habove'⟩ := h.above
  obtain ⟨hanswerer, hdecorators⟩ := x.errorPath_rest
  have hfailed : Machine.after ⟨c, x.inner, .unwinding e []⟩ 4 =
      ⟨core, x.outer, .failed (.script e)⟩ := by
    rw [← Machine.after_next, ← hafter, ← hcaught]
    rfl
  refine .fails (decoratorsOf (errorPath x.rest)) ?_
    (he.sameCause.located core.proc core.world x.below.length) hcaller ?_ ?_ rfl
  · rw [hworld, h.world]
  · have hpasses : answererOf (gs ++ x.rest) =
        (errorPath x.rest).getLast?.bind Frame.answerer? := by
      have herror : errorPath (gs ++ x.rest) = gs ++ errorPath x.rest := hpath'
      unfold answererOf
      rw [herror]
      exact answerer_append (hnone.of_handlers h.beside.framesAlike.handlers)
    have habove'' : c'.proc.frames.above x.below.length = gs ++ x.rest := habove'
    rw [habove, habove'', hpasses, hanswerer]
  · have hnext : Machine.after ⟨c, x.inner, .unwinding e []⟩ 5 =
        Machine.afterFailure core x.outer (.script e) := by
      change (Machine.after ⟨c, x.inner, .unwinding e []⟩ 4).next = _
      rw [hfailed]
      rfl
    rw [hnext, hdecorators, ← habove, ← x.floor]
    rfl

theorem concludes_stopped (h : x.placement.Meets fs gs c c') {e : RuntimeError}
    (he : ∀ s, e ≠ .script s) :
    x.Concludes ⟨c, x.inner, .failed e⟩ ⟨c', x.outer, .failed e⟩ := by
  obtain ⟨hfloor, -⟩ := (LoopPlacement.Chain.own (x := x)).floor
  obtain ⟨core, hworld, -, hafter⟩ :=
    after_leaving c e (items_truncate_append h.beside.frames)
  have hnext : Machine.next ⟨c, x.inner, .failed e⟩ = Machine.afterFailure c x.inner e := rfl
  have hfailed : Machine.after ⟨c, x.inner, .failed e⟩ 4 = ⟨core, x.outer, .failed e⟩ := by
    rw [← Machine.after_next, hnext, Machine.afterFailure_of_ne_script he, hfloor]
    exact hafter
  have hstops : Machine.after ⟨c, x.inner, .failed e⟩ 5 =
      Machine.afterFailure core x.outer e := by
    change (Machine.after ⟨c, x.inner, .failed e⟩ 4).next = _
    rw [hfailed]
    rfl
  have hstops' : Machine.next ⟨c', x.outer, .failed e⟩ = Machine.afterFailure c' x.outer e := rfl
  rw [Machine.afterFailure_of_ne_script he] at hstops hstops'
  refine .stops ?_ he hstops hstops'
  exact h.world.trans hworld.symm

theorem concludes_fumbled (h : x.placement.Meets fs gs c c') {f g : Frame}
    (hframes : x.placement.resultTarget.Frames fs f g)
    (hpost : f.handlers.continuation? = some (.post .length)) {v : Value}
    (hv : v.toNumber? = none) :
    x.Concludes ⟨c, x.inner, .settling (.finish f v)⟩
      ⟨c', x.outer, .settling (.finish g v)⟩ := by
  have hrun {frame : Frame} (hframe : frame.handlers.continuation? = some (.post .length))
      (core : Core H) :
      Exec.finish frame v core = .error (.script .lengthNotNumber) core := by
    unfold Exec.finish
    rw [hframe]
    dsimp only
    have happly : PostReturn.length.apply v = .error .lengthNotNumber := by
      simp [PostReturn.apply, hv]
    rw [happly]
    rfl
  have hnext {frame : Frame} (hframe : frame.handlers.continuation? = some (.post .length))
      (core : Core H) (activations : List (Activation H)) :
      Machine.next ⟨core, activations, .settling (.finish frame v)⟩ =
        ⟨core, activations, .leaving (.error (.script .lengthNotNumber))⟩ :=
    Machine.exec_error (hrun hframe core) activations
  have hpost' : g.handlers.continuation? = some (.post .length) := by
    rw [hframes.handlers, hpost]
  exact .escapes h.world hpost hv rfl (hnext hpost c x.inner) (hnext hpost' c' x.outer)

theorem concludes_of_callsEnd {m m' : Machine H} (h : Machine.CallsEnd x m m') :
    x.Concludes m m' := by
  cases h with
  | returned h hflags v => exact concludes_returned h hflags v
  | settled h hflags v => exact concludes_settled h hflags v
  | raised h hnone he => exact concludes_raised h hnone he
  | stopped h he => exact concludes_stopped h he
  | fumbled h hframes hpost hv => exact concludes_fumbled h hframes hpost hv

/-! ## Runs -/

/-- The function's frame has made room for the call that the function has asked for. -/
theorem after_requesting (x : Exchange H) (function : Value) (args : List Value) :
    ∃ (frames : Stack Frame) (tailCall : Bool), frames.items = x.rest ++ x.below ∧
      (x.requesting function args).after 2 =
        Machine.exec .loop
          (Exec.call function args
            { tailCall, entryPoint := x.caller.handlers.isEmpty && x.caller.flags.entryPoint }
            x.caller.returnAddress {})
          { x.core with proc := { x.core.proc with frames } } x.outer := by
  let lower : Stack Frame := ⟨x.own ++ x.below, _, rfl⟩
  have htop : x.core.proc.frames = lower.push x.caller := Stack.ext x.frames
  have hafter : (x.requesting function args).after 2 =
      (Machine.exec .loop (Exec.completeNative (.tailCall { function, args }))
        x.core x.outer).next :=
    congrArg Machine.next (Machine.act_done x.loop _)
  have hpop : Exec.completeNative (.tailCall { function, args }) x.core =
      Exec.tailFromNative x.caller { function, args }
        { x.core with proc := { x.core.proc with frames := lower } } := by
    rw [Exec.completeNative, Exec.run_bind_of_ok (Exec.popFrame?_run_of_top htop)]
  rw [hafter]
  unfold Machine.exec rest
  rw [hpop]
  unfold Exec.tailFromNative
  by_cases hempty : x.caller.handlers.isEmpty = true
  · rw [if_pos hempty, if_pos hempty, hempty, Bool.true_and]
    exact ⟨lower, true, rfl, rfl⟩
  · have hinner : (x.caller.handlers.isEmpty && x.caller.flags.entryPoint) = false := by
      simp [hempty]
    rw [if_neg hempty, if_neg hempty, hinner]
    exact ⟨lower.push x.waiting, false, rfl, rfl⟩

/-- The call and the request begin together. -/
theorem stepMatches_begun (x : Exchange H) (function : Value) (args : List Value)
    (hroom : x.core.proc.nesting < x.core.world.settings.maxNativeNesting) :
    Machine.StepMatches x ((x.calling function args).after 2)
      ((x.requesting function args).after 2) := by
  obtain ⟨frames, tailCall, hframes, hrequesting⟩ := x.after_requesting function args
  have hcalling : (x.calling function args).after 2 =
      Machine.exec .loop (Exec.call function args { entryPoint := true } x.core.proc.ip {})
        x.core.nested x.inner :=
    Machine.beginCall_of_room x.core hroom
  rw [hcalling, hrequesting]
  have hmeets : x.placement.Meets [] [] x.core.nested
      { x.core with proc := { x.core.proc with frames } } :=
    ⟨rfl, rfl, rfl, rfl, rfl, rfl, rfl, rfl, x.frames, hframes, .nil⟩
  have hhands : x.placement.resultTarget.Hands [] { entryPoint := true } x.core.proc.ip
      { tailCall, entryPoint := x.caller.handlers.isEmpty && x.caller.flags.entryPoint }
      x.caller.returnAddress :=
    Or.inl ⟨rfl, rfl, rfl, rfl, rfl, rfl⟩
  exact Machine.stepMatches_exec .own (Exec.joins_call function args hhands (by simp) hmeets)

theorem Quiet.mono {x : Exchange H} {function : Value} {args : List Value} {n k : Nat}
    (h : x.Quiet function args n) (hle : k ≤ n) : x.Quiet function args k := by
  intro i hi
  exact h i (Nat.le_trans hi hle)

/-- In every step of the call both machines are in it, or it has come to its end on both. -/
theorem callsMatch_or_callsEnd (x : Exchange H) (function : Value) (args : List Value)
    (hroom : x.core.proc.nesting < x.core.world.settings.maxNativeNesting) (n : Nat)
    (hquiet : x.Quiet function args (n + 2)) :
    Machine.CallsMatch x ((x.calling function args).after (n + 2))
        ((x.requesting function args).after (n + 2)) ∨
      ∃ k ≤ n + 2, Machine.CallsEnd x ((x.calling function args).after k)
        ((x.requesting function args).after k) := by
  have hof {k : Nat} (hk : x.Quiet function args k)
      (h : Machine.StepMatches x ((x.calling function args).after k)
        ((x.requesting function args).after k)) :
      Machine.CallsMatch x ((x.calling function args).after k)
          ((x.requesting function args).after k) ∨
        ∃ j ≤ k, Machine.CallsEnd x ((x.calling function args).after j)
          ((x.requesting function args).after j) := by
    obtain ⟨hcalling, hrequesting⟩ := hk k (Nat.le_refl k)
    cases h with
    | callsMatch h => exact Or.inl h
    | callsEnd h => exact Or.inr ⟨k, Nat.le_refl k, h⟩
    | disturbs h =>
      rcases h with h | h
      · exact absurd h hcalling
      · exact absurd h hrequesting
  -- The first two steps begin the call; from then on one step of each is one step of both.
  induction n with
  | zero => exact hof hquiet (x.stepMatches_begun function args hroom)
  | succ n ih =>
    rcases ih (hquiet.mono (by omega)) with h | ⟨k, hk, hcallsEnd⟩
    · by_cases hcallsEnd : Machine.CallsEnd x ((x.calling function args).after (n + 2))
        ((x.requesting function args).after (n + 2))
      · exact Or.inr ⟨n + 2, by omega, hcallsEnd⟩
      · exact hof hquiet (h.next hcallsEnd (hquiet (n + 2) (by omega)).1)
    · exact Or.inr ⟨k, by omega, hcallsEnd⟩

/-- The call goes on in both machines, and the world is the same. -/
structure Continues (x : Exchange H) (m m' : Machine H) : Prop where
  world : m'.core.world = m.core.world
  within : x.inner <:+ m.activations
  within' : x.outer <:+ m'.activations

omit [Host H] in
theorem suffix_of_chain {P : LoopPlacement} {as bs : List (Activation H)} (h : P.Chain x as bs) :
    x.inner <:+ as ∧ x.outer <:+ bs := by
  obtain ⟨⟨loops, has, -⟩, loops', hbs, -⟩ :=
    Machine.atWork_of_chain h x.core x.core (.failed .terminated) (.failed .terminated)
  exact ⟨⟨loops, has.symm⟩, loops', hbs.symm⟩

omit [Host H] in
theorem continues_of_callsMatch {m m' : Machine H} (h : Machine.CallsMatch x m m') :
    x.Continues m m' := by
  cases h with
  | here hchain h hcontrol =>
    obtain ⟨hinner, houter⟩ := suffix_of_chain hchain
    exact ⟨h.world, hinner, houter⟩
  | elsewhere hchain hne h r k hover =>
    obtain ⟨hinner, houter⟩ := suffix_of_chain hchain
    obtain ⟨core, guest, control⟩ := hover
    refine ⟨rfl, (hinner.trans (List.suffix_cons _ _)).trans (List.suffix_append _ _), ?_⟩
    exact (houter.trans (List.suffix_cons _ _)).trans (List.suffix_append _ _)

/-- A host function that returns the result of a call and one that asks for the call come to the
same.  As long as nothing tells them apart, the world is the same in every step, and when the call
ends they give their caller the same value or fail with the same error, whatever their own frame
still has to do. -/
theorem ends_alike (x : Exchange H) (function : Value) (args : List Value)
    (hroom : x.core.proc.nesting < x.core.world.settings.maxNativeNesting) (n : Nat)
    (hquiet : x.Quiet function args (n + 2)) :
    x.Continues ((x.calling function args).after (n + 2))
        ((x.requesting function args).after (n + 2)) ∨
      ∃ k ≤ n + 2, x.Concludes ((x.calling function args).after k)
        ((x.requesting function args).after k) := by
  rcases x.callsMatch_or_callsEnd function args hroom n hquiet with h | ⟨k, hk, hcallsEnd⟩
  · exact Or.inl (continues_of_callsMatch h)
  · exact Or.inr ⟨k, hk, concludes_of_callsEnd hcallsEnd⟩

end

end Exchange

/-- Every host function that runs in a reachable state is about to end in this way. -/
theorem Machine.Reachable.exists_exchange [Host H] [LawfulHost H] {m : Machine H}
    (h : m.Reachable) {a : Action H NativeOutcome} (hcontrol : m.control = .running a)
    (hne : m.activations ≠ []) :
    ∃ x : Exchange H, x.core = m.core ∧ x.outer = m.activations := by
  have hfits := h.wellNested.control
  have hseated := h.wellFramed.seated
  unfold Machine.Seated at hseated
  rw [hcontrol] at hfits hseated
  have hloop : InLoop m.activations := hfits.1.resolve_left hne
  obtain ⟨above, below, hframes, hrooted, hbase⟩ := (standsOn_iff hloop).mp hseated
  have hpos {activations : List (Activation H)} {nesting : Nat} {below : List Frame}
      (hbase : LoopBase activations nesting below) : 1 ≤ nesting := by
    cases hbase <;> omega
  cases above with
  | nil => exact absurd rfl hrooted.ne_nil
  | cons caller own =>
    refine
      ⟨⟨m.core, caller, own, below, m.activations, hframes, hloop, hbase.floor, hpos hbase, ?_⟩,
      rfl, rfl⟩
    intro hentry
    have hmarks : Rooted (caller.flags.entryPoint :: entries own) := hrooted
    rw [hentry] at hmarks
    exact List.map_eq_nil_iff.mp hmarks.nil_of_true

/-! ## What the library observes -/

/-- One function of the library tells whether it may yield; the others do not ask. -/
theorem LibraryFunction.action_eq [HostObjects H] {f : LibraryFunction}
    (hf : f ≠ .coroutineIsYieldable)
    (location? : Option SourceLocation) (yieldable yieldable' : Bool) (args : Arguments) :
    (f.action ⟨location?, yieldable⟩ args : Action H NativeOutcome) =
      f.action ⟨location?, yieldable'⟩ args := by
  cases f <;> first | rfl | exact absurd rfl hf

namespace Machine

theorem not_observes [Host H] {core : Core H} {f : NativeRef} {native : Native H}
    {g : LibraryFunction} (hnative : core.world.native? f = some native)
    (hbody : native.body = .library g) (hg : g ≠ .coroutineIsYieldable) (args : Arguments) :
    ¬Observes core f args := by
  rintro ⟨p, hlocation, hobserves⟩
  refine hobserves ?_
  rw [Core.invoke_of_library args hnative hbody,
    Core.invoke_of_library (c := ⟨core.world, p⟩) args hnative hbody, hlocation]
  exact LibraryFunction.action_eq hg _ _ _ _

/-- Nothing in this state can tell a call apart from a request. -/
def isQuiet (m : Machine H) : Bool :=
  match m.control with
  | .loop (.yield _) => false
  | .loop .forceYield => false
  | .loop (.invoke f _) =>
    match m.core.world.native? f with
    | some native =>
      match native.body with
      | .library g => g != .coroutineIsYieldable
      | .host _ => false
    | none => false
  | .loop (.recover e _ _ _ _) => e != .stackOverflow
  | .failed (.script e) => e != .stackOverflow
  | .answering _ (.error (.script e)) => e != .stackOverflow
  | _ => true

theorem not_disturbs [Host H] {m : Machine H} (h : m.isQuiet = true)
    (own : List (Activation H)) : ¬Disturbs own m := by
  intro hdisturbs
  unfold isQuiet at h
  cases hdisturbs with
  | yields hown v hcontrol => simp [hcontrol] at h
  | suspends hown hcontrol => simp [hcontrol] at h
  | observes hown f args hcontrol hobserves =>
    rw [hcontrol] at h
    dsimp only at h
    cases hnative : m.core.world.native? f with
    | none => simp [hnative] at h
    | some native =>
      rw [hnative] at h
      dsimp only at h
      cases hbody : native.body with
      | host g => simp [hbody] at h
      | library g =>
        rw [hbody] at h
        exact not_observes hnative hbody (by simpa using h) args hobserves
  | overflows hwork hcontrol => simp [hcontrol] at h
  | refuses hwork decorator? handler flags address hcontrol => simp [hcontrol] at h
  | crowds hwork waiter hcontrol => simp [hcontrol] at h

end Machine

/-! ## The workbench -/

namespace Exchange

open ProtectedCall in
/-- The host protects the call of a function that takes the length of a point, and that is up to a
function of the host. -/
def measured : Machine Workbench.types :=
  Machine.after (.start (.start { modules := ⟨false, false, false⟩ }
      { pointHooks := [("__len", .native ⟨7⟩)] })
    (withProtection
      (.write (fun w => (Workbench.add "measure" (.const .nil) w).2)
        (.write (fun w => (w.addUserData (.point 0 0)).2)
          (.write (fun w => (w.addClosure lengthOf).2)
            (protectedly [.function ⟨9⟩, .userData ⟨8⟩])))))) 17

/-- The function that finds out the length. -/
def measuring : Exchange Workbench.types where
  core := measured.core
  caller := (measured.core.proc.frames.items.head?).getD default
  own := measured.core.proc.frames.items.tail
  below := []
  outer := [.call ⟨0, none, 0, 0⟩ (.action fun r => (Action.ofResult r).bind Library.one)]
  frames := by decide +kernel
  loop := .call _ _ _
  floor := rfl
  nesting := by decide +kernel
  entry := by decide +kernel

/-- To find it out, the function calls another one in protected mode, which raises an error. -/
def protecting : List Value := [.native ⟨6⟩, .string "x"]

theorem quiet_protecting : measuring.Quiet (.native ⟨5⟩) protecting 15 := by
  have h : ∀ k ≤ 15, ((measuring.calling (.native ⟨5⟩) protecting).after k).isQuiet = true ∧
      ((measuring.requesting (.native ⟨5⟩) protecting).after k).isQuiet = true := by
    decide +kernel
  intro k hk
  exact ⟨Machine.not_disturbs (h k hk).1 _, Machine.not_disturbs (h k hk).2 _⟩

theorem ends_alike_protecting :
    measuring.core.proc.nesting < measuring.core.world.settings.maxNativeNesting ∧
      measuring.Quiet (.native ⟨5⟩) protecting 15 ∧
      (measuring.Continues ((measuring.calling (.native ⟨5⟩) protecting).after 15)
          ((measuring.requesting (.native ⟨5⟩) protecting).after 15) ∨
        ∃ k ≤ 15, measuring.Concludes ((measuring.calling (.native ⟨5⟩) protecting).after k)
          ((measuring.requesting (.native ⟨5⟩) protecting).after k)) := by
  have hroom : measuring.core.proc.nesting < measuring.core.world.settings.maxNativeNesting := by
    decide +kernel
  exact ⟨hroom, quiet_protecting, measuring.ends_alike _ _ hroom 13 quiet_protecting⟩

/-- What the host gets in the end: an error or a value. -/
def outcome (m : Machine Workbench.types) : Option (RuntimeError ⊕ Value) :=
  (Machine.run 40 m).map fun
    | (.error e, _) => .inl e
    | (.ok v, _) => .inr v

/-- The answer to the error is no length.  If the function returns it as the result of its call,
the error of that is answered by the protected call around all this.  If the function has asked for
the call, the error passes the protected call. -/
theorem outcomes_differ_protecting :
    measuring.Quiet (.native ⟨5⟩) protecting 15 ∧
      outcome (measuring.calling (.native ⟨5⟩) protecting) =
        some (.inr (.tuple [.boolean false, .string "length is not a number"])) ∧
      outcome (measuring.requesting (.native ⟨5⟩) protecting) =
        some (.inl (.script .lengthNotNumber)) := by
  refine ⟨quiet_protecting, ?_, ?_⟩
  · decide +kernel
  · decide +kernel

end Exchange

end ScriptEngine
