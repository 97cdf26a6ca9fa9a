import ScriptEngine.Machine.Run
import ScriptEngine.Proofs.World.Extension

/-!
# Single steps of the machine

What a step does, by what is under way.  A function that is invoked is one of the
library or one of the host's.  An error goes to the frame that handles it or ends
the loop.  A nested call, a resume and a call on the main coroutine are either
refused, and then nothing but the control changes, or they are let in.  What is
kept by every step is proved from these cases.
-/

namespace ScriptEngine

variable {H : HostTypes}

/-- What a nested call that begins now puts back as it ends. -/
def Processor.mark (p : Processor) : LoopMark :=
  ⟨p.ip, p.chunk?, p.frames.height, p.stack.height⟩

/-- The core with one more nested call. -/
def Core.nested (core : Core H) : Core H :=
  ⟨core.world, { core.proc with nesting := core.proc.nesting + 1 }⟩

/-! ## Host functions -/

namespace Core

variable [Host H] {c : Core H} {f : NativeRef} {native : Native H}

theorem invoke_of_none (args : Arguments) (h : c.world.native? f = none) :
    c.invoke f args = .fail (.internal "no such function") := by
  unfold invoke
  rw [h]

theorem invoke_of_library {g : LibraryFunction} (args : Arguments)
    (hnative : c.world.native? f = some native) (hbody : native.body = .library g) :
    c.invoke f args = g.action ⟨c.proc.location?, c.proc.isYieldable⟩ args := by
  unfold invoke
  rw [hnative]
  dsimp only
  rw [hbody]

theorem invoke_of_host {g : H.Function} (args : Arguments)
    (hnative : c.world.native? f = some native) (hbody : native.body = .host g) :
    c.invoke f args = Host.run g ⟨c.proc.location?, c.proc.isYieldable⟩ args := by
  unfold invoke
  rw [hnative]
  dsimp only
  rw [hbody]

theorem invoke_cases (core : Core H) (f : NativeRef) (args : Arguments) :
    core.invoke f args = .fail (.internal "no such function") ∨
      (∃ native g, core.world.native? f = some native ∧ native.body = .library g ∧
        core.invoke f args =
          g.action ⟨core.proc.location?, core.proc.isYieldable⟩ args) ∨
      ∃ native g, core.world.native? f = some native ∧ native.body = .host g ∧
        core.invoke f args = Host.run g ⟨core.proc.location?, core.proc.isYieldable⟩ args := by
  cases hnative : core.world.native? f with
  | none => exact Or.inl (invoke_of_none args hnative)
  | some native =>
      cases hbody : native.body with
      | library g =>
          exact Or.inr (Or.inl ⟨native, g, rfl, hbody, invoke_of_library args hnative hbody⟩)
      | host g =>
          exact Or.inr (Or.inr ⟨native, g, rfl, hbody, invoke_of_host args hnative hbody⟩)

end Core

theorem Processor.dropErrorPath_snd (p : Processor) (floor : Nat) :
    ∃ n, (p.dropErrorPath floor).2 = { p with frames := p.frames.truncate n } :=
  ⟨_, rfl⟩

/-! ## Coroutines that are let in -/

namespace World

variable {w : World H} {r : CoroutineRef} {args : List Value}

theorem coroutine?_of_processor? {p : Processor} (h : (w.coroutine r).processor? = some p) :
    w.coroutine? r = some (w.coroutine r) := by
  cases hc : w.coroutine? r with
  | some c => rw [coroutine_of_coroutine? hc]
  | none =>
      unfold World.coroutine at h
      unfold World.coroutine? at hc
      cases hobject : w.object? r.id with
      | none =>
          rw [hobject] at h
          cases h
      | some o =>
          rw [hobject] at h hc
          cases o with
          | coroutine c => cases hc
          | _ => cases h

theorem length_inFlight_lt (h : w.resumeRefusal? r args = none) :
    w.inFlight.length < w.settings.maxNativeNesting := by
  grind [resumeRefusal?]

/-- A coroutine that is not refused is at rest. -/
theorem atRest_of_accepted (h : w.resumeRefusal? r args = none) :
    ∃ c p, w.coroutine? r = some c ∧ c.processor? = some p ∧ c.state.isSuspended = true := by
  obtain ⟨hstate, hprocessor⟩ : (w.coroutine r).state.isSuspended = true ∧
      (w.coroutine r).processor?.isNone = false := by
    grind [resumeRefusal?]
  cases hp : (w.coroutine r).processor? with
  | none =>
      rw [hp] at hprocessor
      cases hprocessor
  | some p => exact ⟨_, p, coroutine?_of_processor? hp, hp, hstate⟩

end World

namespace Machine

variable [Host H] {activations : List (Activation H)}

/-! ## Steps by what is under way -/

section

variable {m : Machine H}

omit [Host H] in
theorem eq_of_control {control : Control H} (h : m.control = control) :
    m = ⟨m.core, m.activations, control⟩ := by
  subst h
  rfl

theorem next_of_loop {o : Outcome} (h : m.control = .loop o) :
    m.next = afterOutcome m.core m.activations o := by
  rw [eq_of_control h]
  rfl

theorem next_of_settling {o : Outcome} (h : m.control = .settling o) :
    m.next = settle m.core m.activations o := by
  rw [eq_of_control h]
  rfl

theorem next_of_answering {waiter : Waiter H} {result : Except RuntimeError Value}
    (h : m.control = .answering waiter result) :
    m.next = answer m.core m.activations result waiter := by
  rw [eq_of_control h]
  rfl

theorem next_of_running {a : Action H NativeOutcome} (h : m.control = .running a) :
    m.next = act m.core m.activations a := by
  rw [eq_of_control h]
  rfl

theorem next_of_calling {function : Value} {args : List Value} {waiter : Waiter H}
    (h : m.control = .calling function args waiter) :
    m.next = beginCall m.core m.activations function args waiter := by
  rw [eq_of_control h]
  rfl

theorem next_of_leaving {exit : Except RuntimeError LoopExit} (h : m.control = .leaving exit) :
    m.next = leave m.core m.activations exit := by
  rw [eq_of_control h]
  rfl

theorem next_of_switching {exit : Except RuntimeError LoopExit}
    (h : m.control = .switching exit) :
    m.next = switchBack m.core m.activations exit := by
  rw [eq_of_control h]
  rfl

theorem next_of_failed {e : RuntimeError} (h : m.control = .failed e) :
    m.next = afterFailure m.core m.activations e := by
  rw [eq_of_control h]
  rfl

theorem next_of_caught {e : ScriptError} (h : m.control = .unwinding e []) :
    m.next = catchError m.core m.activations e := by
  rw [eq_of_control h]
  rfl

theorem next_of_shown {e : ScriptError} {d : Value} {rest : List Value}
    (h : m.control = .unwinding e (d :: rest)) :
    m.next = ⟨m.core, m.activations, .calling d [e.value] (.decorated e rest)⟩ := by
  rw [eq_of_control h]
  rfl

theorem next_invoke {core : Core H} {f : NativeRef} {args : Arguments}
    {a : Action H NativeOutcome} (haction : core.invoke f args = a) :
    (⟨core, activations, .loop (.invoke f args)⟩ : Machine H).next =
      ⟨core, activations, .running a⟩ := by
  subst haction
  rfl

end

/-! ## Programs in a loop -/

section

variable {x y : Exec H Outcome} {c c' : Core H} {route : Route}

omit [Host H] in
theorem Route.done_cases (route : Route) (o : Outcome) :
    (route.done o : Control H) = .loop o ∨ (route.done o : Control H) = .settling o := by
  cases route with
  | loop => exact Or.inl rfl
  | settling => exact Or.inr rfl

/-- A frame that waits for a value is finished, on either route. -/
theorem next_finish_done (core : Core H) (activations : List (Activation H)) (route : Route)
    (frame : Frame) (v : Value) :
    next ⟨core, activations, route.done (.finish frame v)⟩ =
      exec route (Exec.finish frame v) core activations := by
  cases route <;> rfl

theorem next_of_done_finish {m : Machine H} {frame : Frame} {v : Value}
    (h : m.control = route.done (.finish frame v)) :
    m.next = exec route (Exec.finish frame v) m.core m.activations := by
  rw [← next_finish_done, ← h]

omit [Host H] in
theorem exec_congr (h : x c = y c') (activations : List (Activation H)) :
    exec route x c activations = exec route y c' activations := by
  unfold exec
  rw [h]

omit [Host H] in
theorem exec_ok {o : Outcome} (h : x c = .ok o c') (activations : List (Activation H)) :
    exec route x c activations = ⟨c', activations, route.done o⟩ := by
  unfold exec
  rw [h]

omit [Host H] in
theorem exec_error {e : RuntimeError} (h : x c = .error e c') (activations : List (Activation H)) :
    exec route x c activations = ⟨c', activations, route.failed e⟩ := by
  unfold exec
  rw [h]

omit [Host H] in
/-- What runs in the innermost loop leaves the activations alone. -/
theorem exec_activations (x : Exec H Outcome) (core : Core H)
    (activations : List (Activation H)) :
    (exec route x core activations).activations = activations := by
  unfold exec
  cases x core <;> rfl

end

/-! ## Nested calls -/

theorem beginCall_of_crowded (core : Core H) {function : Value} {args : List Value}
    {waiter : Waiter H}
    (h : core.world.settings.maxNativeNesting ≤ core.proc.nesting) :
    beginCall core activations function args waiter =
      ⟨core, activations, .answering waiter (.error (.script .stackOverflow))⟩ := by
  obtain ⟨world, proc⟩ := core
  exact if_pos h

theorem beginCall_of_room (core : Core H) {function : Value} {args : List Value} {waiter : Waiter H}
    (h : core.proc.nesting < core.world.settings.maxNativeNesting) :
    beginCall core activations function args waiter =
      exec .loop (Exec.call function args { entryPoint := true } core.proc.ip {}) core.nested
        (.call core.proc.mark waiter :: activations) := by
  obtain ⟨world, proc⟩ := core
  exact if_neg (Nat.not_le_of_lt h)

theorem beginCall_cases (core : Core H) (activations : List (Activation H)) (function : Value)
    (args : List Value) (waiter : Waiter H) :
    beginCall core activations function args waiter =
        ⟨core, activations, .answering waiter (.error (.script .stackOverflow))⟩ ∨
      core.proc.nesting < core.world.settings.maxNativeNesting ∧
        beginCall core activations function args waiter =
          exec .loop (Exec.call function args { entryPoint := true } core.proc.ip {}) core.nested
            (.call core.proc.mark waiter :: activations) := by
  rcases Nat.lt_or_ge core.proc.nesting core.world.settings.maxNativeNesting with hroom | hfull
  · exact Or.inr ⟨hroom, beginCall_of_room core hroom⟩
  · exact Or.inl (beginCall_of_crowded core hfull)

/-! ## Errors -/

section

variable {e : ScriptError} {p : Processor}

omit [Host H] in
theorem catchError_of_caught (core : Core H) {frame : Frame} {handler : NativeRef}
    (h : core.proc.dropErrorPath (frameFloor activations) = (some (frame, handler), p)) :
    catchError core activations e =
      ⟨⟨core.world, { p with stack := p.stack.truncate frame.base }⟩, activations,
        .calling (.native handler) [e.value] (.caught frame.flags frame.returnAddress)⟩ := by
  unfold catchError
  dsimp only
  rw [h]

omit [Host H] in
theorem catchError_of_uncaught (core : Core H)
    (h : core.proc.dropErrorPath (frameFloor activations) = (none, p)) :
    catchError core activations e =
      ⟨⟨core.world, p⟩, activations, .leaving (.error (.script e))⟩ := by
  unfold catchError
  dsimp only
  rw [h]

omit [Host H] in
theorem catchError_cases (core : Core H) (activations : List (Activation H)) (e : ScriptError) :
    (∃ frame handler n,
      core.proc.dropErrorPath (frameFloor activations) =
        (some (frame, handler), { core.proc with frames := core.proc.frames.truncate n }) ∧
      catchError core activations e =
        ⟨⟨core.world, { core.proc with
            frames := core.proc.frames.truncate n
            stack := core.proc.stack.truncate frame.base }⟩, activations,
          .calling (.native handler) [e.value] (.caught frame.flags frame.returnAddress)⟩) ∨
    ∃ n, core.proc.dropErrorPath (frameFloor activations) =
        (none, { core.proc with frames := core.proc.frames.truncate n }) ∧
      catchError core activations e =
        ⟨⟨core.world, { core.proc with frames := core.proc.frames.truncate n }⟩, activations,
          .leaving (.error (.script e))⟩ := by
  obtain ⟨n, hproc⟩ := core.proc.dropErrorPath_snd (frameFloor activations)
  rcases hdropped : core.proc.dropErrorPath (frameFloor activations) with ⟨handler?, p⟩
  obtain rfl : p = _ := hdropped ▸ hproc
  cases handler? with
  | none => exact Or.inr ⟨n, rfl, catchError_of_uncaught core hdropped⟩
  | some found =>
      obtain ⟨frame, handler⟩ := found
      exact Or.inl ⟨frame, handler, n, rfl, catchError_of_caught core hdropped⟩

end

/-! ## Coroutines -/

section

variable {world : World H} {c : Coroutine} {p : Processor} {args : List Value}

/-- What becomes of a coroutine that is let in. -/
inductive Roused (world : World H) (activations : List (Activation H)) (c : Coroutine)
    (p : Processor) (args : List Value) : Machine H → Prop
  | native (hkind : c.kind = .native) :
      Roused world activations c p args ⟨⟨world, p⟩, activations, .calling c.entry args .processor⟩
  | first (hkind : c.kind = .script) (hstate : c.state = .notStarted) :
      Roused world activations c p args
        (exec .loop (Exec.call c.entry args { entryPoint := true } 0 {}) ⟨world, p.enterOutermost⟩
          (.body :: activations))
  | lost (hkind : c.kind = .script) (hstate : c.state = .suspended)
      (hyielded : p.yielded? = none) :
      Roused world activations c p args
        ⟨⟨world, p⟩, activations,
          .switching (.error (.internal "resume without a pending yield"))⟩
  | yielded (frame : Frame) (hkind : c.kind = .script) (hstate : c.state = .suspended)
      (hyielded : p.yielded? = some frame) :
      Roused world activations c p args
        ⟨⟨world, { p.enterOutermost with yielded? := none }⟩, .body :: activations,
          .loop (.finish frame (.tupled args))⟩
  | forced (hkind : c.kind = .script) (hfirst : c.state ≠ .notStarted)
      (hyielded : c.state ≠ .suspended) :
      Roused world activations c p args
        ⟨⟨world, p.enterOutermost⟩, .body :: activations, .loop .proceed⟩

theorem roused_runCoroutine (world : World H) (activations : List (Activation H))
    (c : Coroutine) (p : Processor) (args : List Value) :
    Roused world activations c p args (runCoroutine world activations c p args) := by
  unfold runCoroutine
  split
  · next hkind => exact .native hkind
  · next hkind hstate => exact .first hkind hstate
  · next hkind hstate =>
      split
      · next hyielded => exact .lost hkind hstate hyielded
      · next frame hyielded => exact .yielded frame hkind hstate hyielded
  · next hkind hfirst hyielded => exact .forced hkind hfirst hyielded

theorem runCoroutine_of_yielded {frame : Frame} (hkind : c.kind = .script)
    (hstate : c.state = .suspended) (hyielded : p.yielded? = some frame) :
    runCoroutine world activations c p args =
      ⟨⟨world, { p.enterOutermost with yielded? := none }⟩, .body :: activations,
        .loop (.finish frame (.tupled args))⟩ := by
  unfold runCoroutine
  rw [hkind, hstate]
  dsimp only
  rw [hyielded]

theorem runCoroutine_of_forced (hkind : c.kind = .script) (hstate : c.state = .forceSuspended) :
    runCoroutine world activations c p args =
      ⟨⟨world, p.enterOutermost⟩, .body :: activations, .loop .proceed⟩ := by
  unfold runCoroutine
  rw [hkind, hstate]

end

variable {r : CoroutineRef} {args : List Value}
  {next : Except RuntimeError Value → Action H NativeOutcome}

theorem resume_of_refused (core : Core H) {e : RuntimeError}
    (h : core.world.resumeRefusal? r args = some e) :
    resume core activations r args next = ⟨core, activations, .running (next (.error e))⟩ := by
  unfold resume
  dsimp only
  rw [h]

theorem resume_of_accepted (core : Core H) {c : Coroutine} {p : Processor}
    (h : core.world.resumeRefusal? r args = none) (hc : core.world.coroutine? r = some c)
    (hp : c.processor? = some p) :
    resume core activations r args next =
      runCoroutine (core.world.engage r) (.switch r core.proc next :: activations) c p args := by
  unfold resume
  dsimp only
  rw [h, World.coroutine_of_coroutine? hc, hp]
  rfl

theorem resume_cases (core : Core H) (activations : List (Activation H)) (r : CoroutineRef)
    (args : List Value) (next : Except RuntimeError Value → Action H NativeOutcome) :
    (∃ e, core.world.resumeRefusal? r args = some e ∧
      resume core activations r args next = ⟨core, activations, .running (next (.error e))⟩) ∨
    ∃ c p, core.world.coroutine? r = some c ∧ c.processor? = some p ∧
      c.state.isSuspended = true ∧ core.world.resumeRefusal? r args = none ∧
      resume core activations r args next =
        runCoroutine (core.world.engage r) (.switch r core.proc next :: activations) c p args := by
  cases hrefusal : core.world.resumeRefusal? r args with
  | some e => exact Or.inl ⟨e, rfl, resume_of_refused core hrefusal⟩
  | none =>
      obtain ⟨c, p, hc, hp, hstate⟩ := World.atRest_of_accepted hrefusal
      exact Or.inr ⟨c, p, hc, hp, hstate, rfl, resume_of_accepted core hrefusal hc hp⟩

omit [Host H] in
theorem enterMain_cases (core : Core H) (activations : List (Activation H)) (function : Value)
    (args : List Value) (next : Except RuntimeError Value → Action H NativeOutcome) :
    enterMain core activations function args next =
        ⟨core, activations, .running (next (.error (.contract .reentrancy)))⟩ ∨
    ∃ c p, core.world.coroutine? core.world.main = some c ∧ c.processor? = some p ∧
      enterMain core activations function args next =
        ⟨⟨core.world.engage core.world.main, p⟩,
          .switch core.world.main core.proc next :: activations,
          .calling function args .processor⟩ := by
  unfold enterMain
  dsimp only
  cases hp : (core.world.coroutine core.world.main).processor? with
  | none => exact Or.inl rfl
  | some p => exact Or.inr ⟨_, p, World.coroutine?_of_processor? hp, hp, rfl⟩

end Machine

end ScriptEngine
