import ScriptEngine.Library.Catalog
import ScriptEngine.Machine.Activation
import ScriptEngine.Machine.Execute
import ScriptEngine.Machine.Unwind

/-!
# The machine

`Machine.next` is one small step, `Machine.run` takes steps until all is done.  The host's
request to stop is looked at before every instruction, and so is the budget of a
coroutine that has one.
-/

namespace ScriptEngine

variable {H : HostTypes} [Host H]

/-! ## Host functions -/

/-- What a function does when it is invoked now. -/
def Core.invoke (core : Core H) (f : NativeRef) (args : Arguments) : Action H NativeOutcome :=
  match core.world.native? f with
  | none => .fail (.internal "no such function")
  | some native =>
    let info : CallInfo := ⟨core.proc.location?, core.proc.isYieldable⟩
    match native.body with
    | .library f => f.action info args
    | .host f => Host.run f info args

/-! ## Coroutines -/

/-- The state once the coroutine takes part in the execution. -/
def CoroutineState.engaged : CoroutineState → CoroutineState
  | .main => .main
  | _ => .running

/-- The state after the coroutine's loop has ended. -/
def CoroutineState.after (s : CoroutineState) (exit : Except RuntimeError LoopExit) :
    CoroutineState :=
  match s, exit with
  | .main, _ => .main
  | _, .ok (.returned _) => .dead
  | _, .ok (.yielded _) => .suspended
  | _, .ok .forceYielded => .forceSuspended
  | _, .error _ => .dead

/-- What whoever resumed a coroutine gets from it. -/
def LoopExit.value : LoopExit → Value
  | .returned v => v
  | .yielded v => v
  | .forceYielded => .void

namespace World

omit [Host H] in
/-- Why a coroutine cannot be resumed with these arguments, if it cannot. -/
def resumeRefusal? (w : World H) (c : CoroutineRef) (args : List Value) : Option RuntimeError :=
  let co := w.coroutine c
  if co.state = .dead then some (.contract .resumeDead)
  else if !co.state.isSuspended then some (.contract .resumeNotSuspended)
  else if co.state = .forceSuspended && !args.isEmpty then
    some (.contract .forceSuspendedWithArgs)
  else if co.processor?.isNone then some (.contract .resumeNotSuspended)
  else if w.settings.maxNativeNesting ≤ w.inFlight.length then some (.script .stackOverflow)
  else none

omit [Host H] in
/-- The coroutine's processor is at work from now on. -/
def engage (w : World H) (c : CoroutineRef) : World H :=
  let w := w.modifyCoroutine c fun co =>
    { co with state := co.state.engaged, processor? := none }
  { w with inFlight := c :: w.inFlight }

omit [Host H] in
/-- The coroutine's processor rests again. -/
def release (w : World H) (c : CoroutineRef) (p : Processor)
    (exit : Except RuntimeError LoopExit) : World H :=
  let w := w.modifyCoroutine c fun co =>
    { co with state := co.state.after exit, processor? := some p }
  { w with inFlight := w.inFlight.tail }

end World

/-- The processor as its outermost loop begins. -/
def Processor.enterOutermost (p : Processor) : Processor := { p with nesting := 1, executed := 0 }

namespace Exec

/-- The outcome of a yield: only the outermost loop of a coroutine can be left by one. -/
def checkYield : Exec H Unit := do
  let p ← askProc id
  if !p.canYield then
    modifyProc fun p => { p with yielded? := none }
    throw (.contract .yieldFromMain)
  else if 1 < p.nesting then
    modifyProc fun p => { p with yielded? := none }
    throw (.contract .cannotYield)

/-- The next instruction, unless the host asked to stop or the budget is used up. -/
def poll : Exec H Outcome := do
  if ← ask (·.cancelled) then throw .terminated
  else
    let due ← modifyGet fun c =>
      let (due, proc) := c.proc.countInstruction
      (due, { c with proc })
    if due then pure .forceYield else step

end Exec

namespace Machine

/-! ## Steps -/

/-- Where the outcome of a program goes: to the innermost loop, or to the frames that wait for
the answer of an error handler. -/
inductive Route where
  | loop
  | settling

/-- What comes after a program that is through. -/
@[simp]
def Route.done : Route → Outcome → Control H
  | .loop, o => .loop o
  | .settling, o => .settling o

/-- What comes after a program that failed: a loop looks for a handler, and a handler's answer
that cannot be handed on ends the loop. -/
@[simp]
def Route.failed : Route → RuntimeError → Control H
  | .loop, e => .failed e
  | .settling, e => .leaving (.error e)

/-- Does something in the innermost loop. -/
def exec (route : Route) (x : Exec H Outcome) (core : Core H)
    (activations : List (Activation H)) : Machine H :=
  match x core with
  | .ok o core => ⟨core, activations, route.done o⟩
  | .error e core => ⟨core, activations, route.failed e⟩

/-- The innermost loop goes on. -/
def afterOutcome (core : Core H) (activations : List (Activation H)) : Outcome → Machine H
  | .proceed => exec .loop Exec.poll core activations
  | .finish frame v => exec .loop (Exec.finish frame v) core activations
  | .tailCall request flags returnAddress =>
    exec .loop (Exec.callRequest request flags returnAddress) core activations
  | .invoke f args => ⟨core, activations, .running (core.invoke f args)⟩
  | .recover e none handler flags returnAddress =>
    ⟨core, activations, .calling (.native handler) [e.value] (.recovered flags returnAddress)⟩
  | .recover e (some decorator) handler flags returnAddress =>
    ⟨core, activations, .calling decorator [e.value] (.refused e handler flags returnAddress)⟩
  | .yield v =>
    match Exec.checkYield core with
    | .ok _ core => ⟨core, activations, .leaving (.ok (.yielded v))⟩
    | .error e core => ⟨core, activations, .failed e⟩
  | .forceYield => ⟨core, activations, .leaving (.ok .forceYielded)⟩
  | .return v => ⟨core, activations, .leaving (.ok (.returned v))⟩

/-- Only script errors can be handled; all others end the loop. -/
def afterFailure (core : Core H) (activations : List (Activation H)) : RuntimeError → Machine H
  | .script e =>
    let floor := frameFloor activations
    ⟨core, activations,
      .unwinding (core.proc.located core.world floor e) (core.proc.decorators floor)⟩
  | e =>
    let ⟨world, proc⟩ := core
    let frames := proc.frames.truncate (frameFloor activations)
    ⟨⟨world, { proc with frames }⟩, activations, .leaving (.error e)⟩

/-- The frames an error passes go, and the handler answers it. -/
def catchError (core : Core H) (activations : List (Activation H)) (e : ScriptError) : Machine H :=
  let ⟨world, proc⟩ := core
  let (handler?, proc) := proc.dropErrorPath (frameFloor activations)
  match handler? with
  | some (frame, handler) =>
    ⟨⟨world, { proc with stack := proc.stack.truncate frame.base }⟩, activations,
      .calling (.native handler) [e.value] (.caught frame.flags frame.returnAddress)⟩
  | none => ⟨⟨world, proc⟩, activations, .leaving (.error (.script e))⟩

/-- Begins a nested call. -/
def beginCall (core : Core H) (activations : List (Activation H)) (function : Value)
    (args : List Value) (waiter : Waiter H) : Machine H :=
  let ⟨world, proc⟩ := core
  if world.settings.maxNativeNesting ≤ proc.nesting then
    ⟨⟨world, proc⟩, activations, .answering waiter (.error (.script .stackOverflow))⟩
  else
    let mark : LoopMark := ⟨proc.ip, proc.chunk?, proc.frames.height, proc.stack.height⟩
    exec .loop (Exec.call function args { entryPoint := true } mark.ip {})
      ⟨world, { proc with nesting := proc.nesting + 1 }⟩ (.call mark waiter :: activations)

/-- Ends a nested loop: only a value that was returned leaves the operands and frames as they
are. -/
def endCall (core : Core H) (activations : List (Activation H)) (mark : LoopMark)
    (waiter : Waiter H) (exit : Except RuntimeError LoopExit) : Machine H :=
  let ⟨world, proc⟩ := core
  let proc := { proc with nesting := proc.nesting - 1, ip := mark.ip, chunk? := mark.chunk? }
  let cut (p : Processor) : Processor :=
    { p with frames := p.frames.truncate mark.frames, stack := p.stack.truncate mark.stack }
  match exit with
  | .ok (.returned v) => ⟨⟨world, proc⟩, activations, .answering waiter (.ok v)⟩
  | .ok _ =>
    ⟨⟨world, cut proc⟩, activations, .answering waiter (.error (.contract .cannotYield))⟩
  | .error e => ⟨⟨world, cut proc⟩, activations, .answering waiter (.error e)⟩

/-- Ends the outermost loop of a coroutine. -/
def endBody (core : Core H) (activations : List (Activation H))
    (exit : Except RuntimeError LoopExit) : Machine H :=
  let ⟨world, proc⟩ := core
  let proc := { proc with nesting := 0 }
  match exit with
  | .ok _ => ⟨⟨world, proc⟩, activations, .switching exit⟩
  | .error _ =>
    ⟨⟨world, { proc with frames := .empty, stack := .empty, yielded? := none }⟩, activations,
      .switching exit⟩

/-- Ends the innermost loop. -/
def leave (core : Core H) (activations : List (Activation H))
    (exit : Except RuntimeError LoopExit) : Machine H :=
  match activations with
  | .call mark waiter :: rest => endCall core rest mark waiter exit
  | .body :: rest => endBody core rest exit
  | _ => ⟨core, activations, .finished (.error (.internal "no loop to leave"))⟩

/-- The error in place of one whose value could not be replaced. -/
def decoratorFailure (e : ScriptError) : ScriptError :=
  { ScriptError.userText "error in error handling" with traceback := e.traceback }

/-- The error after a function that wanted to see it. -/
def afterDecorator (e : ScriptError) : Except RuntimeError Value → ScriptError
  | .ok v => e.replaceValue v.toStorable
  | .error _ => decoratorFailure e

/-- Hands the result of a nested call to what waits for it. -/
def answer (core : Core H) (activations : List (Activation H))
    (result : Except RuntimeError Value) : Waiter H → Machine H
  | .action next => ⟨core, activations, .running (next result)⟩
  | .decorated e rest => ⟨core, activations, .unwinding (afterDecorator e result) rest⟩
  | .refused e handler flags returnAddress =>
    ⟨core, activations,
      .calling (.native handler) [(afterDecorator e result).value] (.recovered flags returnAddress)⟩
  | .recovered flags returnAddress =>
    match result with
    | .ok v => exec .loop (Exec.deliver flags returnAddress (some v)) core activations
    | .error e => ⟨core, activations, .failed e⟩
  | .caught flags returnAddress =>
    match result with
    | .ok v => exec .settling (Exec.deliver flags returnAddress (some v)) core activations
    | .error e => ⟨core, activations, .failed e⟩
  | .processor => ⟨core, activations, .switching (result.map .returned)⟩

/-- The answer of an error handler goes through the frames that wait for it. -/
def settle (core : Core H) (activations : List (Activation H)) : Outcome → Machine H
  | .finish frame v => exec .settling (Exec.finish frame v) core activations
  | o => ⟨core, activations, .loop o⟩

/-- Begins to run a coroutine on its processor; `c` is as it was before. -/
def runCoroutine (world : World H) (activations : List (Activation H)) (c : Coroutine)
    (proc : Processor) (args : List Value) : Machine H :=
  match c.kind, c.state with
  | .native, _ => ⟨⟨world, proc⟩, activations, .calling c.entry args .processor⟩
  | .script, .notStarted =>
    exec .loop (Exec.call c.entry args { entryPoint := true } 0 {}) ⟨world, proc.enterOutermost⟩
      (.body :: activations)
  | .script, .suspended =>
    match proc.yielded? with
    | none =>
      ⟨⟨world, proc⟩, activations, .switching (.error (.internal "resume without a pending yield"))⟩
    | some frame =>
      ⟨⟨world, { proc.enterOutermost with yielded? := none }⟩, .body :: activations,
        .loop (.finish frame (.tupled args))⟩
  | .script, _ => ⟨⟨world, proc.enterOutermost⟩, .body :: activations, .loop .proceed⟩

/-- Resumes a coroutine. -/
def resume (core : Core H) (activations : List (Activation H)) (r : CoroutineRef)
    (args : List Value) (next : Except RuntimeError Value → Action H NativeOutcome) : Machine H :=
  let ⟨world, outer⟩ := core
  match world.resumeRefusal? r args with
  | some e => ⟨⟨world, outer⟩, activations, .running (next (.error e))⟩
  | none =>
    let c := world.coroutine r
    runCoroutine (world.engage r) (.switch r outer next :: activations) c
      (c.processor?.getD {}) args

/-- Calls a function on the processor of the main coroutine. -/
def enterMain (core : Core H) (activations : List (Activation H)) (function : Value)
    (args : List Value) (next : Except RuntimeError Value → Action H NativeOutcome) : Machine H :=
  let ⟨world, outer⟩ := core
  match (world.coroutine world.main).processor? with
  | none => ⟨⟨world, outer⟩, activations, .running (next (.error (.contract .reentrancy)))⟩
  | some proc =>
    let main := world.main
    ⟨⟨world.engage main, proc⟩, .switch main outer next :: activations,
      .calling function args .processor⟩

/-- A coroutine gives way to whoever resumed it. -/
def switchBack (core : Core H) (activations : List (Activation H))
    (exit : Except RuntimeError LoopExit) : Machine H :=
  let ⟨world, proc⟩ := core
  match activations with
  | .switch r outer next :: rest =>
    ⟨⟨world.release r proc exit, outer⟩, rest, .running (next (exit.map LoopExit.value))⟩
  | _ => ⟨⟨world, proc⟩, activations, .finished (.error (.internal "no coroutine to leave"))⟩

/-- What the host itself gets: it waits for no other outcome than a result. -/
def hostResult : NativeOutcome → Except RuntimeError Value
  | .result v => .ok v
  | .tailCall _ => .error (.internal "no frame for a tail call")
  | .yield _ => .error (.internal "no frame for a yield")

/-- A host function goes on. -/
def act (core : Core H) (activations : List (Activation H)) : Action H NativeOutcome → Machine H
  | .done outcome =>
    match activations with
    | [] => ⟨core, [], .finished (hostResult outcome)⟩
    | _ :: _ => exec .loop (Exec.completeNative outcome) core activations
  | .fail e =>
    match activations with
    | [] => ⟨core, [], .finished (.error e)⟩
    | _ :: _ => ⟨core, activations, .failed e⟩
  | .read next => ⟨core, activations, .running (next core.world)⟩
  | .write change next =>
    let ⟨world, proc⟩ := core
    ⟨⟨change world, proc⟩, activations, .running next⟩
  | .call function args next => ⟨core, activations, .calling function args (.action next)⟩
  | .resume r args next => resume core activations r args next
  | .enterMain function args next => enterMain core activations function args next

/-- One small step. -/
def next (m : Machine H) : Machine H :=
  let ⟨core, activations, control⟩ := m
  match control with
  | .loop o => afterOutcome core activations o
  | .failed e => afterFailure core activations e
  | .unwinding e [] => catchError core activations e
  | .unwinding e (d :: rest) => ⟨core, activations, .calling d [e.value] (.decorated e rest)⟩
  | .calling function args waiter => beginCall core activations function args waiter
  | .leaving exit => leave core activations exit
  | .answering waiter result => answer core activations result waiter
  | .switching exit => switchBack core activations exit
  | .settling o => settle core activations o
  | .running a => act core activations a
  | .finished result => ⟨core, activations, .finished result⟩

/-- Takes steps until all is done, at most `fuel` many. -/
def run : Nat → Machine H → Option (Except RuntimeError Value × World H)
  | 0, _ => none
  | fuel + 1, ⟨core, activations, control⟩ =>
    match control with
    | .finished result => some (result, core.world)
    | control => run fuel (next ⟨core, activations, control⟩)

theorem run_succ (fuel : Nat) {m : Machine H} (h : ∀ result, m.control ≠ .finished result) :
    run (fuel + 1) m = run fuel m.next := by
  obtain ⟨core, activations, control⟩ := m
  cases control with
  | finished result => exact absurd rfl (h result)
  | _ => simp [run]

/-- More fuel than was needed changes nothing. -/
theorem run_of_le {fuel more : Nat} {m : Machine H} {r : Except RuntimeError Value × World H}
    (h : run fuel m = some r) (hle : fuel ≤ more) : run more m = some r := by
  induction fuel generalizing more m with
  | zero => simp [run] at h
  | succ fuel ih =>
    obtain ⟨more, rfl⟩ : ∃ k, more = k + 1 := ⟨more - 1, by omega⟩
    obtain ⟨core, activations, control⟩ := m
    cases control with
    | finished result => simpa [run] using h
    | _ =>
      rw [run_succ fuel (by simp)] at h
      rw [run_succ more (by simp)]
      exact ih h (by omega)

end Machine

end ScriptEngine
