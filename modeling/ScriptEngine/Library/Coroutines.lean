import ScriptEngine.Library.Protection

/-!
# Coroutines for scripts

A resume that is refused is reported to the script; every other broken rule of the
embedding goes on to the host.
-/

namespace ScriptEngine

/-- The error says that the coroutine could not be resumed at all. -/
def RuntimeError.isResumeRefusal : RuntimeError → Bool
  | .contract .resumeDead => true
  | .contract .resumeNotSuspended => true
  | .contract .forceSuspendedWithArgs => true
  | _ => false

namespace Library

variable {H : HostTypes}

/-- A coroutine that has not run. -/
def newCoroutine (entry : Value) : Action H CoroutineRef :=
  .read fun w =>
    let r : CoroutineRef := ⟨w.nextId⟩
    .write (fun w => (w.addCoroutine .script entry).2) (pure r)

def coroutineArgument (a : Arguments) (function : String) : Action H CoroutineRef :=
  match (a.get 0).toScalar with
  | .thread c => pure c
  | v => .raise (.badArgument 1 function ("coroutine expected, got " ++ v.typeName))

def create (a : Arguments) : Action H NativeOutcome := do
  let f ← .ofScript (a.asType 0 "create" .function false)
  one (.thread (← newCoroutine f))

def isYieldable (info : CallInfo) : Action H NativeOutcome := one (.boolean info.yieldable)

/-- True and the values the coroutine gave, or false and the error. -/
def resume (a : Arguments) : Action H NativeOutcome := do
  let c ← coroutineArgument a "resume"
  .resume c (a.rest 1) fun
    | .ok v => results [.boolean true, v]
    | .error (.script e) => results [.boolean false, e.value]
    | .error e =>
      if e.isResumeRefusal then results [.boolean false, .string e.message] else .fail e

/-- The coroutine that runs, and whether it is the main one. -/
def running : Action H NativeOutcome := do
  match ← .ask fun w => w.current? with
  | none => one .nil
  | some c =>
    let state ← .ask fun w => (w.coroutine c).state
    results [.thread c, .boolean (state = .main)]

/-- The state of a coroutine in a word; one that waits for another is normal. -/
def statusName (state : CoroutineState) (isCurrent : Bool) : String :=
  match state with
  | .running | .main => if isCurrent then "running" else "normal"
  | .dead => "dead"
  | .notStarted | .suspended | .forceSuspended => "suspended"

def status (a : Arguments) : Action H NativeOutcome := do
  let c ← coroutineArgument a "status"
  let isCurrent ← .ask fun w => decide (w.current? = some c)
  let state ← .ask fun w => (w.coroutine c).state
  one (.string (statusName state isCurrent))

/-- A function that resumes a new coroutine. -/
def wrap (a : Arguments) : Action H NativeOutcome := do
  let f ← .ofScript (a.asType 0 "wrap" .function false)
  let c ← newCoroutine f
  one (.native ⟨← .create (.native { name := "wrap", body := .library (.wrapped c) })⟩)

/-- Resumes the coroutine behind a wrapping function and raises its errors anew. -/
def wrapped (c : CoroutineRef) (a : Arguments) : Action H NativeOutcome :=
  .resume c a.values fun
    | .ok v => one v
    | .error e =>
      if e.isResumeRefusal then .raise (.userText e.message) else .fail e

def yieldValues (a : Arguments) : Action H NativeOutcome :=
  pure (.yield (.tupled a.values))

end Library

end ScriptEngine
