import ScriptEngine.Native.Arguments
import ScriptEngine.World.Metamethod

/-!
# What host functions do

The body of a host function is an action: it looks at the world and changes it, calls
back into scripts, resumes coroutines, and ends with an outcome or an error.  An action
is data, so that the machine decides when each of its parts happens.
-/

namespace ScriptEngine

/-- A call to be made in place of a host function's own result. -/
structure TailCallRequest where
  function : Value
  args : List Value
  /-- The call's result goes through this function. -/
  continuation? : Option NativeRef := none
  /-- A script error of the call is answered by this function. -/
  errorHandler? : Option NativeRef := none
  /-- Sees the error's value before any frame is dropped. -/
  beforeUnwind? : Option Value := none
deriving DecidableEq, Inhabited

/-- How a host function ends. -/
inductive NativeOutcome where
  | result (v : Value)
  | tailCall (request : TailCallRequest)
  | yield (v : Value)
deriving DecidableEq

inductive Action (H : HostTypes) (α : Type) where
  | done (a : α)
  | fail (e : RuntimeError)
  /-- Looks at the world. -/
  | read (next : World H → Action H α)
  /-- Changes the world. -/
  | write (change : World H → World H) (next : Action H α)
  /-- Calls a function to its end, on the processor that runs the host function. -/
  | call (function : Value) (args : List Value) (next : Except RuntimeError Value → Action H α)
  /-- Resumes a coroutine. -/
  | resume (c : CoroutineRef) (args : List Value)
      (next : Except RuntimeError Value → Action H α)
  /-- Calls a function on the main coroutine, as the host does from outside. -/
  | enterMain (function : Value) (args : List Value)
      (next : Except RuntimeError Value → Action H α)

namespace Action

variable {H : HostTypes} {α β : Type}

/-- The second action goes on with what the first one is done with. -/
def bind : Action H α → (α → Action H β) → Action H β
  | .done a, f => f a
  | .fail e, _ => .fail e
  | .read next, f => .read fun w => bind (next w) f
  | .write change next, f => .write change (bind next f)
  | .call function args next, f => .call function args fun r => bind (next r) f
  | .resume c args next, f => .resume c args fun r => bind (next r) f
  | .enterMain function args next, f => .enterMain function args fun r => bind (next r) f

instance : Monad (Action H) where
  pure := .done
  bind := bind

/-- An action that only hands its result on is no different without that. -/
theorem bind_done (a : Action H α) : a.bind .done = a := by
  induction a with
  | done a => rfl
  | fail e => rfl
  | read next ih => simp [bind, ih]
  | write change next ih => simp [bind, ih]
  | call function args next ih => simp [bind, ih]
  | resume c args next ih => simp [bind, ih]
  | enterMain function args next ih => simp [bind, ih]

theorem bind_assoc {γ : Type} (a : Action H α) (f : α → Action H β) (g : β → Action H γ) :
    (a.bind f).bind g = a.bind fun x => (f x).bind g := by
  induction a with
  | done a => rfl
  | fail e => rfl
  | read next ih => simp [bind, ih]
  | write change next ih => simp [bind, ih]
  | call function args next ih => simp [bind, ih]
  | resume c args next ih => simp [bind, ih]
  | enterMain function args next ih => simp [bind, ih]

instance : LawfulMonad (Action H) :=
  LawfulMonad.mk' (Action H) bind_done (fun _ _ => rfl) bind_assoc

/-- Goes on with a result and ends with an error. -/
def ofResult : Except RuntimeError α → Action H α
  | .ok a => .done a
  | .error e => .fail e

/-- Goes on with a result and ends with a script error. -/
def ofScript : Except ScriptError α → Action H α
  | .ok a => .done a
  | .error e => .fail (.script e)

def raise (e : ScriptError) : Action H α := .fail (.script e)

/-- What a function of the world gives. -/
def ask (f : World H → α) : Action H α := .read fun w => .done (f w)

def change (f : World H → World H) : Action H Unit := .write f (.done ())

/-- Adds a new object and gives the number it gets. -/
def create (o : Object H) : Action H Nat :=
  .read fun w =>
    let id := w.nextId
    .write (fun w => w.add o) (.done id)

def newTable : Action H TableRef := do pure ⟨← create (.table {})⟩

/-- The length of a table. -/
def tableLength (t : TableRef) : Action H Nat := do
  change fun w => w.noteLength (.table t)
  ask fun w => (w.table t).length

/-- Calls a function to its end and fails as it fails. -/
def callValue (function : Value) (args : List Value) : Action H Value :=
  .call function args ofResult

end Action

/-- What a host function is told about its call. -/
structure CallInfo where
  /-- Where the call stands in the script. -/
  location? : Option SourceLocation
  /-- Whether the function may yield. -/
  yieldable : Bool

/-- What a host's functions do. -/
class Host (H : HostTypes) extends HostObjects H where
  run : H.Function → CallInfo → Arguments → Action H NativeOutcome

end ScriptEngine
