import ScriptEngine.Machine.Resolve
import ScriptEngine.Native.Action

/-!
# Operators for host functions

A host function uses the operators of the scripts with their metamethods.  A metamethod
runs to its end before the function goes on, so none of them can yield.
-/

namespace ScriptEngine.Action

variable {H : HostTypes} [HostObjects H]

/-- Makes the call that an operator still needs. -/
def complete : Resolved → Action H Value
  | .value v => pure v
  | .call p => do
    let v ← callValue p.function p.args
    let result? ← ofScript (p.post.apply v)
    pure (result?.getD .void)

/-- `object[key]`. -/
def index (object key : Value) : Action H Value := do
  complete (← ofResult (← ask fun w => w.resolveIndex object key))

/-- `object[key] = value`. -/
def setIndex (object key value : Value) : Action H Unit := do
  match ← ofResult (← ask fun w => w.resolveSetIndex object key value) with
  | .call p =>
    let _ ← callValue p.function p.args
    pure ()
  | assignment => change fun w => w.assign assignment

/-- The length of a value. -/
def length (v : Value) : Action H Value := do
  change fun w => w.noteLength v
  complete (← ofResult (← ask fun w => w.resolveLength v))

def equals (a b : Value) : Action H Bool := do
  pure (← complete (← ask fun w => w.resolveEqual a b)).toBool

def lessThan (a b : Value) : Action H Bool := do
  pure (← complete (← ofResult (← ask fun w => w.resolveLess a b))).toBool

/-- The text of a value, which its own definition has to give as a text. -/
def displayText (v : Value) : Action H String := do
  match (← complete (← ask fun w => w.resolveText v)).toScalar with
  | .string s => pure s
  | _ => raise (.userText "'__tostring' must return a string")

end ScriptEngine.Action
