import ScriptEngine.Native.Action

/-!
# Raising and catching errors

A protected call asks for the call of its function in its own place, with two functions
that turn the results or the error's value into its own results.
-/

namespace ScriptEngine.Library

variable {H : HostTypes}

/-- Several results. -/
def results (values : List Value) : Action H NativeOutcome :=
  pure (.result (.tupled values))

def one (v : Value) : Action H NativeOutcome := pure (.result v)

/-- Hands all arguments back if the first counts as true, else raises the second. -/
def assert (a : Arguments) : Action H NativeOutcome :=
  if (a.get 0).toBool then results a.values
  else if (a.get 1).isNil then .raise (.userText "assertion failed!")
  else .raise (.user (a.get 1))

/-- Raises a value; at level 0 no place is put in front of it. -/
def error (a : Arguments) : Action H NativeOutcome := do
  let level ← .ofScript (a.asOptionalInteger 1 "error" 1)
  let e := ScriptError.user (a.get 0).toStorable
  .raise (if level = 0 then e.freeze else e)

def pcall (ok failed : NativeRef) (a : Arguments) : Action H NativeOutcome :=
  if (a.get 0).isVoid then .raise (.badArgument 1 "pcall" "value expected")
  else
    pure (.tailCall
      { function := a.get 0, args := a.rest 1
        continuation? := some ok, errorHandler? := some failed })

/-- A protected call in which a function of the script sees the error first. -/
def xpcall (ok failed : NativeRef) (a : Arguments) : Action H NativeOutcome := do
  let handler ← .ofScript (a.asType 1 "xpcall" .function false)
  pure (.tailCall
    { function := a.get 0, args := a.rest 2
      continuation? := some ok, errorHandler? := some failed, beforeUnwind? := some handler })

/-- The results of a protected call that went well. -/
def protectedOk (a : Arguments) : Action H NativeOutcome :=
  results (.boolean true :: a.values.filter fun v => !v.isVoid)

/-- The results of a protected call that failed. -/
def protectedFailed (a : Arguments) : Action H NativeOutcome :=
  results [.boolean false, (a.get 0).toStorable]

end ScriptEngine.Library
