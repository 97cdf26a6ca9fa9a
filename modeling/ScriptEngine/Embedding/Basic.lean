import ScriptEngine.Interchange.Conversion
import ScriptEngine.Machine.Run
import ScriptEngine.Scope.Symbol

/-!
# Using an engine

What a host can do with a world while nothing runs in it, and how it has something run:
as an action, which the machine takes from step to step.
-/

namespace ScriptEngine.World

variable {H : HostTypes}

/-! ## Chunks -/

/-- A closure over a whole chunk, with the value that stands for its globals. -/
def loadWithEnv (w : World H) (chunk : Chunk) (env : Value) :
    Except RuntimeError (Value × World H) :=
  match chunk.faults with
  | [] =>
    let (cell, w) := w.newCell env
    let (f, w) := w.addClosure
      { chunk
        entry := 0
        upvalues := #[cell]
        upvalueNames := [Symbol.envName]
        name? := some chunk.name }
    .ok (.function f, w)
  | faults => .error (.ofFaults faults)

/-- A closure over a whole chunk. -/
def load (w : World H) (chunk : Chunk) : Except RuntimeError (Value × World H) :=
  w.loadWithEnv chunk (.table w.globals)

/-! ## Globals -/

def getGlobal (w : World H) (name : String) : Value := (w.table w.globals).getName name

def setGlobal (w : World H) (name : String) (v : Value) : World H := w.setNamed w.globals name v

/-- A global as data of the host. -/
def readGlobal {α : Type} [FromValue α] (w : World H) (name : String) : Except RuntimeError α :=
  (fromValue w (w.getGlobal name)).mapError .ofConversion

/-- The table that functions of a namespace go into: the globals, or the global of that name, which
is made if there is none. -/
def namespaceTable (w : World H) : Option String → Except RuntimeError (TableRef × World H)
  | none => .ok (w.globals, w)
  | some name =>
    match w.getGlobal name with
    | .table t => .ok (t, w)
    | .nil | .void =>
      let (t, w) := w.newTable
      .ok (t, w.setGlobal name (.table t))
    | v =>
      .error (.script
        { kind := .index
          message := "cannot register into global '" ++ name ++ "' (" ++ v.typeName ++ " value)" })

/-- Puts a function into a namespace under its own name. -/
def register (w : World H) (namespace? : Option String) (f : NativeRef) :
    Except RuntimeError (World H) := do
  let (t, w) ← w.namespaceTable namespace?
  pure (w.setNamed t (w.nativeName f) (.native f))

/-! ## Coroutines -/

/-- A coroutine over a function. -/
def createCoroutine (w : World H) (f : Value) : Except RuntimeError (CoroutineRef × World H) :=
  if f.isCallable then .ok (w.addCoroutine .script f)
  else
    .error (.script
      { kind := .call
        message := "cannot create a coroutine from a " ++ f.typeName ++ " value" })

/-- A coroutine that runs a host function to its end. -/
def createNativeCoroutine (w : World H) (f : NativeRef) : CoroutineRef × World H :=
  w.addCoroutine .native (.native f)

/-- Gives a coroutine that does not run a budget. -/
def setAutoYield (w : World H) (c : CoroutineRef) (budget? : Option Nat) :
    Except RuntimeError (World H) :=
  match (w.coroutine c).processor? with
  | none => .error (.contract .resumeNotSuspended)
  | some p =>
    .ok (w.modifyCoroutine c fun co => { co with processor? := some (p.setAutoYield budget?) })

/-- The most frames there have been on a coroutine that does not run. -/
def peakFrames (w : World H) (c : CoroutineRef) : Nat :=
  match (w.coroutine c).processor? with
  | some p => p.peakFrames
  | none => 0

/-! ## Stopping -/

/-- Asks for the end of all execution. -/
def cancel (w : World H) : World H := { w with cancelled := true }

/-- Takes back the request to stop. -/
def resetCancel (w : World H) : World H := { w with cancelled := false }

/-! ## Running -/

/-- Runs an action of the host to its end, in at most the given number of steps. -/
def perform [Host H] (w : World H) (fuel : Nat) (a : Action H Value) :
    Option (Except RuntimeError Value × World H) :=
  Machine.run fuel (.start w (a.bind fun v => .done (.result v)))

/-- Calls a function on the main coroutine. -/
def callFunction [Host H] (w : World H) (fuel : Nat) (f : Value) (args : List Value) :
    Option (Except RuntimeError Value × World H) :=
  w.perform fuel (.enterMain f args .ofResult)

/-- Calls a global function. -/
def callGlobal [Host H] (w : World H) (fuel : Nat) (name : String) (args : List Value) :
    Option (Except RuntimeError Value × World H) :=
  w.callFunction fuel (w.getGlobal name) args

/-- Resumes a coroutine. -/
def resume [Host H] (w : World H) (fuel : Nat) (c : CoroutineRef) (args : List Value) :
    Option (Except RuntimeError Value × World H) :=
  w.perform fuel (.resume c args .ofResult)

end ScriptEngine.World
