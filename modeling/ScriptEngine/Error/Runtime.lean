import ScriptEngine.Chunk.Validity
import ScriptEngine.Error.Script

/-!
# Everything that can stop a script

Besides the errors scripts can catch there are broken rules of the embedding, broken
chunks, the host's request to stop, and operands that leave the machine's number
range.  None of these can be caught by a script.
-/

namespace ScriptEngine

/-- A value that has no counterpart of the wanted type. -/
inductive ConversionError where
  | typeMismatch (expected found : String)
  | elementMismatch (index : Nat) (expected found : String)
  | fieldMismatch (key expected found : String)
  | outOfRange (value : Float) (target : String)
  | noJson (reason : String)
deriving DecidableEq, Repr

def ConversionError.message : ConversionError → String
  | .typeMismatch expected found =>
    "type mismatch: expected " ++ expected ++ ", found " ++ found
  | .elementMismatch index expected found =>
    "sequence element type mismatch at index " ++ toString index ++ ": expected " ++ expected ++
      ", found " ++ found
  | .fieldMismatch key expected found =>
    "field type mismatch for key '" ++ key ++ "': expected " ++ expected ++ ", found " ++ found
  | .outOfRange value target =>
    "number " ++ Numeral.renderPositional value ++ " is not representable as " ++ target
  | .noJson reason => "cannot convert to JSON: " ++ reason

/-- A rule of the embedding that the host broke. -/
inductive ContractViolation where
  | resumeDead
  | resumeNotSuspended
  | forceSuspendedWithArgs
  | yieldFromMain
  | cannotYield
  | crossThread
  | reentrancy
  | conversion (e : ConversionError)
deriving DecidableEq, Repr

def ContractViolation.message : ContractViolation → String
  | .resumeDead => "cannot resume dead coroutine"
  | .resumeNotSuspended => "cannot resume non-suspended coroutine"
  | .forceSuspendedWithArgs => "cannot resume a force-suspended coroutine with arguments"
  | .yieldFromMain => "attempt to yield from the main coroutine"
  | .cannotYield => "attempt to yield across a native call boundary"
  | .crossThread => "processor entered from a thread other than the one it is bound to"
  | .reentrancy =>
    "runtime is already executing; call back into scripts through the execution context"
  | .conversion e => e.message

/-- An operand with which the machine's own arithmetic would leave its range. -/
inductive MachineFault where
  /-- The sum of two offsets is no 64-bit word. -/
  | offsetOverflow
  /-- An index into a table is no 64-bit integer. -/
  | indexOverflow
  /-- More locals than memory has addresses for. -/
  | tooManyLocals
deriving DecidableEq, Repr

def MachineFault.message : MachineFault → String
  | .offsetOverflow => "offset overflow"
  | .indexOverflow => "index overflow"
  | .tooManyLocals => "capacity overflow"

inductive RuntimeError where
  | script (e : ScriptError)
  | contract (v : ContractViolation)
  | internal (reason : String)
  | terminated
  | fault (f : MachineFault)
deriving DecidableEq

instance : Inhabited RuntimeError := ⟨.terminated⟩

namespace RuntimeError

def message : RuntimeError → String
  | .script e => e.decorated
  | .contract v => v.message
  | .internal reason => "internal error: " ++ reason
  | .terminated => "script execution terminated by host request"
  | .fault f => "machine fault: " ++ f.message

/-- Whether handlers of a script see the error. -/
def isCatchable : RuntimeError → Bool
  | .script _ => true
  | _ => false

def asScript? : RuntimeError → Option ScriptError
  | .script e => some e
  | _ => none

def asContract? : RuntimeError → Option ContractViolation
  | .contract v => some v
  | _ => none

/-- A chunk that is not sound. -/
def ofFaults (faults : List LocatedFault) : RuntimeError :=
  .internal ("invalid bytecode: " ++ "; ".intercalate (faults.map LocatedFault.message))

/-- A conversion the host asked for. -/
def ofConversion (e : ConversionError) : RuntimeError := .contract (.conversion e)

end RuntimeError

/-- A conversion inside a function that scripts call. -/
def ScriptError.ofConversion (e : ConversionError) : ScriptError :=
  { kind := .conversion, message := e.message }

end ScriptEngine
