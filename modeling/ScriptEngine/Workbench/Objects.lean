import ScriptEngine.Interchange.Conversion
import ScriptEngine.World.Metamethod

/-!
# Objects of the workbench

The workbench is a host that brings something along for every way in which a host and
scripts can meet.  Its objects are points, whose fields scripts read and write and whose
operators the host chooses, and opaque words, which scripts can only hand on.
-/

namespace ScriptEngine.Workbench

inductive Object where
  | point (x y : Float)
  | opaqueWord (n : Nat)

/-- What the workbench keeps: the definitions of operators on points, by field. -/
structure State where
  pointHooks : List (String × Value) := []
deriving Inhabited

namespace State

/-- Defines an operator on points. -/
def setPointHook (s : State) (field : String) (v : Value) : State :=
  { s with pointHooks := (field, v) :: s.pointHooks.filter fun (f, _) => f != field }

end State

namespace Object

def typeName : Object → String
  | .point _ _ => "Point"
  | .opaqueWord _ => "Opaque"

def sameKind (a b : Object) : Bool := a.typeName == b.typeName

/-- Reads a field of a point; several keys at once give their number. -/
def index (o : Object) (key : Value) : Except RuntimeError Value :=
  match o, key with
  | .point _ _, .tuple keys => .ok (.number (Float.ofNat keys.length))
  | .point x _, .string "x" => .ok (.number x)
  | .point _ y, .string "y" => .ok (.number y)
  | _, _ => .error (.script (.missingField o.typeName key))

/-- The number a script assigns to a field. -/
def assignedNumber (v : Value) : Except RuntimeError Float :=
  match v.toScalar with
  | .number n => .ok n
  | other => .error (.script (.ofConversion (.mismatch "number" other)))

/-- Writes a field of a point; several keys at once write their number plus the value to `x`. -/
def setIndex (o : Object) (key v : Value) : Except RuntimeError Object :=
  match o with
  | .opaqueWord _ => .error (.script (.missingField o.typeName key))
  | .point x y => do
    let n ← assignedNumber v
    match key with
    | .tuple keys => pure (.point (Float.ofNat keys.length + n) y)
    | .string "x" => pure (.point n y)
    | .string "y" => pure (.point x n)
    | _ => throw (.script (.missingField o.typeName key))

/-- Points define the operators that the host chose. -/
def metamethod (s : State) (o : Object) (op : Operator) : Option Value :=
  match o with
  | .point _ _ => s.pointHooks.lookup op.field
  | .opaqueWord _ => none

/-- Points are equal by their fields. -/
def equal : Object → Object → Bool
  | .point a b, .point c d => a == c && b == d
  | _, _ => false

end Object

end ScriptEngine.Workbench
