import ScriptEngine.Value.Basic

/-!
# Operators that values can define for themselves

A closed set of hooks, each a named field of a metatable.  The arithmetic ones also
have a meaning on numbers.
-/

namespace ScriptEngine

inductive Operator where
  | add
  | sub
  | mul
  | div
  | mod
  | pow
  | neg
  | concat
  | length
  | equal
  | less
  | lessEqual
  | index
  | newIndex
  | call
  | toString
  | metatable
  | pairs
deriving DecidableEq, Inhabited, Repr

namespace Operator

/-- Every operator. -/
def all : List Operator :=
  [.add, .sub, .mul, .div, .mod, .pow, .neg, .concat, .length, .equal, .less, .lessEqual, .index,
    .newIndex, .call, .toString, .metatable, .pairs]

/-- The field of a metatable that defines the operator. -/
def field : Operator → String
  | .add => "__add"
  | .sub => "__sub"
  | .mul => "__mul"
  | .div => "__div"
  | .mod => "__mod"
  | .pow => "__pow"
  | .neg => "__unm"
  | .concat => "__concat"
  | .length => "__len"
  | .equal => "__eq"
  | .less => "__lt"
  | .lessEqual => "__le"
  | .index => "__index"
  | .newIndex => "__newindex"
  | .call => "__call"
  | .toString => "__tostring"
  | .metatable => "__metatable"
  | .pairs => "__pairs"

/-- The operator that a field defines. -/
def ofField? (name : String) : Option Operator :=
  all.find? (·.field = name)

/-- The sign that messages show. -/
def sign : Operator → String
  | .add => "+"
  | .sub => "-"
  | .mul => "*"
  | .div => "/"
  | .mod => "%"
  | .pow => "^"
  | .neg => "-"
  | .concat => ".."
  | .length => "#"
  | .equal => "=="
  | .less => "<"
  | .lessEqual => "<="
  | _ => "?"

/-- The value of an arithmetic operator on two numbers; the negative ignores the second.  The
remainder has the sign of the divisor. -/
def onNumbers? (op : Operator) (a b : Float) : Option Float :=
  match op with
  | .add => some (a + b)
  | .sub => some (a - b)
  | .mul => some (a * b)
  | .div => some (a / b)
  | .mod => some (a - Double.floor (a / b) * b)
  | .pow => some (a ^ b)
  | .neg => some (-a)
  | _ => none

end Operator

end ScriptEngine
