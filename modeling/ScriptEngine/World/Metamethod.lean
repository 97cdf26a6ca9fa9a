import ScriptEngine.World.Basic

/-!
# Metamethods

How a value's own definition of an operator is found: in its metatable, which is the
table's own or that of the value's type, and for user data then in the object.
-/

namespace ScriptEngine.World

variable {H : HostTypes} [HostObjects H]

/-- The metatable of a value. -/
def metatable? (w : World H) : Value → Option TableRef
  | .table r => (w.table r).metatable?
  | v => w.typeMetatable? v.dataType

/-- A value that is not nil. -/
def present? (v : Value) : Option Value := if v.isNil then none else some v

/-- The definition in the value's metatable. -/
def metatableHook? (w : World H) (v : Value) (op : Operator) : Option Value :=
  match w.metatable? v with
  | some t => present? ((w.table t).getName op.field)
  | none => none

/-- The definition of the object behind user data. -/
def objectHook? (w : World H) (v : Value) (op : Operator) : Option Value :=
  match v with
  | .userData u =>
    match w.userObject? u with
    | some o => (HostObjects.metamethod w.host o op).bind present?
    | none => none
  | _ => none

/-- The definition that counts for one operand. -/
def hook? (w : World H) (v : Value) (op : Operator) : Option Value :=
  (w.metatableHook? v op).or (w.objectHook? v op)

/-- The definition that counts for two operands: metatables before objects, the left operand before
the right one. -/
def binaryHook? (w : World H) (left right : Value) (op : Operator) : Option Value :=
  (((w.metatableHook? left op).or (w.metatableHook? right op)).or
    (w.objectHook? left op)).or (w.objectHook? right op)

/-! ## User data -/

def userTypeName (w : World H) (u : UserDataRef) : String :=
  match w.userObject? u with
  | some o => HostObjects.typeName o
  | none => "?"

def sameUserKind (w : World H) (a b : UserDataRef) : Bool :=
  match w.userObject? a, w.userObject? b with
  | some x, some y => HostObjects.sameKind x y
  | _, _ => false

/-- Equality of user data: the same, or equal objects of one kind. -/
def userEquals (w : World H) (a b : UserDataRef) : Bool :=
  decide (a = b) ||
    match w.userObject? a, w.userObject? b with
    | some x, some y => HostObjects.sameKind x y && HostObjects.equal x y
    | _, _ => false

/-- Equality without metamethods that compares the objects behind user data. -/
def valuesEqual (w : World H) (a b : Value) : Bool :=
  match a, b with
  | .userData x, .userData y => w.userEquals x y
  | _, _ => a.rawEquals b

/-- The value as a term, for debugging. -/
def inspect (w : World H) (v : Value) : String :=
  v.inspect w.nativeName w.userTypeName

def userIndex (w : World H) (u : UserDataRef) (key : Value) : Except RuntimeError Value :=
  match w.userObject? u with
  | some o => HostObjects.index w.host o key
  | none => .error (.internal "no such user data")

/-- The object behind user data after `object[key] = value`. -/
def userAssign (w : World H) (u : UserDataRef) (key value : Value) :
    Except RuntimeError H.Object :=
  match w.userObject? u with
  | some o => HostObjects.setIndex w.host o key value
  | none => .error (.internal "no such user data")

end ScriptEngine.World
