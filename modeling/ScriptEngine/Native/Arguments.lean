import ScriptEngine.Error.Runtime

/-!
# Arguments of host functions

Arguments are in one row, without tuples at the top but for those a tuple held; a
missing one reads as Void.  Positions count from zero here and from one in messages.
-/

namespace ScriptEngine

/-- The values at a call in one row: a tuple at the end contributes all its items, one before it
only its first. -/
def flattenArgs (values : List Value) : List Value := Value.spliceLast values

/-- How a value is checked against a type. -/
structure TypeCheck where
  /-- Nil and Void pass as nil. -/
  allowNil : Bool := false
  /-- Truth values, numbers and texts are taken from whatever counts as one. -/
  convert : Bool := true

/-- The value as one of the expected type. -/
def Value.check (v : Value) (function : String) (expected : DataType) (position : Nat)
    (how : TypeCheck) : Except ScriptError Value :=
  let v := v.toScalar
  let converted? : Option Value :=
    if how.convert then
      match expected with
      | .boolean => some (.boolean v.toBool)
      | .number => v.toNumber?.map .number
      | .string => v.toText?.map .string
      | _ => none
    else none
  if v.dataType = expected || (expected = .function && v.dataType = .native) then .ok v
  else if how.allowNil && v.isNil then .ok .nil
  else
    match converted? with
    | some w => .ok w
    | none =>
      let wanted := if how.allowNil then expected.name ++ " or nil" else expected.name
      .error (.badArgument (position + 1) function (wanted ++ " expected, got " ++ v.typeName))

structure Arguments where
  values : List Value
  /-- The first value is the receiver of a method call. -/
  methodCall : Bool := false
deriving Inhabited

namespace Arguments

/-- The arguments of a call with the given values. -/
def ofValues (values : List Value) (methodCall : Bool) : Arguments :=
  ⟨flattenArgs values, methodCall⟩

def count (a : Arguments) : Nat := a.values.length

def isEmpty (a : Arguments) : Bool := a.count = 0

def get (a : Arguments) (i : Nat) : Value := a.values[i]?.getD .void

/-- The arguments from a position on. -/
def rest (a : Arguments) (i : Nat) : List Value := a.values.drop i

/-- The arguments without the receiver of a method call. -/
def skipSelf (a : Arguments) : Arguments :=
  ⟨if a.methodCall then a.values.drop 1 else a.values, false⟩

def asType (a : Arguments) (i : Nat) (function : String) (expected : DataType)
    (allowNil : Bool) : Except ScriptError Value :=
  (a.get i).check function expected i { allowNil }

/-- The error for an argument that is of another type. -/
def badType (i : Nat) (function expected : String) (got : Value) : ScriptError :=
  .badArgument (i + 1) function (expected ++ " expected, got " ++ got.typeName)

def asString (a : Arguments) (i : Nat) (function : String) : Except ScriptError String :=
  match a.asType i function .string false with
  | .ok (.string s) => .ok s
  | .ok v => .error (badType i function "string" v)
  | .error e => .error e

def asNumber (a : Arguments) (i : Nat) (function : String) : Except ScriptError Float :=
  match a.asType i function .number false with
  | .ok (.number n) => .ok n
  | .ok v => .error (badType i function "number" v)
  | .error e => .error e

/-- The floor of a number as an integer of 64 bits, the nearest one for what is out of range. -/
def floorInt64 (n : Float) : Int :=
  Double.clampToInt (-Int.pow 2 63) (Int.pow 2 63 - 1) (Double.floor n)

def asInteger (a : Arguments) (i : Nat) (function : String) : Except ScriptError Int :=
  (a.asNumber i function).map floorInt64

def asOptionalInteger (a : Arguments) (i : Nat) (function : String) (missing : Int) :
    Except ScriptError Int :=
  if (a.get i).isNil then .ok missing else a.asInteger i function

def asTable (a : Arguments) (i : Nat) (function : String) : Except ScriptError TableRef :=
  match a.asType i function .table false with
  | .ok (.table t) => .ok t
  | .ok v => .error (badType i function "table" v)
  | .error e => .error e

def asUserData (a : Arguments) (i : Nat) (function : String) : Except ScriptError UserDataRef :=
  match a.asType i function .userData false with
  | .ok (.userData u) => .ok u
  | .ok v => .error (badType i function "userdata" v)
  | .error e => .error e

end Arguments

end ScriptEngine
