import ScriptEngine.Number.Numeral
import ScriptEngine.Text.Quoted

/-!
# Values of a script

Nil, Void, booleans, numbers and strings are immediate.  Tables, functions,
coroutines and user data are references: a value names the object, and two of them
are the same when they name the same object.  A tuple is several values in flight,
as a call returns them or passes them on; `toStorable` is what remains of a value
once it has to fit into one variable.
-/

namespace ScriptEngine

/-! ## References

An object is named by the number it was given when it was made; one sequence of
numbers serves all kinds of objects. -/

@[ext] structure TableRef where
  id : Nat
deriving DecidableEq, Inhabited, Repr

@[ext] structure FunctionRef where
  id : Nat
deriving DecidableEq, Inhabited, Repr

@[ext] structure NativeRef where
  id : Nat
deriving DecidableEq, Inhabited, Repr

@[ext] structure CoroutineRef where
  id : Nat
deriving DecidableEq, Inhabited, Repr

@[ext] structure UserDataRef where
  id : Nat
deriving DecidableEq, Inhabited, Repr

/-! ## Types of values -/

inductive DataType where
  | nil
  | void
  | boolean
  | number
  | string
  | table
  | function
  | native
  | tuple
  | thread
  | userData
deriving DecidableEq, Inhabited, Repr

/-- The name that scripts and messages use; both sorts of functions share one. -/
def DataType.name : DataType → String
  | .nil => "nil"
  | .void => "no value"
  | .boolean => "boolean"
  | .number => "number"
  | .string => "string"
  | .table => "table"
  | .function => "function"
  | .native => "function"
  | .tuple => "tuple"
  | .thread => "thread"
  | .userData => "userdata"

/-- Nil is an explicit absence, Void no value at all. -/
inductive Value where
  | nil
  | void
  | boolean (b : Bool)
  | number (n : Float)
  | string (s : String)
  | table (t : TableRef)
  | function (f : FunctionRef)
  | native (f : NativeRef)
  | tuple (items : List Value)
  | thread (c : CoroutineRef)
  | userData (u : UserDataRef)
deriving Inhabited, Repr

namespace Value

mutual

/-- Sameness of values as terms: numbers by their bits, references by name. -/
def same : Value → Value → Bool
  | .nil, .nil => true
  | .void, .void => true
  | .boolean a, .boolean b => a = b
  | .number a, .number b => decide (a = b)
  | .string a, .string b => a = b
  | .table a, .table b => a = b
  | .function a, .function b => a = b
  | .native a, .native b => a = b
  | .tuple a, .tuple b => sameList a b
  | .thread a, .thread b => a = b
  | .userData a, .userData b => a = b
  | _, _ => false

/-- Sameness of lists of values as terms. -/
def sameList : List Value → List Value → Bool
  | [], [] => true
  | a :: as, b :: bs => same a b && sameList as bs
  | _, _ => false

end

mutual

theorem eq_of_same : (a b : Value) → same a b = true → a = b
  | .nil, b, h => by cases b <;> simp_all [same]
  | .void, b, h => by cases b <;> simp_all [same]
  | .boolean _, b, h => by cases b <;> simp_all [same]
  | .number _, b, h => by cases b <;> simp_all [same]
  | .string _, b, h => by cases b <;> simp_all [same]
  | .table _, b, h => by cases b <;> simp_all [same]
  | .function _, b, h => by cases b <;> simp_all [same]
  | .native _, b, h => by cases b <;> simp_all [same]
  | .tuple as, b, h => by
    cases b with
    | tuple bs =>
      rw [same] at h
      rw [eq_of_sameList as bs h]
    | _ => simp_all [same]
  | .thread _, b, h => by cases b <;> simp_all [same]
  | .userData _, b, h => by cases b <;> simp_all [same]

theorem eq_of_sameList : (as bs : List Value) → sameList as bs = true → as = bs
  | [], bs, h => by cases bs <;> simp_all [sameList]
  | a :: as, bs, h => by
    cases bs with
    | nil => simp [sameList] at h
    | cons b bs =>
      simp only [sameList, Bool.and_eq_true] at h
      rw [eq_of_same a b h.1, eq_of_sameList as bs h.2]

end

mutual

theorem same_self : (a : Value) → same a a = true
  | .nil => by simp [same]
  | .void => by simp [same]
  | .boolean _ => by simp [same]
  | .number _ => by simp [same]
  | .string _ => by simp [same]
  | .table _ => by simp [same]
  | .function _ => by simp [same]
  | .native _ => by simp [same]
  | .tuple as => by rw [same]; exact sameList_self as
  | .thread _ => by simp [same]
  | .userData _ => by simp [same]

theorem sameList_self : (as : List Value) → sameList as as = true
  | [] => by simp [sameList]
  | a :: as => by simp [sameList, same_self a, sameList_self as]

end

theorem same_eq_true_iff {a b : Value} : same a b = true ↔ a = b := by
  refine ⟨eq_of_same a b, fun h => ?_⟩
  exact h ▸ same_self a

instance : DecidableEq Value := fun _ _ =>
  decidable_of_iff _ same_eq_true_iff

def dataType : Value → DataType
  | .nil => .nil
  | .void => .void
  | .boolean _ => .boolean
  | .number _ => .number
  | .string _ => .string
  | .table _ => .table
  | .function _ => .function
  | .native _ => .native
  | .tuple _ => .tuple
  | .thread _ => .thread
  | .userData _ => .userData

def typeName (v : Value) : String := v.dataType.name

/-- Nil or Void. -/
def isNil : Value → Bool
  | .nil => true
  | .void => true
  | _ => false

def isVoid : Value → Bool
  | .void => true
  | _ => false

/-- A function of either sort; other values may be called through a metamethod. -/
def isCallable : Value → Bool
  | .function _ => true
  | .native _ => true
  | _ => false

/-! ## Tuples -/

/-- The first value of a tuple, at any depth; Void for an empty one. -/
def toScalar : Value → Value
  | .tuple [] => .void
  | .tuple (v :: _) => toScalar v
  | v => v

/-- What a variable or a table keeps of the value. -/
def toStorable (v : Value) : Value :=
  match v.toScalar with
  | .void => .nil
  | w => w

/-- The values of a list in one row: a tuple at the end contributes all its items, one before it
only its first. -/
def spliceLast : List Value → List Value
  | [] => []
  | [.tuple items] => items
  | [v] => [v]
  | v :: w :: rest => v.toScalar :: spliceLast (w :: rest)

/-- The tuple of the values in one row. -/
def tupled (values : List Value) : Value :=
  .tuple (spliceLast values)

/-- The tuple of the values, or the value itself when there is only one. -/
def ofMany (values : List Value) : Value :=
  match spliceLast values with
  | [v] => v
  | items => .tuple items

/-- Item `index`, storable; a value that is no tuple counts as its own only item. -/
def tupleItem (v : Value) (index : Nat) : Value :=
  match v with
  | .tuple items => (items[index]?.map toStorable).getD .nil
  | w => if index = 0 then w.toStorable else .nil

/-- The single values: a tuple's items, nothing for Void. -/
def toValues : Value → List Value
  | .tuple items => items
  | .void => []
  | v => [v]

/-- A scalar is no tuple. -/
theorem toScalar_ne_tuple : (v : Value) → (items : List Value) → v.toScalar ≠ .tuple items
  | .tuple [], _ => by simp [toScalar]
  | .tuple (v :: _), items => by rw [toScalar]; exact toScalar_ne_tuple v items
  | .nil, _ | .void, _ | .boolean _, _ | .number _, _ | .string _, _ | .table _, _
  | .function _, _ | .native _, _ | .thread _, _ | .userData _, _ => by simp [toScalar]

theorem toScalar_eq_self {v : Value} (h : ∀ items, v ≠ .tuple items) : v.toScalar = v := by
  cases v with
  | tuple items => exact absurd rfl (h items)
  | _ => simp [toScalar]

@[simp] theorem toScalar_toScalar (v : Value) : v.toScalar.toScalar = v.toScalar :=
  toScalar_eq_self (toScalar_ne_tuple v)

theorem toStorable_ne_void (v : Value) : v.toStorable ≠ .void := by
  unfold toStorable
  split
  · simp
  · assumption

theorem toStorable_ne_tuple (v : Value) (items : List Value) : v.toStorable ≠ .tuple items := by
  unfold toStorable
  split
  · simp
  · exact toScalar_ne_tuple v items

/-- What a variable keeps of a value it keeps again. -/
@[simp] theorem toStorable_toStorable (v : Value) : v.toStorable.toStorable = v.toStorable := by
  have h := toScalar_eq_self (toStorable_ne_tuple v)
  have hv := toStorable_ne_void v
  rw [toStorable.eq_def v.toStorable, h]
  split
  · contradiction
  · rfl

/-- All values but the last one of a row are reduced to scalars. -/
theorem spliceLast_concat (values : List Value) (v : Value) :
    spliceLast (values ++ [v]) = values.map toScalar ++ spliceLast [v] := by
  induction values with
  | nil => rfl
  | cons w rest ih =>
    cases rest with
    | nil => simp [spliceLast]
    | cons u rest => simpa [spliceLast] using ih

/-! ## Casts -/

/-- Truth: `false`, Nil and Void are false and all else is true. -/
def toBool (v : Value) : Bool :=
  match v.toScalar with
  | .boolean b => b
  | .nil => false
  | .void => false
  | _ => true

/-- The number a value counts as: itself, or the one a numeric string denotes. -/
def toNumber? (v : Value) : Option Float :=
  match v.toScalar with
  | .number n => some n
  | .string s => Numeral.read? s
  | _ => none

/-- The text a value counts as: itself, or that of a number. -/
def toText? (v : Value) : Option String :=
  match v.toScalar with
  | .string s => some s
  | .number n => some (Numeral.render n)
  | _ => none

def asString? : Value → Option String
  | .string s => some s
  | _ => none

def asNumber? : Value → Option Float
  | .number n => some n
  | _ => none

def asTable? : Value → Option TableRef
  | .table t => some t
  | _ => none

def asThread? : Value → Option CoroutineRef
  | .thread c => some c
  | _ => none

def asUserData? : Value → Option UserDataRef
  | .userData u => some u
  | _ => none

/-- The number of the object that the value names. -/
def refId? : Value → Option Nat
  | .table t => some t.id
  | .function f => some f.id
  | .native f => some f.id
  | .thread c => some c.id
  | .userData u => some u.id
  | _ => none

/-! ## Equality -/

mutual

/-- Equality without metamethods: numbers as numbers, so NaN differs from itself; objects by
identity; Nil and Void alike. -/
def rawEquals : Value → Value → Bool
  | .nil, .nil => true
  | .nil, .void => true
  | .void, .nil => true
  | .void, .void => true
  | .boolean a, .boolean b => a = b
  | .number a, .number b => a == b
  | .string a, .string b => a = b
  | .table a, .table b => a = b
  | .function a, .function b => a = b
  | .native a, .native b => a = b
  | .tuple a, .tuple b => rawEqualsList a b
  | .thread a, .thread b => a = b
  | .userData a, .userData b => a = b
  | _, _ => false

/-- Tuples are equal item by item. -/
def rawEqualsList : List Value → List Value → Bool
  | [], [] => true
  | a :: as, b :: bs => rawEquals a b && rawEqualsList as bs
  | _, _ => false

end

/-! ## Display -/

/-- A number of an object in messages: eight hexadecimal digits or more. -/
def address (id : Nat) : String :=
  "0x" ++ String.ofList (Quoted.hexPadded 8 id)

mutual

/-- The text of a value without metamethods. -/
def display : Value → String
  | .nil => "nil"
  | .void => ""
  | .boolean b => if b then "true" else "false"
  | .number n => Numeral.render n
  | .string s => s
  | .table t => "table: " ++ address t.id
  | .function f => "function: " ++ address f.id
  | .native f => "function: builtin: " ++ address f.id
  | .tuple items => "\t".intercalate (displayAll items)
  | .thread c => "thread: " ++ address c.id
  | .userData u => "userdata: " ++ address u.id

/-- The texts of several values. -/
def displayAll : List Value → List String
  | [] => []
  | v :: rest => display v :: displayAll rest

end

mutual

/-- The value as a term, for debugging; `nativeName` and `typeName` name functions of the host
and kinds of user data. -/
def inspect (nativeName : NativeRef → String) (typeName : UserDataRef → String) : Value → String
  | .nil => "Nil"
  | .void => "Void"
  | .boolean b => "Boolean(" ++ (if b then "true" else "false") ++ ")"
  | .number n => "Number(" ++ Numeral.renderPositional n ++ ")"
  | .string s => "String(" ++ Quoted.quote s ++ ")"
  | .table t => "Table(#" ++ toString t.id ++ ")"
  | .function f => "Function(#" ++ toString f.id ++ ")"
  | .native f => "NativeFunction(" ++ nativeName f ++ ")"
  | .tuple items =>
    "Tuple([" ++ ", ".intercalate (inspectAll nativeName typeName items) ++ "])"
  | .thread c => "Coroutine(#" ++ toString c.id ++ ")"
  | .userData u => "UserData(" ++ typeName u ++ ")"

/-- Several values as terms. -/
def inspectAll (nativeName : NativeRef → String) (typeName : UserDataRef → String) :
    List Value → List String
  | [] => []
  | v :: rest =>
    inspect nativeName typeName v :: inspectAll nativeName typeName rest

end

end Value

end ScriptEngine
