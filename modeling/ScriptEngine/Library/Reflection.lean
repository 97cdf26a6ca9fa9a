import ScriptEngine.Library.Protection

/-!
# Types, metatables and access without metamethods
-/

namespace ScriptEngine.Library

variable {H : HostTypes} [HostObjects H]

/-- The field that hides a metatable from scripts and keeps it from being changed. -/
def guardOf (w : World H) (m : TableRef) : Value :=
  (w.table m).getName Operator.metatable.field

def getMetatable (a : Arguments) : Action H NativeOutcome := do
  match ← .ask fun w => w.metatable? (a.get 0) with
  | none => one .nil
  | some m =>
    let guard ← .ask fun w => guardOf w m
    one (if guard.isNil then .table m else guard)

def setMetatable (a : Arguments) : Action H NativeOutcome := do
  let t ← .ofScript (a.asTable 0 "setmetatable")
  let m? ←
    match (a.get 1).toScalar with
    | .table m => pure (some m)
    | .nil => pure none
    | _ => .raise (.badArgument 2 "setmetatable" "nil or table expected")
  let isGuarded ← .ask fun w =>
    match (w.table t).metatable? with
    | some m => !(guardOf w m).isNil
    | none => false
  if isGuarded then .raise (.userText "cannot change a protected metatable")
  else
    .change fun w => w.modifyTable t fun t => { t with metatable? := m? }
    one (.table t)

omit [HostObjects H] in
/-- The name of the value's type. -/
def typeOf (a : Arguments) : Action H NativeOutcome :=
  let v := (a.get 0).toScalar
  if v.isVoid then .raise (.badArgument 1 "type" "value expected") else one (.string v.typeName)

def rawEqual (a : Arguments) : Action H NativeOutcome :=
  one (.boolean ((a.get 0).rawEquals (a.get 1)))

def rawGet (a : Arguments) : Action H NativeOutcome := do
  let t ← .ofScript (a.asTable 0 "rawget")
  one (← .ask fun w => (w.table t).get (a.get 1).toStorable)

def rawSet (a : Arguments) : Action H NativeOutcome := do
  let t ← .ofScript (a.asTable 0 "rawset")
  let key := (a.get 1).toStorable
  match Key.ofValue? key with
  | none => .raise (.badKey key)
  | some k =>
    .change fun w => w.modifyTable t fun t => t.setKey k key (a.get 2).toStorable
    one (.table t)

/-- The length of a table, or the number of bytes of a text. -/
def rawLength (a : Arguments) : Action H NativeOutcome := do
  match (a.get 0).toScalar with
  | .table t => one (.number (Float.ofNat (← .tableLength t)))
  | .string s => one (.number (Float.ofNat s.utf8ByteSize))
  | _ => .raise (.badArgument 1 "rawlen" "table or string expected")

end ScriptEngine.Library
