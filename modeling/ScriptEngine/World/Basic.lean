import ScriptEngine.Config.Settings
import ScriptEngine.Machine.Processor
import ScriptEngine.Table.Sequence
import ScriptEngine.World.Host

/-!
# The world of an engine

All objects of an engine and what its coroutines share.  An object's number is its
place among the objects, so numbers are given out in the order of creation and never
again.  Looking up a number with no such object gives an empty one.
-/

namespace ScriptEngine

/-- A function of a script with the variables it captured. -/
structure Closure where
  chunk : Chunk
  /-- Where in the chunk the function begins. -/
  entry : Nat
  upvalues : Array CellRef := #[]
  upvalueNames : List String := []
  name? : Option String := none
deriving Inhabited

/-- The name in tracebacks. -/
def Closure.displayName (c : Closure) : String := c.name?.getD "?"

/-- The functions of the core library, with the functions or coroutines some of them hand out. -/
inductive LibraryFunction where
  | assert
  | error
  | getMetatable
  | next
  | print
  | rawEqual
  | rawGet
  | rawLen
  | rawSet
  | select
  | setMetatable
  | toNumber
  | toString
  | typeOf
  | unpack
  | pairs (next : NativeRef)
  | ipairsStep
  | ipairs (step : NativeRef)
  | protectedOk
  | protectedFailed
  | pcall (ok failed : NativeRef)
  | xpcall (ok failed : NativeRef)
  | tableConcat
  | tableInsert
  | tablePack
  | tableRemove
  | coroutineCreate
  | coroutineIsYieldable
  | coroutineResume
  | coroutineRunning
  | coroutineStatus
  | coroutineWrap
  | wrapped (c : CoroutineRef)
  | coroutineYield
deriving DecidableEq, Inhabited, Repr

/-- The body of a function that is not written in instructions. -/
inductive NativeBody (H : HostTypes) where
  | library (f : LibraryFunction)
  | host (f : H.Function)

structure Native (H : HostTypes) where
  name : String
  body : NativeBody H
  description? : Option String := none
  /-- Declared number of arguments, for information only. -/
  arity? : Option Nat := none

inductive CoroutineState where
  /-- The coroutine of the engine itself, which never suspends. -/
  | main
  | notStarted
  /-- Suspended by a yield. -/
  | suspended
  /-- Suspended because its budget was used up. -/
  | forceSuspended
  | running
  | dead
deriving DecidableEq, Inhabited, Repr

/-- Whether a resume may go ahead. -/
def CoroutineState.isSuspended : CoroutineState → Bool
  | .notStarted | .suspended | .forceSuspended => true
  | _ => false

inductive CoroutineKind where
  /-- Runs a function of a script. -/
  | script
  /-- Runs a host function to its end on the first resume. -/
  | native
deriving DecidableEq, Inhabited, Repr

structure Coroutine where
  state : CoroutineState
  kind : CoroutineKind
  /-- What the coroutine runs. -/
  entry : Value
  /-- Absent while the processor is at work. -/
  processor? : Option Processor
deriving Inhabited

inductive Object (H : HostTypes) where
  | table (t : Table)
  | closure (c : Closure)
  | native (f : Native H)
  | coroutine (c : Coroutine)
  | userData (o : H.Object)

structure World (H : HostTypes) where
  objects : Array (Object H)
  /-- The values of the variables. -/
  cells : Array Value := #[]
  globals : TableRef
  main : CoroutineRef
  settings : Settings
  /-- Metatables for all values of a type. -/
  typeMetatables : List (DataType × TableRef) := []
  /-- The coroutines being resumed, the innermost first. -/
  inFlight : List CoroutineRef := []
  /-- The host asked for the end of all execution. -/
  cancelled : Bool := false
  /-- Lines printed, the last one first. -/
  printed : List String := []
  host : H.State

namespace World

variable {H : HostTypes}

/-! ## Objects -/

/-- The number the next object gets; numbers begin at 1. -/
def nextId (w : World H) : Nat := w.objects.size + 1

def add (w : World H) (o : Object H) : World H :=
  { w with objects := w.objects.push o }

/-- The object with a number. -/
def object? (w : World H) : Nat → Option (Object H)
  | 0 => none
  | n + 1 => w.objects[n]?

/-- Changes the object with a number. -/
def modifyObject (w : World H) (id : Nat) (f : Object H → Object H) : World H :=
  match id with
  | 0 => w
  | n + 1 => { w with objects := w.objects.modify n f }

@[simp] theorem nextId_add (w : World H) (o : Object H) : (w.add o).nextId = w.nextId + 1 := by
  simp [nextId, add]

/-- A new object has the number that was next. -/
@[simp] theorem object?_add_nextId (w : World H) (o : Object H) :
    (w.add o).object? w.nextId = some o := by
  simp [nextId, object?, add]

/-- The other objects stay what they were. -/
theorem object?_add_of_ne (w : World H) (o : Object H) {id : Nat} (h : id ≠ w.nextId) :
    (w.add o).object? id = w.object? id := by
  cases id with
  | zero => rfl
  | succ n =>
    have hn : n ≠ w.objects.size := fun hn => h (congrArg (· + 1) hn)
    simp [object?, add, Array.getElem?_push, hn]

theorem object?_modifyObject (w : World H) (id other : Nat) (f : Object H → Object H) :
    (w.modifyObject id f).object? other =
      if id = other then (w.object? other).map f else w.object? other := by
  cases id with
  | zero => cases other <;> simp [modifyObject, object?]
  | succ n => cases other <;> simp [modifyObject, object?, Array.getElem?_modify]

/-! ## Tables -/

def table (w : World H) (r : TableRef) : Table :=
  match w.object? r.id with
  | some (.table t) => t
  | _ => {}

def modifyTable (w : World H) (r : TableRef) (f : Table → Table) : World H :=
  w.modifyObject r.id fun
    | .table t => .table (f t)
    | o => o

theorem table_modifyTable_self {w : World H} {r : TableRef} {t : Table} (f : Table → Table)
    (h : w.object? r.id = some (.table t)) : (w.modifyTable r f).table r = f t := by
  simp [table, modifyTable, object?_modifyObject, h]

theorem table_modifyTable_of_ne (w : World H) {r s : TableRef} (f : Table → Table) (h : r ≠ s) :
    (w.modifyTable r f).table s = w.table s := by
  have hid : r.id ≠ s.id := fun hid => h (TableRef.ext hid)
  simp [table, modifyTable, object?_modifyObject, hid]

def addTable (w : World H) (t : Table) : TableRef × World H :=
  (⟨w.nextId⟩, w.add (.table t))

@[simp] theorem table_addTable (w : World H) (t : Table) :
    (w.addTable t).2.table (w.addTable t).1 = t := by
  simp [addTable, table]

def newTable (w : World H) : TableRef × World H := w.addTable {}

/-- Lets a table remember its length; other values have none to remember. -/
def noteLength (w : World H) (v : Value) : World H :=
  match v.toScalar with
  | .table r => w.modifyTable r Table.noteLength
  | _ => w

/-- The length of a table, remembered from now on. -/
def tableLength (w : World H) (r : TableRef) : Nat × World H :=
  let w := w.noteLength (.table r)
  ((w.table r).length, w)

/-- Writes an entry without metamethods. -/
def setEntry (w : World H) (r : TableRef) (key value : Value) : Except ScriptError (World H) :=
  match Key.ofValue? key with
  | none => .error (.badKey key)
  | some k => .ok (w.modifyTable r fun t => t.setKey k key.toScalar value.toStorable)

/-- Writes a named entry without metamethods. -/
def setNamed (w : World H) (r : TableRef) (name : String) (value : Value) : World H :=
  w.modifyTable r fun t => t.setName name value

/-! ## Functions -/

def closure (w : World H) (r : FunctionRef) : Closure :=
  match w.object? r.id with
  | some (.closure c) => c
  | _ => default

def addClosure (w : World H) (c : Closure) : FunctionRef × World H :=
  (⟨w.nextId⟩, w.add (.closure c))

def native? (w : World H) (r : NativeRef) : Option (Native H) :=
  match w.object? r.id with
  | some (.native f) => some f
  | _ => none

def nativeName (w : World H) (r : NativeRef) : String :=
  ((w.native? r).map (·.name)).getD "?"

def addNative (w : World H) (f : Native H) : NativeRef × World H :=
  (⟨w.nextId⟩, w.add (.native f))

/-! ## Variables -/

def cell (w : World H) (c : CellRef) : Value := (w.cells[c.index]?).getD .nil

def setCell (w : World H) (c : CellRef) (v : Value) : World H :=
  { w with cells := w.cells.setIfInBounds c.index v }

/-- A new variable. -/
def newCell (w : World H) (v : Value) : CellRef × World H :=
  (⟨w.cells.size⟩, { w with cells := w.cells.push v })

/-- Adds `n` new variables that hold nil. -/
def pushCells : Nat → Array Value → Array Value
  | 0, cells => cells
  | n + 1, cells => pushCells n (cells.push .nil)

/-- `n` new variables that hold nil. -/
def newCells (w : World H) (n : Nat) : Array CellRef × World H :=
  let first := w.cells.size
  ((Array.range n).map fun i => ⟨first + i⟩, { w with cells := pushCells n w.cells })

/-! ## Coroutines -/

def coroutine (w : World H) (r : CoroutineRef) : Coroutine :=
  match w.object? r.id with
  | some (.coroutine c) => c
  | _ => ⟨.dead, .script, .nil, none⟩

def modifyCoroutine (w : World H) (r : CoroutineRef) (f : Coroutine → Coroutine) : World H :=
  w.modifyObject r.id fun
    | .coroutine c => .coroutine (f c)
    | o => o

/-- A coroutine that has not run, over a function or another callable value. -/
def addCoroutine (w : World H) (kind : CoroutineKind) (entry : Value) : CoroutineRef × World H :=
  let processor : Processor := { canYield := true, autoYield? := w.settings.autoYield? }
  (⟨w.nextId⟩, w.add (.coroutine ⟨.notStarted, kind, entry, some processor⟩))

/-- The coroutine that runs now. -/
def current? (w : World H) : Option CoroutineRef := w.inFlight.head?

/-! ## User data -/

def userObject? (w : World H) (r : UserDataRef) : Option H.Object :=
  match w.object? r.id with
  | some (.userData o) => some o
  | _ => none

def setUserObject (w : World H) (r : UserDataRef) (o : H.Object) : World H :=
  w.modifyObject r.id fun
    | .userData _ => .userData o
    | other => other

def addUserData (w : World H) (o : H.Object) : UserDataRef × World H :=
  (⟨w.nextId⟩, w.add (.userData o))

/-! ## Shared state -/

/-- The metatable of all values of a type; tables have only their own. -/
def typeMetatable? (w : World H) (type : DataType) : Option TableRef :=
  if type = .table then none else w.typeMetatables.lookup type

def setTypeMetatable (w : World H) (type : DataType) (meta? : Option TableRef) : World H :=
  let others := w.typeMetatables.filter fun (t, _) => t != type
  { w with
    typeMetatables :=
      match meta? with
      | some m => (type, m) :: others
      | none => others }

def print (w : World H) (line : String) : World H :=
  { w with printed := line :: w.printed }

end World

end ScriptEngine
