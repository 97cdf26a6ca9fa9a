import ScriptEngine.Library.Catalog
import ScriptEngine.Workbench.Objects

/-!
# Functions of the workbench

There is a function for every operation a host function can use, and for every way in
which one can end.
-/

namespace ScriptEngine.Workbench

inductive Function where
  /-- All arguments. -/
  | echo
  | first
  | count
  | void
  | none
  | const (v : Value)
  | raise (kind : ScriptErrorKind) (message : String)
  | call
  /-- Calls and reports success or the error's message. -/
  | attempt
  | yield
  | fail
  | failValue
  | internal
  | terminate
  | violate
  | cancel
  | hostNumber
  | scriptNumber
  | index
  | setIndex
  | length
  | equals
  | lessThan
  | display
  | metamethod
  | metatable
  | newTable
  | current
  | yieldable
  | getGlobal
  | location
  | createCoroutine
  | resumeCoroutine
  | selfInfo
  | asString
  | asNumber
  | asInteger
  | asTable
  | asUserData
  | asOptionalInteger
  | asWord (allowNil : Bool)
  | pointSum
  | log
  /-- Asks for the call of its first argument in its own place.  With `decorated` the second
  argument sees errors. -/
  | tail (continuation? errorHandler? : Option NativeRef) (decorated : Bool)
  | reenter
  /-- A name and all arguments. -/
  | tagged (name : String)
  /-- Fails again with what it is given. -/
  | failAgain
deriving DecidableEq, Inhabited

abbrev types : HostTypes := ⟨Function, Object, State⟩

instance : HostObjects types where
  typeName o := Object.typeName o
  sameKind a b := Object.sameKind a b
  index _ o key := Object.index o key
  setIndex _ o key v := Object.setIndex o key v
  metamethod s o op := Object.metamethod s o op
  equal a b := Object.equal a b

namespace Function

/-- The functions that need nothing but their name. -/
def named : List (String × Function) :=
  [("echo", .echo), ("first", .first), ("count", .count), ("void", .void), ("none", .none),
   ("call", .call), ("try", .attempt), ("yield", .yield), ("fail", .fail),
   ("fail_value", .failValue), ("internal", .internal), ("terminate", .terminate),
   ("violate", .violate), ("cancel", .cancel), ("host_number", .hostNumber),
   ("script_number", .scriptNumber), ("index", .index), ("set_index", .setIndex),
   ("len", .length), ("equals", .equals), ("less_than", .lessThan), ("display", .display),
   ("metamethod", .metamethod), ("metatable", .metatable), ("new_table", .newTable),
   ("current", .current), ("yieldable", .yieldable), ("get_global", .getGlobal),
   ("location", .location), ("co_create", .createCoroutine), ("co_resume", .resumeCoroutine),
   ("self_info", .selfInfo), ("as_string", .asString), ("as_number", .asNumber),
   ("as_integer", .asInteger), ("as_table", .asTable), ("as_userdata", .asUserData),
   ("as_optional_integer", .asOptionalInteger), ("as_u32", .asWord false),
   ("as_u32_or_nil", .asWord true), ("point_sum", .pointSum), ("log", .log),
   ("tail", .tail Option.none Option.none false),
   ("tail_decorate", .tail Option.none Option.none true), ("reenter", .reenter)]

end Function

/-! ## What the functions do -/

section

open Library (results one)

/-- A number as data of the host; `wrap` says whose fault another value is. -/
def numberFor (v : Value) (wrap : ConversionError → RuntimeError) :
    Action types NativeOutcome := do
  let n : Float ← .ofResult ((← .ask fun w => fromValue w v).mapError wrap)
  one (.number n)

/-- The word behind an argument, or nothing for nil where that is allowed. -/
def wordArgument (w : World types) (a : Arguments) (i : Nat) (function : String)
    (allowNil : Bool) : Except ScriptError (Option Nat) :=
  match a.get i with
  | .userData u =>
    match w.userObject? u with
    | some (.opaqueWord n) => .ok (some n)
    | _ =>
      .error (.badArgument (i + 1) function
        ("userdata<u32> expected, got userdata<" ++ w.userTypeName u ++ ">"))
  | v =>
    if allowNil && v.isNil then .ok Option.none
    else .error (Arguments.badType i function "userdata<u32>" v)

/-- The sum of the fields of all points among values. -/
def sumPoints (w : World types) : Float → List Value → Float
  | sum, [] => sum
  | sum, .userData u :: rest =>
    match w.userObject? u with
    | some (.point x y) => sumPoints w (sum + (x + y)) rest
    | _ => sumPoints w sum rest
  | sum, _ :: rest => sumPoints w sum rest

/-- What a method call looks like from inside. -/
def selfReport (a : Arguments) : List Value :=
  let s := a.skipSelf
  [.boolean a.methodCall, .number (Float.ofNat a.count), .boolean a.isEmpty,
    .boolean s.methodCall, .number (Float.ofNat s.count), s.get 0, s.skipSelf.get 0]

def metamethodOf (a : Arguments) : Action types NativeOutcome := do
  let name ← .ofScript (a.asString 1 "metamethod")
  match Operator.ofField? name with
  | some op => one ((← .ask fun w => w.hook? (a.get 0) op).getD .nil)
  | Option.none => one .nil

/-- What a function of the workbench does. -/
def Function.action (f : Function) (info : CallInfo) (a : Arguments) :
    Action types NativeOutcome := do
  match f with
  | .echo => results a.values
  | .first => one (a.get 0)
  | .count => one (.number (Float.ofNat a.count))
  | .void => one .void
  | .none => one (.tuple [])
  | .const v => one v
  | .raise kind message => .raise { kind, message }
  | .call => one (← .callValue (a.get 0) (a.rest 1))
  | .attempt =>
    .call (a.get 0) (a.rest 1) fun
      | .ok v => results [.boolean true, v]
      | .error e => results [.boolean false, .string e.message]
  | .yield => pure (.yield (.tupled a.values))
  | .fail => .raise (.userText (a.get 0).toStorable.display)
  | .failValue => .raise (.user (a.get 0).toStorable)
  | .internal => .fail (.internal (a.get 0).toStorable.display)
  | .terminate => .fail .terminated
  | .violate => .fail (.contract .crossThread)
  | .cancel =>
    .change fun w => { w with cancelled := true }
    one .void
  | .hostNumber => numberFor (a.get 0) .ofConversion
  | .scriptNumber => numberFor (a.get 0) fun e => .script (.ofConversion e)
  | .index => one (← .index (a.get 0) (a.get 1))
  | .setIndex =>
    .setIndex (a.get 0) (a.get 1) (a.get 2)
    one .void
  | .length => one (← .length (a.get 0))
  | .equals => one (.boolean (← .equals (a.get 0) (a.get 1)))
  | .lessThan => one (.boolean (← .lessThan (a.get 0) (a.get 1)))
  | .display => one (.string (← .displayText (a.get 0)))
  | .metamethod => metamethodOf a
  | .metatable => one (((← .ask fun w => w.metatable? (a.get 0)).map Value.table).getD .nil)
  | .newTable => one (.table (← .newTable))
  | .current => one (((← .ask fun w => w.current?).map Value.thread).getD .nil)
  | .yieldable => one (.boolean info.yieldable)
  | .getGlobal =>
    let name ← .ofScript (a.asString 0 "get_global")
    one (← .ask fun w => (w.table w.globals).getName name)
  | .location =>
    match info.location? with
    | some l => results [.string l.display, .number (Float.ofNat l.column)]
    | Option.none => one .nil
  | .createCoroutine => one (.thread (← Library.newCoroutine (a.get 0)))
  | .resumeCoroutine =>
    match a.get 0 with
    | .thread c => .resume c (a.rest 1) fun r => do one (← .ofResult r)
    | _ => one .nil
  | .selfInfo => results (selfReport a)
  | .asString => one (.string (← .ofScript (a.asString 0 "as_string")))
  | .asNumber => one (.number (← .ofScript (a.asNumber 0 "as_number")))
  | .asInteger => one (.number (Float.ofInt (← .ofScript (a.asInteger 0 "as_integer"))))
  | .asTable => one (.table (← .ofScript (a.asTable 0 "as_table")))
  | .asUserData => one (.userData (← .ofScript (a.asUserData 0 "as_userdata")))
  | .asOptionalInteger =>
    let i ← .ofScript (a.asOptionalInteger 0 "as_optional_integer" (-7))
    one (.number (Float.ofInt i))
  | .asWord allowNil =>
    let name := if allowNil then "as_u32_or_nil" else "as_u32"
    let n? ← .ofScript (← .ask fun w => wordArgument w a 0 name allowNil)
    one ((n?.map fun n => Value.number (Float.ofNat n)).getD .nil)
  | .pointSum => one (.number (← .ask fun w => sumPoints w 0 a.values))
  | .log =>
    .change fun w => w.print (",".intercalate (a.values.map Value.display))
    one .void
  | .tail continuation? errorHandler? decorated =>
    pure (.tailCall
      { function := a.get 0, args := a.rest (if decorated then 2 else 1), continuation?
        errorHandler?, beforeUnwind? := if decorated then some (a.get 1) else Option.none })
  | .reenter => .enterMain (a.get 0) (a.rest 1) fun r => do one (← .ofResult r)
  | .tagged name => results (.string name :: a.values)
  | .failAgain => .raise (.userText ("again " ++ (a.get 0).toStorable.display))

end

instance : Host types where
  run f info a := Function.action f info a

/-! ## Making functions -/

/-- A new function of the workbench. -/
def add (name : String) (f : Function) (w : World types) : NativeRef × World types :=
  w.addNative { name, body := .host f }

/-- A new function by its name.  The functions that one hands its results or errors to are made
before it. -/
def addNamed (name : String) (w : World types) : NativeRef × World types :=
  match name with
  | "tail_cont" =>
    let (cont, w) := add "cont" (.tagged "cont") w
    add name (.tail (some cont) Option.none false) w
  | "tail_catch" =>
    let (caught, w) := add "caught" (.tagged "caught") w
    add name (.tail Option.none (some caught) false) w
  | "tail_all" =>
    let (cont, w) := add "cont" (.tagged "cont") w
    let (caught, w) := add "caught" (.tagged "caught") w
    add name (.tail (some cont) (some caught) true) w
  | "tail_bad_catch" =>
    let (bad, w) := add "bad_catch" .failAgain w
    add name (.tail Option.none (some bad) false) w
  | _ => add name ((Function.named.lookup name).getD .echo) w

end ScriptEngine.Workbench
