import ScriptEngine.World.Basic

/-!
# JSON documents

Tables with exactly the positions from 1 on are arrays and all others are objects.  The
members of an object are in the order of their names.
-/

namespace ScriptEngine

inductive JsonValue where
  | null
  | boolean (b : Bool)
  /-- A number written without fraction and exponent. -/
  | integer (n : Int)
  | float (x : Float)
  | string (s : String)
  | array (items : List JsonValue)
  | object (members : List (String × JsonValue))
deriving Inhabited

namespace JsonValue

mutual

/-- How deep containers are nested. -/
def depth : JsonValue → Nat
  | .array items => depthOfItems items + 1
  | .object members => depthOfMembers members + 1
  | _ => 0

def depthOfItems : List JsonValue → Nat
  | [] => 0
  | v :: rest => max v.depth (depthOfItems rest)

def depthOfMembers : List (String × JsonValue) → Nat
  | [] => 0
  | (_, v) :: rest => max v.depth (depthOfMembers rest)

end

/-- Puts a member in its place by name; one of the same name goes. -/
def insertMember (name : String) (v : JsonValue) :
    List (String × JsonValue) → List (String × JsonValue)
  | [] => [(name, v)]
  | (n, u) :: rest =>
    if name < n then (name, v) :: (n, u) :: rest
    else if n = name then (name, v) :: rest
    else (n, u) :: insertMember name v rest

/-! ## Reading a document -/

/-- The number nearest to an integer. -/
def nearest (n : Int) : Float :=
  let magnitude := Double.ofRatio n.natAbs 1
  if n < 0 then -magnitude else magnitude

mutual

/-- The value of a document.  The containers are new tables, each made after its members; what is
null is left out of them. -/
def toValue {H : HostTypes} (w : World H) : JsonValue → Value × World H
  | .null => (.nil, w)
  | .boolean b => (.boolean b, w)
  | .integer n => (.number (nearest n), w)
  | .float x => (.number x, w)
  | .string s => (.string s, w)
  | .array items =>
    let (t, w) := itemsToTable w 1 {} items
    let (r, w) := w.addTable t
    (.table r, w)
  | .object members =>
    let (t, w) := membersToTable w {} members
    let (r, w) := w.addTable t
    (.table r, w)

/-- The items at the positions from `i` on. -/
def itemsToTable {H : HostTypes} (w : World H) (i : Int) (t : Table) :
    List JsonValue → Table × World H
  | [] => (t, w)
  | v :: rest =>
    let (value, w) := toValue w v
    itemsToTable w (i + 1) (t.setInt i value) rest

def membersToTable {H : HostTypes} (w : World H) (t : Table) :
    List (String × JsonValue) → Table × World H
  | [] => (t, w)
  | (name, v) :: rest =>
    let (value, w) := toValue w v
    membersToTable w (t.setName name value) rest

end

/-! ## Writing a document -/

/-- How deep tables may be nested. -/
def maxDepth : Nat := 128

/-- The number as an integer where it is one that no other integer is rounded to. -/
def ofNumber (n : Float) : Except ConversionError JsonValue :=
  if Double.isWhole n && Float.abs n < 9007199254740992 then
    .ok (.integer (Dyadic.ofFloat n).truncate)
  else if n.isFinite then .ok (.float n)
  else .error (.noJson ("non-finite number " ++ Numeral.render n))

/-- The name of the member for a key. -/
def memberName : Value → Except ConversionError String
  | .string s => .ok s
  | .number n => .ok (Numeral.render n)
  | v => .error (.noJson (v.typeName ++ " key in object"))

/-- The documents of several values. -/
def ofAll (convert : Value → Except ConversionError JsonValue) :
    List Value → Except ConversionError (List JsonValue)
  | [] => .ok []
  | v :: rest => do
    let j ← convert v
    let js ← ofAll convert rest
    pure (j :: js)

/-- The members for several entries, added to the given ones. -/
def ofEntries (convert : Value → Except ConversionError JsonValue) :
    List (Value × Value) → List (String × JsonValue) →
    Except ConversionError (List (String × JsonValue))
  | [], members => .ok members
  | (k, v) :: rest, members => do
    let name ← memberName k
    let j ← convert v
    ofEntries convert rest (insertMember name j members)

/-- The document of a table, an array if its keys are exactly the positions from 1 on. -/
def ofTable (t : Table) (convert : Value → Except ConversionError JsonValue) :
    Except ConversionError JsonValue :=
  let n := t.length
  if 0 < n ∧ n = t.count then
    (ofAll convert ((List.range n).map fun i => t.getInt (Int.ofNat i + 1))).map .array
  else (ofEntries convert t.pairs []).map .object

/-- The document of a value with at most the given number of tables nested; `outer` are the tables
around it. -/
def ofValueWithin {H : HostTypes} (w : World H) :
    Nat → List TableRef → Value → Except ConversionError JsonValue
  | deeper, outer, v =>
    match v.toStorable with
    | .nil | .void => .ok .null
    | .boolean b => .ok (.boolean b)
    | .number n => ofNumber n
    | .string s => .ok (.string s)
    | .table r =>
      match deeper with
      | 0 => .error (.noJson ("nesting deeper than " ++ toString maxDepth))
      | deeper + 1 =>
        if r ∈ outer then .error (.noJson "cyclic table")
        else ofTable (w.table r) (ofValueWithin w deeper (r :: outer))
    | other => .error (.noJson (other.typeName ++ " value"))

/-- The document of a value. -/
def ofValue {H : HostTypes} (w : World H) (v : Value) : Except ConversionError JsonValue :=
  ofValueWithin w maxDepth [] v

end JsonValue

end ScriptEngine
