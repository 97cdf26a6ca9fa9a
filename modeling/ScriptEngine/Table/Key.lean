import Std.Data.TreeMap.Lemmas
import ScriptEngine.Value.Basic

/-!
# Keys of tables

Values that are equal as keys have one canonical key: a whole number from 1 to `2 ^ 53`
is a position, a string a name, and every other value stands for itself, with the two
zeros taken together.  Nil and NaN are no keys.  An index of keys is looked at through
`KeyIndex.find?` alone, which `insert` and `erase` change at one key.
-/

namespace ScriptEngine

/-- Keys that are neither positions nor names. -/
inductive PlainKey where
  | boolean (b : Bool)
  | number (bits : Nat)
  | table (t : TableRef)
  | function (f : FunctionRef)
  | native (f : NativeRef)
  | thread (c : CoroutineRef)
  | userData (u : UserDataRef)
deriving DecidableEq, Repr

namespace PlainKey

/-- A number for each key, different for different keys. -/
def code : PlainKey → Nat
  | .boolean b => 8 * b.toNat
  | .number bits => 8 * bits + 1
  | .table t => 8 * t.id + 2
  | .function f => 8 * f.id + 3
  | .native f => 8 * f.id + 4
  | .thread c => 8 * c.id + 5
  | .userData u => 8 * u.id + 6

theorem code_injective {a b : PlainKey} (h : a.code = b.code) : a = b := by
  cases a <;> cases b <;> simp only [code] at h
  case boolean.boolean a b => cases a <;> cases b <;> simp_all
  case number.number a b => congr 1; omega
  case table.table a b => congr 1; ext; omega
  case function.function a b => congr 1; ext; omega
  case native.native a b => congr 1; ext; omega
  case thread.thread a b => congr 1; ext; omega
  case userData.userData a b => congr 1; ext; omega
  all_goals omega

theorem code_inj {a b : PlainKey} : a.code = b.code ↔ a = b :=
  ⟨code_injective, congrArg code⟩

end PlainKey

inductive Key where
  | name (s : String)
  | position (i : Nat)
  | plain (k : PlainKey)
deriving DecidableEq, Repr

namespace Key

/-- The largest position. -/
def maxPosition : Nat := Nat.pow 2 53

/-- The canonical key of a number. -/
def ofNumber? (n : Float) : Option Key :=
  if n.isNaN then none
  else
    let whole := if Double.isWhole n then (Dyadic.ofFloat n).truncate else 0
    if 1 ≤ whole ∧ whole ≤ maxPosition then some (.position whole.toNat)
    else some (.plain (.number (if n == 0.0 then 0 else n.toBits.toNat)))

/-- The canonical key of a value, taken as a scalar. -/
def ofValue? (v : Value) : Option Key :=
  match v.toScalar with
  | .nil => none
  | .void => none
  | .boolean b => some (.plain (.boolean b))
  | .number n => ofNumber? n
  | .string s => some (.name s)
  | .table t => some (.plain (.table t))
  | .function f => some (.plain (.function f))
  | .native f => some (.plain (.native f))
  | .tuple _ => none
  | .thread c => some (.plain (.thread c))
  | .userData u => some (.plain (.userData u))

@[simp] theorem ofValue?_toScalar (v : Value) : ofValue? v.toScalar = ofValue? v := by
  simp [ofValue?]

end Key

/-- Where the entry of a key stands, for each sort of keys on its own. -/
structure KeyIndex where
  names : Std.TreeMap String Nat := {}
  positions : Std.TreeMap Nat Nat := {}
  plain : Std.TreeMap Nat Nat := {}

namespace KeyIndex

instance : Inhabited KeyIndex := ⟨{}⟩

/-- The place of a key. -/
def find? (ix : KeyIndex) : Key → Option Nat
  | .name s => ix.names[s]?
  | .position i => ix.positions[i]?
  | .plain k => ix.plain[k.code]?

/-- Gives a key a place. -/
def insert (ix : KeyIndex) (key : Key) (place : Nat) : KeyIndex :=
  match key with
  | .name s => { ix with names := ix.names.insert s place }
  | .position i => { ix with positions := ix.positions.insert i place }
  | .plain k => { ix with plain := ix.plain.insert k.code place }

/-- Forgets the place of a key. -/
def erase (ix : KeyIndex) : Key → KeyIndex
  | .name s => { ix with names := ix.names.erase s }
  | .position i => { ix with positions := ix.positions.erase i }
  | .plain k => { ix with plain := ix.plain.erase k.code }

@[simp] theorem find?_empty (key : Key) : ({} : KeyIndex).find? key = none := by
  cases key <;> simp [find?]

theorem find?_insert (ix : KeyIndex) (key other : Key) (place : Nat) :
    (ix.insert key place).find? other = if key = other then some place else ix.find? other := by
  cases key <;> cases other <;>
    simp [find?, insert, Std.TreeMap.getElem?_insert, PlainKey.code_inj]

theorem find?_erase (ix : KeyIndex) (key other : Key) :
    (ix.erase key).find? other = if key = other then none else ix.find? other := by
  cases key <;> cases other <;>
    simp [find?, erase, Std.TreeMap.getElem?_erase, PlainKey.code_inj]

end KeyIndex

end ScriptEngine
