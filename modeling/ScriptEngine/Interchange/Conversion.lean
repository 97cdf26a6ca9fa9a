import ScriptEngine.World.Basic

/-!
# Data of the host as values

How the host's own types become values and come back.  Lists are tables with positions
from 1 on, and records are tables with names; everything else is a single value.
-/

namespace ScriptEngine

/-- Data that can be read from values. -/
class FromValue (α : Type) where
  fromValue : {H : HostTypes} → World H → Value → Except ConversionError α

/-- Data that can be written as values. -/
class ToValue (α : Type) where
  toValue : {H : HostTypes} → α → World H → Value × World H

export FromValue (fromValue)
export ToValue (toValue)

namespace ConversionError

/-- A value of another type than the expected one. -/
def mismatch (expected : String) (v : Value) : ConversionError :=
  .typeMismatch expected v.typeName

/-- A mismatch at a position of a list. -/
def atIndex (index : Nat) : ConversionError → ConversionError
  | .typeMismatch expected found => .elementMismatch index expected found
  | e => e

/-- A mismatch in a field of a record. -/
def atField (key : String) : ConversionError → ConversionError
  | .typeMismatch expected found => .fieldMismatch key expected found
  | e => e

end ConversionError

/-! ## Single values -/

instance : FromValue Float where
  fromValue _ v :=
    match v.toScalar with
    | .number n => .ok n
    | other => .error (.mismatch "number" other)

instance : ToValue Float where
  toValue n w := (.number n, w)

/-- Every integer up to this magnitude is a number of its own. -/
def exactLimit : Float := 9007199254740992

instance : FromValue Int64 where
  fromValue w v := do
    let n : Float ← fromValue w v
    if Double.isWhole n && -exactLimit ≤ n && n ≤ exactLimit then
      pure (Int64.ofInt (Dyadic.ofFloat n).truncate)
    else throw (.outOfRange n "i64")

instance : ToValue Int64 where
  toValue n w := (.number (Float.ofInt n.toInt), w)

instance : FromValue String where
  fromValue _ v :=
    match v.toScalar with
    | .string s => .ok s
    | other => .error (.mismatch "string" other)

instance : ToValue String where
  toValue s w := (.string s, w)

instance : FromValue Bool where
  fromValue _ v :=
    match v.toScalar with
    | .boolean b => .ok b
    | other => .error (.mismatch "boolean" other)

instance : ToValue Bool where
  toValue b w := (.boolean b, w)

/-- Nothing is nil. -/
instance : FromValue Unit where
  fromValue _ v := if v.toScalar.isNil then .ok () else .error (.mismatch "nil" v)

instance : ToValue Unit where
  toValue _ w := (.nil, w)

instance : FromValue Value where
  fromValue _ v := .ok v

instance : ToValue Value where
  toValue v w := (v, w)

instance : FromValue TableRef where
  fromValue _ v :=
    match v.toScalar with
    | .table t => .ok t
    | other => .error (.mismatch "table" other)

/-- What is missing is nil. -/
instance {α : Type} [FromValue α] : FromValue (Option α) where
  fromValue w v := if v.toScalar.isNil then .ok none else (fromValue w v).map some

instance {α : Type} [ToValue α] : ToValue (Option α) where
  toValue
    | none, w => (.nil, w)
    | some a, w => toValue a w

/-! ## Lists -/

/-- The items at `n` positions of a table from `index` on. -/
def itemsFrom {α : Type} [FromValue α] {H : HostTypes} (w : World H) (t : Table) :
    Nat → Nat → Except ConversionError (List α)
  | 0, _ => .ok []
  | n + 1, index =>
    match fromValue w (t.getInt (Int.ofNat index)) with
    | .error e => .error (e.atIndex index)
    | .ok a =>
      match itemsFrom w t n (index + 1) with
      | .ok rest => .ok (a :: rest)
      | .error e => .error e

instance {α : Type} [FromValue α] : FromValue (List α) where
  fromValue w v := do
    let r : TableRef ← fromValue w v
    let t := w.table r
    itemsFrom w t t.length 1

/-- Appends the items to a table that is not yet in the world. -/
def appendItems {α : Type} [ToValue α] {H : HostTypes} : List α → Table → World H → Table × World H
  | [], t, w => (t, w)
  | a :: rest, t, w =>
    let (v, w) := toValue a w
    appendItems rest (t.append v) w

/-- The items come before the table that holds them. -/
instance {α : Type} [ToValue α] : ToValue (List α) where
  toValue items w :=
    let (t, w) := appendItems items {} w
    let (r, w) := w.addTable t
    (.table r, w)

/-! ## Records -/

/-- Named data in the order in which the names came, each name once. -/
structure Fields (α : Type) where
  items : List (String × α)
  nodup : (items.map Prod.fst).Nodup

namespace Fields

variable {α : Type}

def empty : Fields α := ⟨[], by simp⟩

/-- The items with the data of a name replaced. -/
def replaced (name : String) (a : α) (items : List (String × α)) : List (String × α) :=
  items.map fun (n, b) => if n = name then (n, a) else (n, b)

theorem names_replaced (name : String) (a : α) (items : List (String × α)) :
    (replaced name a items).map Prod.fst = items.map Prod.fst := by
  induction items with
  | nil => rfl
  | cons item rest ih =>
    have h : replaced name a (item :: rest) =
        (if item.1 = name then (item.1, a) else (item.1, item.2)) :: replaced name a rest := rfl
    rw [h, List.map_cons, ih, List.map_cons]
    split <;> rfl

/-- Puts data under a name, in its place if it has one and else at the end. -/
def insert (f : Fields α) (name : String) (a : α) : Fields α :=
  if h : name ∈ f.items.map Prod.fst then
    ⟨replaced name a f.items, by rw [names_replaced]; exact f.nodup⟩
  else
    ⟨f.items ++ [(name, a)], by
      rw [List.map_append, List.nodup_append]
      refine ⟨f.nodup, by simp, ?_⟩
      intro x hx y hy hxy
      have hy' : y = name := by simpa using hy
      exact h (hy' ▸ hxy ▸ hx)⟩

end Fields

/-- The fields among the entries; keys that are no names are left out. -/
def fieldsFrom {α : Type} [FromValue α] {H : HostTypes} (w : World H) :
    List (Value × Value) → Fields α → Except ConversionError (Fields α)
  | [], fields => .ok fields
  | (.string name, v) :: rest, fields =>
    match fromValue w v with
    | .ok a => fieldsFrom w rest (fields.insert name a)
    | .error e => .error (e.atField name)
  | _ :: rest, fields => fieldsFrom w rest fields

instance {α : Type} [FromValue α] : FromValue (Fields α) where
  fromValue w v := do
    let r : TableRef ← fromValue w v
    fieldsFrom w (w.table r).pairs .empty

/-- Writes the fields into a table that is not yet in the world. -/
def writeFields {α : Type} [ToValue α] {H : HostTypes} :
    List (String × α) → Table → World H → Table × World H
  | [], t, w => (t, w)
  | (name, a) :: rest, t, w =>
    let (v, w) := toValue a w
    writeFields rest (t.setName name v) w

instance {α : Type} [ToValue α] : ToValue (Fields α) where
  toValue fields w :=
    let (t, w) := writeFields fields.items {} w
    let (r, w) := w.addTable t
    (.table r, w)

end ScriptEngine
