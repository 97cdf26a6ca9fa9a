import ScriptEngine.Table.Key

/-!
# Tables

A table keeps its entries in the order in which their keys came in.  Assigning nil
leaves the entry in its place without a value, so that a traversal can go on from its
key; such dead entries are swept when a new key comes in.  A length once found is
remembered and kept up to date by every write.  What is remembered never shows in what
is read.
-/

namespace ScriptEngine

/-- A key as it was written and its value; the value of a dead entry is nil. -/
structure Entry where
  key : Value
  value : Value
deriving DecidableEq, Inhabited

def Entry.isLive (e : Entry) : Bool := !e.value.isNil

structure Table where
  entries : Array Entry := #[]
  index : KeyIndex := {}
  /-- The length, once it has been asked for. -/
  length? : Option Nat := none
  /-- There may be dead entries. -/
  hasDead : Bool := false
  metatable? : Option TableRef := none

namespace Table

instance : Inhabited Table := ⟨{}⟩

/-! ## Reading -/

/-- The value of the entry at a place. -/
def valueAt (t : Table) (place : Nat) : Value :=
  match t.entries[place]? with
  | some e => e.value
  | none => .nil

/-- The value of a key, nil without an entry. -/
def getKey (t : Table) (key : Key) : Value :=
  match t.index.find? key with
  | some place => t.valueAt place
  | none => .nil

/-- The value under a value as key; nil for nil and NaN. -/
def get (t : Table) (key : Value) : Value :=
  match Key.ofValue? key with
  | some k => t.getKey k
  | none => .nil

/-- The value under a string. -/
def getName (t : Table) (name : String) : Value := t.getKey (.name name)

/-- The value under an integer: a positive one is a position at once, the others go through their
number. -/
def getInt (t : Table) (i : Int) : Value :=
  if 1 ≤ i then t.getKey (.position i.toNat) else t.get (.number (Float.ofInt i))

/-- Whether there is a value at the position. -/
def isLiveAt (t : Table) (i : Nat) : Bool := !(t.getKey (.position i)).isNil

/-- The live entries in their order. -/
def live (t : Table) : List Entry := t.entries.toList.filter (·.isLive)

/-- The live keys and values in their order. -/
def pairs (t : Table) : List (Value × Value) := t.live.map fun e => (e.key, e.value)

/-- Number of live entries. -/
def count (t : Table) : Nat := t.live.length

def isEmpty (t : Table) : Bool := t.live.isEmpty

/-! ## Length -/

/-- Counts on from `n` while the next position is live, at most `fuel` times. -/
def countUp (t : Table) : Nat → Nat → Nat
  | 0, n => n
  | fuel + 1, n => if t.isLiveAt (n + 1) then countUp t fuel (n + 1) else n

/-- The first length from `n` on, when the positions up to `n` are live.  There are at most as many
live positions as entries. -/
def probeLength (t : Table) (n : Nat) : Nat := t.countUp t.entries.size n

/-- The largest `n` such that the positions from 1 to `n` are live. -/
def length (t : Table) : Nat := t.length?.getD (t.probeLength 0)

/-- Remembers the length. -/
def noteLength (t : Table) : Table := { t with length? := some t.length }

/-- The position has become live: only the one after the remembered length moves it. -/
def growLength (t : Table) (i : Nat) : Table :=
  match t.length? with
  | some n => if i = n + 1 then { t with length? := some (t.probeLength (i - 1)) } else t
  | none => t

/-- The position has become nil: the length ends before it if it reached as far. -/
def shrinkLength (t : Table) (i : Nat) : Table :=
  match t.length? with
  | some n => if i ≤ n then { t with length? := some (i - 1) } else t
  | none => t

def growFor (t : Table) : Key → Table
  | .position i => t.growLength i
  | _ => t

def shrinkFor (t : Table) : Key → Table
  | .position i => t.shrinkLength i
  | _ => t

/-! ## Writing -/

/-- The index of entries by their keys, those that come later last. -/
def indexOf (entries : List Entry) : KeyIndex :=
  entries.zipIdx.foldl
    (fun ix (e, place) =>
      match Key.ofValue? e.key with
      | some k => ix.insert k place
      | none => ix)
    {}

/-- Sweeps the dead entries. -/
def sweep (t : Table) : Table :=
  let entries := t.entries.filter (·.isLive)
  { t with entries, index := indexOf entries.toList, hasDead := false }

/-- Appends an entry for a key that has none. -/
def appendEntry (t : Table) (key : Key) (written value : Value) : Table :=
  let index := t.index.insert key t.entries.size
  let t := { t with index, entries := t.entries.push ⟨written, value⟩ }
  t.growFor key

/-- Puts a value into the entry at a place. -/
def setAt (t : Table) (place : Nat) (value : Value) : Table :=
  { t with entries := t.entries.modify place fun e => { e with value } }

/-- Writes a storable value under a canonical key; `written` is the key as it was given. -/
def setKey (t : Table) (key : Key) (written value : Value) : Table :=
  match t.index.find? key with
  | some place =>
    let wasNil := (t.valueAt place).isNil
    if value.isNil then
      if wasNil then t else { t.setAt place .nil with hasDead := true }.shrinkFor key
    else if wasNil then t.sweep.appendEntry key written value
    else t.setAt place value
  | none =>
    if value.isNil then t
    else if t.hasDead then t.sweep.appendEntry key written value
    else t.appendEntry key written value

/-- Writes under a value as key, which must not be nil or NaN. -/
def set? (t : Table) (key value : Value) : Option Table :=
  (Key.ofValue? key).map fun k => t.setKey k key.toScalar value.toStorable

/-- Writes under a string. -/
def setName (t : Table) (name : String) (value : Value) : Table :=
  t.setKey (.name name) (.string name) value.toStorable

/-- Writes under an integer, as the number it is. -/
def setInt (t : Table) (i : Int) (value : Value) : Table :=
  let key := Value.number (Float.ofInt i)
  match Key.ofValue? key with
  | some k => t.setKey k key value.toStorable
  | none => t

/-- Takes a key out of the index; its entry stays behind, dead.  Tells whether it was live. -/
def remove (t : Table) (key : Value) : Bool × Table :=
  match Key.ofValue? key with
  | none => (false, t)
  | some k =>
    match t.index.find? k with
    | none => (false, t)
    | some place =>
      let wasLive := !(t.valueAt place).isNil
      let t := { t.setAt place .nil with index := t.index.erase k, hasDead := true }
      (wasLive, if wasLive then t.shrinkFor k else t)

/-! ## What is remembered does not show

Noting and moving the length changes neither entries nor index. -/

@[simp] theorem entries_noteLength (t : Table) : t.noteLength.entries = t.entries := rfl

@[simp] theorem index_noteLength (t : Table) : t.noteLength.index = t.index := rfl

@[simp] theorem length_noteLength (t : Table) : t.noteLength.length = t.length := rfl

@[simp] theorem entries_growFor (t : Table) (key : Key) : (t.growFor key).entries = t.entries := by
  unfold growFor growLength
  repeat' split
  all_goals rfl

@[simp] theorem index_growFor (t : Table) (key : Key) : (t.growFor key).index = t.index := by
  unfold growFor growLength
  repeat' split
  all_goals rfl

@[simp] theorem entries_shrinkFor (t : Table) (key : Key) :
    (t.shrinkFor key).entries = t.entries := by
  unfold shrinkFor shrinkLength
  repeat' split
  all_goals rfl

@[simp] theorem index_shrinkFor (t : Table) (key : Key) : (t.shrinkFor key).index = t.index := by
  unfold shrinkFor shrinkLength
  repeat' split
  all_goals rfl

@[simp] theorem getKey_noteLength (t : Table) (key : Key) :
    t.noteLength.getKey key = t.getKey key := rfl

/-! ## Traversal -/

/-- The first live entry from a place on, among the next `fuel`. -/
def firstLive (t : Table) : Nat → Nat → Option Entry
  | 0, _ => none
  | fuel + 1, place =>
    match t.entries[place]? with
    | some e => if e.isLive then some e else firstLive t fuel (place + 1)
    | none => none

/-- With enough fuel the search looks at all that is left. -/
theorem firstLive_eq_find? (t : Table) (fuel place : Nat) (h : t.entries.size ≤ place + fuel) :
    t.firstLive fuel place = (t.entries.toList.drop place).find? (·.isLive) := by
  induction fuel generalizing place with
  | zero =>
    rw [List.drop_eq_nil_of_le (by simpa using h)]
    rfl
  | succ fuel ih =>
    rw [firstLive]
    by_cases hp : place < t.entries.size
    · rw [List.drop_eq_getElem_cons (by simpa using hp), Array.getElem?_eq_getElem hp]
      by_cases hl : (t.entries[place]).isLive
      · simp [hl]
      · simpa [hl] using ih (place + 1) (by omega)
    · rw [List.drop_eq_nil_of_le (by simpa using hp), Array.getElem?_eq_none (by omega)]
      rfl

/-- The outcome of asking for the next entry. -/
inductive Next where
  | entry (key value : Value)
  | finished
  /-- The key that was given is not one of the table. -/
  | unknownKey
deriving DecidableEq

/-- The first live entry behind the one of a key, or the first of all for nil. -/
def next (t : Table) (key : Value) : Next :=
  let start? :=
    if key.isNil then some 0
    else (Key.ofValue? key).bind fun k => (t.index.find? k).map (· + 1)
  match start? with
  | none => .unknownKey
  | some start =>
    match t.firstLive (t.entries.size - start) start with
    | some e => .entry e.key e.value
    | none => .finished

end Table

end ScriptEngine
