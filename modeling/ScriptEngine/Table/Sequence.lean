import ScriptEngine.Table.Basic

/-!
# Tables as sequences

Adding and taking out items in the run of positions that starts at 1.  A place is a
64-bit word; the integer it is as a key has the same bits.
-/

namespace ScriptEngine.Table

/-- Writes behind the last item. -/
def append (t : Table) (value : Value) : Table :=
  let t := t.noteLength
  t.setInt (Int.ofNat t.length + 1) value

/-- Moves `n` items up by one, from position `first + n - 1` down to `first`. -/
def shiftUp (first : Nat) : Nat → Table → Table
  | 0, t => t
  | n + 1, t =>
    let i := Int.ofNat (first + n)
    shiftUp first n (t.setInt (i + 1) (t.getInt i))

/-- Moves `n` items down by one, the lowest to position `first`. -/
def shiftDown : Nat → Nat → Table → Table
  | _, 0, t => t
  | first, n + 1, t =>
    let i := Int.ofNat first
    shiftDown (first + 1) n (t.setInt i (t.getInt (i + 1)))

/-- The integer that a 64-bit word is when its highest bit counts as a sign. -/
def signedWord (n : Nat) : Int :=
  if n < Nat.pow 2 63 then Int.ofNat n else Int.ofNat n - Int.pow 2 64

/-- Writes at a position after moving up the items from there on. -/
def insertAt (t : Table) (place : Nat) (value : Value) : Table :=
  let t := t.noteLength
  (shiftUp place (t.length + 1 - place) t).setInt (signedWord place) value

/-- Takes out the value at a position and moves down the items behind it. -/
def removeAt (t : Table) (place : Nat) : Value × Table :=
  let t := t.noteLength
  let n := t.length
  let removed := t.getInt (signedWord place)
  let t := shiftDown place (n - place) t
  (removed, if place ≤ n then t.setInt n .nil else t)

end ScriptEngine.Table
