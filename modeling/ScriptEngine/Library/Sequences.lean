import ScriptEngine.Library.Protection

/-!
# Tables as sequences

All access here is without metamethods.
-/

namespace ScriptEngine

namespace Table

/-- The values at `n` positions from `first` on. -/
def slice (t : Table) (first : Int) (n : Nat) : List Value :=
  (List.range n).map fun i => t.getInt (first + Int.ofNat i)

/-- The texts at `n` positions from `i` on, or the position of a value that has none. -/
def texts (t : Table) : Nat → Int → Except Int (List String)
  | 0, _ => .ok []
  | n + 1, i =>
    match (t.getInt i).toText? with
    | none => .error i
    | some text =>
      match texts t n (i + 1) with
      | .ok rest => .ok (text :: rest)
      | .error i => .error i

end Table

namespace Library

variable {H : HostTypes}

/-- The bounds in two optional arguments: from 1 up to the length. -/
def bounds (a : Arguments) (t : TableRef) (place : Nat) (function : String) :
    Action H (Int × Int) := do
  let first ← .ofScript (a.asOptionalInteger place function 1)
  let length ← .tableLength t
  let last ← .ofScript (a.asOptionalInteger (place + 1) function (Int.ofNat length))
  pure (first, last)

/-- The most values that are unpacked. -/
def maxUnpacked : Nat := 1000000

/-- The values at the positions from one to another. -/
def unpack (a : Arguments) : Action H NativeOutcome := do
  let t ← .ofScript (a.asTable 0 "unpack")
  let (first, last) ← bounds a t 1 "unpack"
  let n := (last - first + 1).toNat
  if maxUnpacked < n then
    .raise { kind := .stackOverflow, message := "too many results to unpack" }
  else one (.tuple (← .ask fun w => (w.table t).slice first n))

/-- The texts at the positions from one to another, with a separator between them. -/
def concat (a : Arguments) : Action H NativeOutcome := do
  let t ← .ofScript (a.asTable 0 "concat")
  let separator ←
    if (a.get 1).isNil then pure "" else .ofScript (a.asString 1 "concat")
  let (first, last) ← bounds a t 2 "concat"
  let n := (last - first + 1).toNat
  match ← .ask fun w => (w.table t).texts n first with
  | .ok texts => one (.string (separator.intercalate texts))
  | .error i =>
    .raise
      { kind := .badArgument
        message := "invalid value (at index " ++ ToString.toString i ++
          ") in table for 'concat'" }

/-- Whether a position is one of the first `n`, or the one behind them. -/
def isPlace (position : Int) (n : Nat) : Bool :=
  decide (1 ≤ position ∧ position ≤ Int.ofNat n + 1)

/-- Adds a value at the end or at a position. -/
def insert (a : Arguments) : Action H NativeOutcome := do
  let t ← .ofScript (a.asTable 0 "insert")
  let n ← .tableLength t
  match a.values with
  | [_, v] =>
    .change fun w => w.modifyTable t fun t => t.append v.toStorable
    one .void
  | [_, _, v] =>
    let position ← .ofScript (a.asInteger 1 "insert")
    if isPlace position n then
      .change fun w => w.modifyTable t fun t => t.insertAt position.toNat v.toStorable
      one .void
    else .raise (.badArgument 2 "insert" "position out of bounds")
  | _ => .raise (.userText "wrong number of arguments to 'insert'")

/-- Takes out the value at a position. -/
def removeFrom (t : TableRef) (position : Nat) : Action H NativeOutcome := do
  let removed ← .ask fun w => ((w.table t).removeAt position).1
  .change fun w => w.modifyTable t fun t => (t.removeAt position).2
  one removed

/-- Takes out the last value or the one at a position. -/
def remove (a : Arguments) : Action H NativeOutcome := do
  let t ← .ofScript (a.asTable 0 "remove")
  let n ← .tableLength t
  if (a.get 1).isNil then
    if n = 0 then one .nil else removeFrom t n
  else
    let position ← .ofScript (a.asInteger 1 "remove")
    if n = 0 ∧ (position = 0 ∨ position = 1) then
      one (← .ask fun w => (w.table t).getInt position)
    else if isPlace position n then removeFrom t position.toNat
    else .raise (.badArgument 2 "remove" "position out of bounds")

/-- A table with values at the positions from 1 on. -/
def packed : Int → List Value → Table → Table
  | _, [], t => t
  | i, v :: rest, t => packed (i + 1) rest (t.setInt i v.toStorable)

/-- A new table of the arguments, with their number in the field `n`. -/
def pack (a : Arguments) : Action H NativeOutcome := do
  let t := (packed 1 a.values {}).setName "n" (.number (Float.ofNat a.count))
  one (.table ⟨← .create (.table t)⟩)

end Library

end ScriptEngine
