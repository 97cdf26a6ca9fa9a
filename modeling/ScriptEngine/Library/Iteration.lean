import ScriptEngine.Library.Protection
import ScriptEngine.Native.Access

/-!
# Going through tables and arguments
-/

namespace ScriptEngine.Library

variable {H : HostTypes} [HostObjects H]

/-- The entry behind a key, or nil at the end. -/
def next (a : Arguments) : Action H NativeOutcome := do
  let t ← .ofScript (a.asTable 0 "next")
  match ← .ask fun w => (w.table t).next (a.get 1) with
  | .entry key value => results [key, value]
  | .finished => one .nil
  | .unknownKey => .raise { kind := .badArgument, message := "invalid key to 'next'" }

/-- What a generic loop needs to go through all entries. -/
def pairs (next : NativeRef) (a : Arguments) : Action H NativeOutcome := do
  let subject := a.get 0
  match ← .ask fun w => w.hook? subject .pairs with
  | some h => pure (.tailCall { function := h, args := [subject] })
  | none =>
    let t ← .ofScript (a.asType 0 "pairs" .table false)
    results [.native next, t, .nil]

/-- What a generic loop needs to go through the positions from 1 on. -/
def ipairs (step : NativeRef) (a : Arguments) : Action H NativeOutcome := do
  let t ← .ofScript (a.asType 0 "ipairs" .table false)
  results [.native step, t, .number 0]

/-- The next position and its value, or nil at the end. -/
def ipairsStep (a : Arguments) : Action H NativeOutcome := do
  let position := (← .ofScript (a.asNumber 1 "ipairs")) + 1
  let value ← .index (a.get 0) (.number position)
  if value.isNil then one .nil else results [.number position, value]

/-- Where the arguments from a position on begin in a row of `count`; a negative position counts
from the end. -/
def selectStart? (position : Int) (count : Nat) : Option Nat :=
  if position = 0 then none
  else if 0 < position then some (min (position.toNat - 1) count)
  else if (-position).toNat ≤ count then some (count - (-position).toNat)
  else none

/-- The number of arguments behind the first for `#`, else those from a position on. -/
def select (a : Arguments) : Action H NativeOutcome := do
  let rest := a.rest 1
  if (a.get 0).asString? = some "#" then one (.number (Float.ofNat rest.length))
  else
    let position ← .ofScript (a.asInteger 0 "select")
    match selectStart? position rest.length with
    | some start => results (rest.drop start)
    | none => .raise (.badArgument 1 "select" "index out of range")

end ScriptEngine.Library
