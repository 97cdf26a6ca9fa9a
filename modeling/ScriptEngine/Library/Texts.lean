import ScriptEngine.Library.Protection
import ScriptEngine.Native.Access

/-!
# Values as texts and texts as numbers
-/

namespace ScriptEngine

namespace Numeral

/-- The number that digits of a base denote. -/
def digitsIn? (base : Nat) : Nat → List Char → Option Nat
  | n, [] => some n
  | n, c :: rest =>
    match digitIn? base c with
    | some d => digitsIn? base (n * base + d) rest
    | none => none

/-- An integer of 64 bits in a base: a sign or none, and one or more digits. -/
def readInteger? (base : Nat) (text : List Char) : Option Int :=
  let (negative, digits) := splitSign text
  if digits.isEmpty then none
  else
    match digitsIn? base 0 digits with
    | none => none
    | some n =>
      let i := if negative then -Int.ofNat n else Int.ofNat n
      if -Int.pow 2 63 ≤ i ∧ i < Int.pow 2 63 then some i else none

/-- The number a text denotes in a base.  A minus sign may stand in front of an integer that has no
plus sign. -/
def readInBase? (base : Nat) (text : String) : Option Float :=
  let text := Blank.trim text.toList
  let (negative, digits) :=
    match text with
    | '-' :: rest => (true, rest)
    | _ => (false, text)
  if digits.head? = some '+' then none
  else
    (readInteger? base digits).map fun i =>
      let n := Float.ofInt i
      if negative then -n else n

end Numeral

namespace Library

variable {H : HostTypes} [HostObjects H]

/-- The texts of several values behind the given ones, the last one first. -/
def displayAll (texts : List String) : List Value → Action H (List String)
  | [] => pure texts
  | v :: rest => do
    let text ← .displayText v
    displayAll (text :: texts) rest

/-- Prints the texts of the arguments in one line. -/
def print (a : Arguments) : Action H NativeOutcome := do
  let texts ← displayAll [] a.values
  .change fun w => w.print ("\t".intercalate texts.reverse)
  one .void

def toString (a : Arguments) : Action H NativeOutcome := do
  if (a.get 0).isVoid then .raise (.badArgument 1 "tostring" "value expected")
  else one (.string (← .displayText (a.get 0)))

/-- A number, or nil where there is none. -/
def oneNumber (n? : Option Float) : Action H NativeOutcome :=
  one ((n?.map Value.number).getD .nil)

def toNumber (a : Arguments) : Action H NativeOutcome := do
  if (a.get 1).isNil then
    match (a.get 0).toScalar with
    | .number n => oneNumber (some n)
    | .string s => oneNumber (Numeral.read? s)
    | .void => .raise (.badArgument 1 "tonumber" "value expected")
    | _ => oneNumber none
  else
    let base ← .ofScript (a.asInteger 1 "tonumber")
    if base < 2 ∨ 36 < base then .raise (.badArgument 2 "tonumber" "base out of range")
    else
      let text ← .ofScript (a.asString 0 "tonumber")
      oneNumber (Numeral.readInBase? base.toNat text)

end Library

end ScriptEngine
