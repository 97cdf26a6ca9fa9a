/-!
# Doubles as integers times powers of two

Every finite double is `± significand * 2 ^ exponent` with a significand below
`2 ^ 53`.  `Dyadic.ofFloat` reads the three parts off the bits; whatever the
engine asks about the integer part of a number (is it whole, what is its floor,
which integer does it truncate to) is then plain integer arithmetic.
-/

namespace ScriptEngine

/-- The number `± significand * 2 ^ exponent`. -/
structure Dyadic where
  negative : Bool
  significand : Nat
  exponent : Int
deriving DecidableEq, Repr

namespace Dyadic

/-- Exponent of the last place of the subnormal numbers, the smallest there is. -/
def minExponent : Int := -1074

/-- The parts of a finite double; for the others the answer means nothing. -/
def ofFloat (x : Float) : Dyadic :=
  let bits := x.toBits
  let biased := ((bits >>> 52) &&& 0x7ff).toNat
  let fraction := (bits &&& 0xfffffffffffff).toNat
  let negative := bits >>> 63 != 0
  if biased = 0 then ⟨negative, fraction, minExponent⟩
  else ⟨negative, fraction + Nat.pow 2 52, Int.ofNat biased - 1075⟩

/-- Number of binary places after the point, at least as many as are needed. -/
def places (d : Dyadic) : Nat := (-d.exponent).toNat

/-- No binary place after the point is set. -/
def isWhole (d : Dyadic) : Bool :=
  d.significand % Nat.pow 2 d.places = 0

/-- The magnitude with everything after the point dropped. -/
def wholePart (d : Dyadic) : Nat :=
  d.significand * Nat.pow 2 d.exponent.toNat / Nat.pow 2 d.places

/-- The nearest integer on the way to zero. -/
def truncate (d : Dyadic) : Int :=
  if d.negative then -Int.ofNat d.wholePart else Int.ofNat d.wholePart

/-- The magnitude as a fraction, numerator first. -/
def ratio (d : Dyadic) : Nat × Nat :=
  (d.significand * Nat.pow 2 d.exponent.toNat, Nat.pow 2 d.places)

end Dyadic

/-!
Questions about doubles that the engine's rules are phrased in.
-/
namespace Double

/-- Whether `x` is a whole number; infinities and NaN are not. -/
def isWhole (x : Float) : Bool :=
  x.isFinite && (Dyadic.ofFloat x).isWhole

/-- The largest whole number that is not above `x`; zeros keep their sign, and so do
infinities and NaN stay what they are. -/
def floor (x : Float) : Float :=
  if !x.isFinite then x
  else
    let d := Dyadic.ofFloat x
    if d.isWhole then x
    else if d.negative then -Float.ofNat (d.wholePart + 1)
    else Float.ofNat d.wholePart

/-- Drops what is after the point and keeps the sign, also that of zero. -/
def truncate (x : Float) : Float :=
  if !x.isFinite then x
  else
    let d := Dyadic.ofFloat x
    if d.isWhole then x
    else if d.negative then -Float.ofNat d.wholePart
    else Float.ofNat d.wholePart

/-- The sign bit, set for `-0` and for some NaNs as well. -/
def isNegative (x : Float) : Bool :=
  x.toBits >>> 63 != 0

/-- Truncation to an integer between `low` and `high`, the nearer end for what lies outside and
zero for NaN. -/
def clampToInt (low high : Int) (x : Float) : Int :=
  if x.isNaN then 0
  else if !x.isFinite then if isNegative x then low else high
  else max low (min high (Dyadic.ofFloat x).truncate)

end Double

end ScriptEngine
