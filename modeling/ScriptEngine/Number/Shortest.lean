import ScriptEngine.Number.Rounding

/-!
# Fewest digits that read back

`Decimal.shortest x` is the decimal with the fewest digits that reads back as the
finite magnitude `x`.  Each number of digits lays a grid over the line; the two grid
points around `x` are tried, the nearer one first, and an exact tie goes to the upper
one.  Seventeen digits always suffice; should they not, the exact expansion of `x`
is taken, so the result reads back by construction.
-/

namespace ScriptEngine

/-- The number `digits * 10 ^ exponent`. -/
structure Decimal where
  digits : Nat
  exponent : Int
deriving DecidableEq, Repr

namespace Decimal

/-- The double nearest to the decimal. -/
def toFloat (d : Decimal) : Float :=
  Double.ofDecimal d.digits d.exponent

/-- Moves trailing zeros into the exponent; `fuel` bounds their number. -/
def stripZeros : Nat → Decimal → Decimal
  | 0, d => d
  | fuel + 1, d =>
    if d.digits % 10 = 0 && d.digits != 0 then
      stripZeros fuel ⟨d.digits / 10, d.exponent + 1⟩
    else d

/-- The same number without trailing zeros. -/
def normalize (d : Decimal) : Decimal :=
  stripZeros (Double.decimalLength d.digits) d

/-- The integer `k` with `10 ^ k ≤ n / d < 10 ^ (k + 1)`, for positive `n` and `d`. -/
def ratioLog10 (n d : Nat) : Int :=
  if d ≤ n then Int.ofNat (Double.decimalLength (n / d)) - 1
  else
    let j := Double.decimalLength (d / n) - 1
    if d ≤ n * Nat.pow 10 j then -Int.ofNat j else -Int.ofNat j - 1

/-- The grid points below and above `n / d` with `count` digits, each with whether it is the
nearer one; the upper one wins a tie. -/
def neighbours (n d count : Nat) : List Decimal :=
  let exponent := ratioLog10 n d - Int.ofNat count + 1
  let num := n * Nat.pow 10 (-exponent).toNat
  let den := d * Nat.pow 10 exponent.toNat
  let low := num / den
  let below : Decimal := ⟨low, exponent⟩
  if num % den = 0 then [below]
  else
    let above : Decimal := ⟨low + 1, exponent⟩
    if 2 * (num % den) < den then [below, above] else [above, below]

/-- The first candidate of at most `fuel` further grids that reads back as `x`. -/
def search (x : Float) (n d : Nat) : Nat → Nat → Option Decimal
  | 0, _ => none
  | fuel + 1, count =>
    match (neighbours n d count).find? fun c => c.toFloat.toBits = x.toBits with
    | some c => some c
    | none => search x n d fuel (count + 1)

/-- Every digit of `n / 2 ^ k`, as `n * 5 ^ k / 10 ^ k`. -/
def exactly (x : Dyadic) : Decimal :=
  ⟨x.significand * Nat.pow 2 x.exponent.toNat * Nat.pow 5 x.places, -Int.ofNat x.places⟩

/-- The fewest digits that read back as the finite magnitude `x`. -/
def shortest (x : Float) : Decimal :=
  let parts := Dyadic.ofFloat x
  if parts.significand = 0 then ⟨0, 0⟩
  else
    let (n, d) := parts.ratio
    ((search x n d 17 1).getD (exactly parts)).normalize

/-! ## Layouts -/

/-- The digits as text, no digit for zero. -/
def digitText (d : Decimal) : List Char :=
  if d.digits = 0 then [] else Nat.toDigits 10 d.digits

/-- Positional notation: no exponent, no point for a whole number, a zero before a bare point. -/
def positional (d : Decimal) : String :=
  let text := d.digitText
  if d.digits = 0 then "0"
  else if 0 ≤ d.exponent then String.ofList (text ++ List.replicate d.exponent.toNat '0')
  else
    let places := (-d.exponent).toNat
    if places < text.length then
      let whole := text.length - places
      String.ofList (text.take whole ++ '.' :: text.drop whole)
    else
      String.ofList ('0' :: '.' :: (List.replicate (places - text.length) '0' ++ text))

/-- Exponent notation: one digit, the others after a point, then `e` and the exponent with its
sign, as in `1.25e+16`. -/
def scientific (d : Decimal) : String :=
  match d.digitText with
  | [] => "0e+0"
  | first :: rest =>
    let exponent := d.exponent + Int.ofNat rest.length
    let mantissa := if rest.isEmpty then [first] else first :: '.' :: rest
    let mark := if exponent < 0 then "e-" else "e+"
    String.ofList mantissa ++ mark ++ toString exponent.natAbs

end Decimal

end ScriptEngine
