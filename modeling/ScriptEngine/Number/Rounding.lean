import ScriptEngine.Number.Dyadic

/-!
# The double nearest to a fraction

`Double.ofRatio n d` is the double nearest to `n / d`, the one with an even
significand when two are equally near.  Decimal numerals are read through it, so
reading is exact for every number of digits and every exponent.
-/

namespace ScriptEngine

/-- The quotient rounded to the nearest integer, a half to the even neighbour. -/
def divNearestEven (n d : Nat) : Nat :=
  let q := n / d
  let r := n % d
  if 2 * r < d then q
  else if d < 2 * r then q + 1
  else if q % 2 = 0 then q else q + 1

theorem divNearestEven_of_dvd {n d : Nat} (hd : 0 < d) (h : d ∣ n) :
    divNearestEven n d = n / d := by
  have hr : n % d = 0 := Nat.mod_eq_zero_of_dvd h
  simp [divNearestEven, hr, hd]

namespace Double

/-- Bits of positive infinity; every finite magnitude has smaller bits. -/
def infinityBits : Nat := 0x7ff * Nat.pow 2 52

/-- `2 ^ k ≤ n / d` for an exponent of either sign. -/
def powLeRatio (k : Int) (n d : Nat) : Bool :=
  Nat.pow 2 k.toNat * d ≤ n * Nat.pow 2 (-k).toNat

/-- The integer `k` with `2 ^ k ≤ n / d < 2 ^ (k + 1)`, for positive `n` and `d`. -/
def ratioLog2 (n d : Nat) : Int :=
  let k := Int.ofNat n.log2 - Int.ofNat d.log2
  if powLeRatio k n d then k else k - 1

/-- Exponent of the last place a double near `n / d` has. -/
def lastPlace (n d : Nat) : Int :=
  max Dyadic.minExponent (ratioLog2 n d - 52)

/-- Bits of the double nearest to `n / d`.  Significand and exponent are added, not joined: a
significand that rounds up to the next power of two carries into the exponent. -/
def ratioBits (n d : Nat) : Nat :=
  if n = 0 then 0
  else
    let e := lastPlace n d
    let q := divNearestEven (n * Nat.pow 2 (-e).toNat) (d * Nat.pow 2 e.toNat)
    min infinityBits ((e - Dyadic.minExponent).toNat * Nat.pow 2 52 + q)

/-- The double nearest to `n / d`, infinity when it is out of range. -/
def ofRatio (n d : Nat) : Float :=
  Float.ofBits (UInt64.ofNat (ratioBits n d))

/-- Decimal exponents beyond which a numeral is zero or infinite whatever its digits are, counted
at the numeral's first digit. -/
def decimalRange : Int := 400

/-- Number of decimal digits, none for zero. -/
def decimalLength (n : Nat) : Nat :=
  if n = 0 then 0 else (Nat.toDigits 10 n).length

/-- The double nearest to `digits * 10 ^ exponent`. -/
def ofDecimal (digits : Nat) (exponent : Int) : Float :=
  let first := Int.ofNat (decimalLength digits) + exponent
  if digits = 0 || first < -decimalRange then ofRatio 0 1
  else if decimalRange < first then ofRatio (Nat.pow 2 1024) 1
  else ofRatio (digits * Nat.pow 10 exponent.toNat) (Nat.pow 10 (-exponent).toNat)

end Double

end ScriptEngine
