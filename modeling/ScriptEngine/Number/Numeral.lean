import ScriptEngine.Number.Shortest
import ScriptEngine.Text.Blank

/-!
# Numbers as scripts write and see them

`Numeral.read?` reads a numeric string and `Numeral.render` writes a number.  A numeral
is an optional sign and either `0x` with hexadecimal digits or a decimal numeral;
blanks around it do not count.  Whole numbers below `10 ^ 15` are written with all
their digits, larger ones with an exponent, and every other number with the fewest
digits that read back.
-/

namespace ScriptEngine.Numeral

/-! ## Reading -/

/-- Value of a digit in bases up to 36. -/
def digitValue? (c : Char) : Option Nat :=
  if '0' ≤ c ∧ c ≤ '9' then some (c.toNat - '0'.toNat)
  else if 'a' ≤ c ∧ c ≤ 'z' then some (c.toNat - 'a'.toNat + 10)
  else if 'A' ≤ c ∧ c ≤ 'Z' then some (c.toNat - 'A'.toNat + 10)
  else none

/-- Value of a digit of the given base. -/
def digitIn? (base : Nat) (c : Char) : Option Nat :=
  (digitValue? c).filter (· < base)

/-- Hexadecimal digits, at least one, accumulated in doubles from the left. -/
def readHex? : List Char → Option Float
  | [] => none
  | digits =>
    digits.foldlM (fun acc c => (digitIn? 16 c).map fun d => acc * 16.0 + Float.ofNat d) 0.0

/-- The leading decimal digits and the rest. -/
def spanDigits (text : List Char) : List Char × List Char :=
  (text.takeWhile Char.isDigit, text.dropWhile Char.isDigit)

/-- The number written by decimal digits. -/
def digitsValue (digits : List Char) : Nat :=
  digits.foldl (fun acc c => acc * 10 + (c.toNat - '0'.toNat)) 0

/-- Whether the text begins with a minus, and what follows its sign. -/
def splitSign : List Char → Bool × List Char
  | '-' :: rest => (true, rest)
  | '+' :: rest => (false, rest)
  | text => (false, text)

/-- What follows the digits of a decimal numeral: nothing, or `e`, a sign and digits. -/
def readExponent? : List Char → Option Int
  | [] => some 0
  | mark :: rest =>
    if mark = 'e' ∨ mark = 'E' then
      let (negative, digits) := splitSign rest
      if digits.isEmpty || !digits.all Char.isDigit then none
      else
        let n := Int.ofNat (digitsValue digits)
        some (if negative then -n else n)
    else none

/-- Digits with at most one point and at least one digit, then an optional exponent. -/
def readDecimal? (text : List Char) : Option Decimal :=
  let (whole, rest) := spanDigits text
  let (fraction, rest) :=
    match rest with
    | '.' :: more => spanDigits more
    | more => ([], more)
  if whole.isEmpty && fraction.isEmpty then none
  else
    (readExponent? rest).map fun exponent =>
      ⟨digitsValue (whole ++ fraction), exponent - Int.ofNat fraction.length⟩

/-- Infinity and NaN by their names, in letters of either case. -/
def readName? (text : List Char) : Option Float :=
  let name := text.map Char.toLower
  if name = "inf".toList ∨ name = "infinity".toList then some (1.0 / 0.0)
  else if name = "nan".toList then some (0.0 / 0.0)
  else none

/-- The notation of doubles: an optional sign, then a decimal numeral or a name. -/
def readDouble? (text : List Char) : Option Float :=
  let (negative, body) := splitSign text
  (((readDecimal? body).map Decimal.toFloat).or (readName? body)).map fun x =>
    if negative then -x else x

/-- The characters that decimal numerals are made of. -/
def isDecimalChar (c : Char) : Bool :=
  c.isDigit || c = '.' || c = 'e' || c = 'E' || c = '+' || c = '-'

/-- Of the notation of doubles only what starts with a digit or a point and has nothing but the
characters of decimal numerals. -/
def readPlain? (body : List Char) : Option Float :=
  let firstFits := body.head?.any fun c => c.isDigit || c = '.'
  if !body.all isDecimalChar || !firstFits || !body.any Char.isDigit then none
  else readDouble? body

/-- The magnitude: hexadecimal after `0x` or `0X`, else decimal. -/
def readMagnitude? : List Char → Option Float
  | '0' :: 'x' :: digits => readHex? digits
  | '0' :: 'X' :: digits => readHex? digits
  | text => readPlain? text

/-- The number a character list denotes, if it is a numeral. -/
def readChars? (text : List Char) : Option Float :=
  let (negative, body) := splitSign (Blank.trim text)
  (readMagnitude? body).map fun x => if negative then -x else x

/-- The number a string denotes, if it is a numeral. -/
def read? (text : String) : Option Float :=
  readChars? text.toList

/-! ## Writing -/

/-- Whole numbers of this magnitude and above are written with an exponent. -/
def plainLimit : Nat := Nat.pow 10 15

/-- A minus before the text of a negative number, also before that of `-0`. -/
def withSign (negative : Bool) (text : String) : String :=
  if negative then "-" ++ text else text

/-- The text scripts see for a number. -/
def render (x : Float) : String :=
  if x.isNaN then "nan"
  else
    let negative := Double.isNegative x
    if !x.isFinite then withSign negative "inf"
    else
      let parts := Dyadic.ofFloat x
      withSign negative <|
        if parts.isWhole then
          if parts.wholePart < plainLimit then toString parts.wholePart
          else (Decimal.shortest x.abs).scientific
        else (Decimal.shortest x.abs).positional

/-- Text of a number for debugging: positional throughout, with the names `NaN` and `inf`. -/
def renderPositional (x : Float) : String :=
  if x.isNaN then "NaN"
  else
    let negative := Double.isNegative x
    if !x.isFinite then withSign negative "inf"
    else withSign negative (Decimal.shortest x.abs).positional

end ScriptEngine.Numeral
