import ScriptEngine.Number.Numeral

/-!
# TOML: characters, strings, keys and numbers

Readers for the smallest parts of a TOML text.  A reader takes a prefix of the
characters and gives what it stands for together with what follows, or fails.
-/

namespace ScriptEngine.Toml

/-- Takes a prefix of the characters and gives its meaning and the rest. -/
abbrev Reader (α : Type) := List Char → Option (α × List Char)

/-- Characters that stand nowhere in a TOML text but for line ends: the controls but the tab. -/
def isControl (c : Char) : Bool :=
  (c.toNat < 0x20 && c != '\t') || c.toNat = 0x7f

/-- Blanks within a line. -/
def isSpace (c : Char) : Bool := c = ' ' || c = '\t'

def skipSpaces (text : List Char) : List Char := text.dropWhile isSpace

/-- What follows a line end, if one stands here. -/
def afterNewline? : List Char → Option (List Char)
  | '\n' :: rest => some rest
  | '\r' :: '\n' :: rest => some rest
  | _ => none

/-- What follows a comment, or the text itself if none stands here. -/
def skipComment : List Char → List Char
  | '#' :: rest => rest.dropWhile fun c => !isControl c
  | text => text

/-- Blanks, a comment and a line end or the end of the text. -/
def readLineEnd (text : List Char) : Option (List Char) :=
  match skipComment (skipSpaces text) with
  | [] => some []
  | rest => afterNewline? rest

/-- What follows blanks, comments and line ends; at most `fuel` of them are passed. -/
def skipLines : Nat → List Char → List Char
  | 0, text => text
  | fuel + 1, text =>
    let rest := skipComment (skipSpaces text)
    match afterNewline? rest with
    | some next => skipLines fuel next
    | none => if (skipSpaces text).head? = some '#' then text else skipSpaces text

/-- The rest of a text that begins with the given characters. -/
def dropStart? : List Char → List Char → Option (List Char)
  | [], text => some text
  | c :: cs, d :: text => if c = d then dropStart? cs text else none
  | _ :: _, [] => none

/-! ## Strings -/

/-- The character with the code point, unless it is a surrogate or too large. -/
def charOfCode? (n : Nat) : Option Char :=
  if n < 0xd800 || (0xdfff < n && n < 0x110000) then some (Char.ofNat n) else none

/-- The character that hexadecimal digits name. -/
def charOfHex? (digits : List Char) : Option Char :=
  match digits.mapM (Numeral.digitIn? 16) with
  | some ds => charOfCode? (ds.foldl (fun acc d => acc * 16 + d) 0)
  | none => none

/-- The character that a backslash and a letter stand for. -/
def escaped? : Char → Option Char
  | 'b' => some '\x08'
  | 't' => some '\t'
  | 'n' => some '\n'
  | 'f' => some '\x0c'
  | 'r' => some '\r'
  | '"' => some '"'
  | '\\' => some '\\'
  | _ => none

/-- The character that stands after a backslash. -/
def readEscape : Reader Char
  | 'u' :: rest =>
    if rest.length < 4 then none else (charOfHex? (rest.take 4)).map fun c => (c, rest.drop 4)
  | 'U' :: rest =>
    if rest.length < 8 then none else (charOfHex? (rest.take 8)).map fun c => (c, rest.drop 8)
  | c :: rest => (escaped? c).map fun d => (d, rest)
  | [] => none

/-- The rest of a string between double quotes, within one line. -/
def readBasic : Nat → List Char → Reader String
  | 0, _ => fun _ => none
  | fuel + 1, acc => fun
    | '"' :: rest => some (String.ofList acc.reverse, rest)
    | '\\' :: rest =>
      match readEscape rest with
      | some (c, rest) => readBasic fuel (c :: acc) rest
      | none => none
    | c :: rest => if isControl c then none else readBasic fuel (c :: acc) rest
    | [] => none

/-- The rest of a string between single quotes, within one line and without escapes. -/
def readLiteral (text : List Char) : Option (String × List Char) :=
  let body := text.takeWhile fun c => c != '\'' && !isControl c
  match text.drop body.length with
  | '\'' :: rest => some (String.ofList body, rest)
  | _ => none

/-- Three quotes end a string; up to two more in front of them belong to it. -/
def readClosing (quote : Char) (acc rest : List Char) : String × List Char :=
  match rest with
  | c :: d :: more =>
    if c = quote then
      if d = quote then (String.ofList (quote :: quote :: acc).reverse, more)
      else (String.ofList (quote :: acc).reverse, d :: more)
    else (String.ofList acc.reverse, rest)
  | [c] =>
    if c = quote then (String.ofList (quote :: acc).reverse, [])
    else (String.ofList acc.reverse, rest)
  | [] => (String.ofList acc.reverse, [])

/-- The rest of a string over several lines; `escapes` tells the kind with a backslash apart. -/
def readLong (quote : Char) (escapes : Bool) : Nat → List Char → Reader String
  | 0, _ => fun _ => none
  | fuel + 1, acc => fun text =>
    match dropStart? [quote, quote, quote] text with
    | some rest => some (readClosing quote acc rest)
    | none =>
      match afterNewline? text with
      | some rest => readLong quote escapes fuel ('\n' :: acc) rest
      | none =>
        match text with
        | [] => none
        | c :: rest =>
          if escapes && c = '\\' then
            match afterNewline? (skipSpaces rest) with
            | some next =>
              readLong quote escapes fuel acc
                (next.dropWhile fun d => isSpace d || d = '\n' || d = '\r')
            | none =>
              match readEscape rest with
              | some (d, rest) => readLong quote escapes fuel (d :: acc) rest
              | none => none
          else if isControl c then none
          else readLong quote escapes fuel (c :: acc) rest

/-- A line end right after the opening quotes does not count. -/
def dropFirstNewline (text : List Char) : List Char :=
  (afterNewline? text).getD text

/-- A string of any of the four kinds. -/
def readString (text : List Char) : Option (String × List Char) :=
  let fuel := text.length + 1
  match text with
  | '"' :: '"' :: '"' :: rest => readLong '"' true fuel [] (dropFirstNewline rest)
  | '"' :: rest => readBasic fuel [] rest
  | '\'' :: '\'' :: '\'' :: rest => readLong '\'' false fuel [] (dropFirstNewline rest)
  | '\'' :: rest => readLiteral rest
  | _ => none

/-! ## Keys -/

def isBareKeyChar (c : Char) : Bool :=
  c.isAlphanum || c = '_' || c = '-'

/-- One part of a key. -/
def readKeyPart (text : List Char) : Option (String × List Char) :=
  match text with
  | '"' :: rest => readBasic (text.length + 1) [] rest
  | '\'' :: rest => readLiteral rest
  | _ =>
    let name := text.takeWhile isBareKeyChar
    if name.isEmpty then none else some (String.ofList name, text.drop name.length)

/-- The parts of a dotted key, with blanks around the dots. -/
def readKey : Nat → Reader (List String)
  | 0 => fun _ => none
  | fuel + 1 => fun text =>
    match readKeyPart (skipSpaces text) with
    | none => none
    | some (part, rest) =>
      match skipSpaces rest with
      | '.' :: more => (readKey fuel more).map fun (parts, rest) => (part :: parts, rest)
      | rest => some ([part], rest)

/-! ## Numbers and times -/

/-- Whether every underscore stands between two digits; the flag tells whether a digit came right
before. -/
def underscoresPlaced : Bool → List Char → Bool
  | afterDigit, [] => afterDigit
  | afterDigit, c :: rest =>
    if c = '_' then afterDigit && underscoresPlaced false rest else underscoresPlaced true rest

/-- Digits of a base with single underscores between them, at least one. -/
def readDigits (base : Nat) (text : List Char) : Option (List Char × List Char) :=
  let body := text.takeWhile fun c => (Numeral.digitIn? base c).isSome || c = '_'
  if underscoresPlaced false body then
    some (body.filter (· != '_'), text.drop body.length)
  else none

/-- The number that digits of a base write. -/
def digitsNumber (base : Nat) (digits : List Char) : Nat :=
  digits.foldl (fun acc c => acc * base + (Numeral.digitValue? c).getD 0) 0

/-- Decimal digits without a leading zero. -/
def readPlainDigits (text : List Char) : Option (List Char × List Char) :=
  match text with
  | '0' :: rest =>
    if rest.head?.any (fun c => c.isDigit || c = '_') then none else some (['0'], rest)
  | _ => readDigits 10 text

/-- Whether an integer fits into 64 bits with a sign. -/
def fitsInt64 (n : Int) : Bool := -Int.pow 2 63 ≤ n && n < Int.pow 2 63

/-- An integer in base 16, 8 or 2 after its mark, or a decimal one with an optional sign. -/
def readInteger (text : List Char) : Option (Int × List Char) :=
  let based (base : Nat) (rest : List Char) : Option (Int × List Char) :=
    (readDigits base rest).map fun (digits, rest) => (Int.ofNat (digitsNumber base digits), rest)
  let result :=
    match text with
    | '0' :: 'x' :: rest => based 16 rest
    | '0' :: 'o' :: rest => based 8 rest
    | '0' :: 'b' :: rest => based 2 rest
    | _ =>
      let (negative, rest) := Numeral.splitSign text
      (readPlainDigits rest).map fun (digits, rest) =>
        let n := Int.ofNat (digitsNumber 10 digits)
        (if negative then -n else n, rest)
  result.filter fun (n, _) => fitsInt64 n

/-- An optional exponent. -/
def readFloatExponent (text : List Char) : Option (Option Int × List Char) :=
  match text with
  | c :: rest =>
    if c = 'e' || c = 'E' then
      let (negative, rest) := Numeral.splitSign rest
      (readDigits 10 rest).map fun (digits, rest) =>
        let n := Int.ofNat (digitsNumber 10 digits)
        (some (if negative then -n else n), rest)
    else some (none, text)
  | [] => some (none, [])

/-- A float: it has a fraction or an exponent, or is `inf` or `nan`; it must not overflow. -/
def readFloat (text : List Char) : Option (Float × List Char) :=
  let (negative, body) := Numeral.splitSign text
  let signed (x : Float) : Float := if negative then -x else x
  match dropStart? ['i', 'n', 'f'] body with
  | some rest => some (signed (1.0 / 0.0), rest)
  | none =>
    match dropStart? ['n', 'a', 'n'] body with
    | some rest => some (signed (0.0 / 0.0), rest)
    | none =>
      match readPlainDigits body with
      | none => none
      | some (whole, rest) =>
        let fraction? : Option (Option (List Char) × List Char) :=
          match rest with
          | '.' :: more => (readDigits 10 more).map fun (digits, rest) => (some digits, rest)
          | _ => some (none, rest)
        match fraction? with
        | none => none
        | some (fraction, rest) =>
          match readFloatExponent rest with
          | none => none
          | some (exponent, rest) =>
            if fraction.isNone && exponent.isNone then none
            else
              let places := fraction.getD []
              let x := Double.ofDecimal (digitsNumber 10 (whole ++ places))
                (exponent.getD 0 - Int.ofNat places.length)
              if x.isFinite then some (signed x, rest) else none

/-- A number of exactly `width` decimal digits within bounds. -/
def readField (width low high : Nat) (text : List Char) : Option (Nat × List Char) :=
  let digits := text.take width
  let n := digitsNumber 10 digits
  if digits.length = width && digits.all Char.isDigit && low ≤ n && n ≤ high then
    some (n, text.drop width)
  else none

/-- Number of days of a month. -/
def daysIn (year month : Nat) : Nat :=
  if month = 2 then
    if year % 4 = 0 && (year % 100 != 0 || year % 400 = 0) then 29 else 28
  else if [4, 6, 9, 11].contains month then 30
  else 31

/-- What follows a date `yyyy-mm-dd`. -/
def afterDate? (text : List Char) : Option (List Char) := do
  let (year, rest) ← readField 4 0 9999 text
  let rest ← dropStart? ['-'] rest
  let (month, rest) ← readField 2 1 12 rest
  let rest ← dropStart? ['-'] rest
  let (_, rest) ← readField 2 1 (daysIn year month) rest
  pure rest

/-- What follows a time `hh:mm:ss` with an optional fraction. -/
def afterTime? (text : List Char) : Option (List Char) := do
  let (_, rest) ← readField 2 0 23 text
  let rest ← dropStart? [':'] rest
  let (_, rest) ← readField 2 0 59 rest
  let rest ← dropStart? [':'] rest
  let (_, rest) ← readField 2 0 60 rest
  match rest with
  | '.' :: c :: more => if c.isDigit then pure (more.dropWhile Char.isDigit) else none
  | _ => pure rest

/-- What follows an offset from universal time. -/
def afterOffset? (text : List Char) : Option (List Char) :=
  match text with
  | 'Z' :: rest => some rest
  | 'z' :: rest => some rest
  | c :: rest =>
    if c = '+' || c = '-' then do
      let (_, rest) ← readField 2 0 23 rest
      let rest ← dropStart? [':'] rest
      let (_, rest) ← readField 2 0 59 rest
      pure rest
    else none
  | [] => none

/-- What follows a date, a time, or both with an optional offset. -/
def afterMoment? (text : List Char) : Option (List Char) :=
  match afterDate? text with
  | none => afterTime? text
  | some rest =>
    match rest with
    | c :: more =>
      if c = 'T' || c = 't' || c = ' ' then
        match afterTime? more with
        | some rest => some ((afterOffset? rest).getD rest)
        | none => some rest
      else some rest
    | [] => some []

end ScriptEngine.Toml
