/-!
# White space

The characters with the Unicode property `White_Space`, which numerals and
configuration values may be surrounded by.
-/

namespace ScriptEngine.Blank

/-- First and last code point of each run of characters with the property `White_Space`. -/
def ranges : List (Nat × Nat) :=
  [(0x9, 0xd), (0x20, 0x20), (0x85, 0x85), (0xa0, 0xa0), (0x1680, 0x1680), (0x2000, 0x200a),
    (0x2028, 0x2029), (0x202f, 0x202f), (0x205f, 0x205f), (0x3000, 0x3000)]

/-- Whether the character has the property `White_Space`. -/
def isBlank (c : Char) : Bool :=
  ranges.any fun (first, last) => first ≤ c.toNat && c.toNat ≤ last

/-- The text without the blanks at its two ends. -/
def trim (text : List Char) : List Char :=
  ((text.dropWhile isBlank).reverse.dropWhile isBlank).reverse

/-- The string without the blanks at its two ends. -/
def trimString (text : String) : String :=
  String.ofList (trim text.toList)

example : (ranges.map fun (first, last) => last - first + 1).sum = 25 := by decide

end ScriptEngine.Blank
