import ScriptEngine.Chunk.Instruction

/-!
# Listings

The readable form of a chunk: one line for each instruction with its index, its name,
its operands and the source line.
-/

namespace ScriptEngine

/-- Zeros in front up to the width. -/
def padZeros (width n : Nat) : String :=
  let digits := Nat.toDigits 10 n
  String.ofList (List.replicate (width - digits.length) '0' ++ digits)

/-- Blanks behind up to the width. -/
def padRight (width : Nat) (text : String) : String :=
  text ++ String.ofList (List.replicate (width - text.length) ' ')

namespace Instruction

/-- A value as an operand: strings are quoted. -/
def literalText (v : Value) : String :=
  match v with
  | .string s => Quoted.quote s
  | w => w.display

def valueText (i : Instruction) : String :=
  (i.value?.map literalText).getD ""

def symbolText (i : Instruction) : String :=
  (i.symbol?.map Symbol.display).getD ""

def symbolsText (i : Instruction) : String :=
  ", ".intercalate (i.symbols.map Symbol.display)

/-- The operands an operation uses. -/
def operandText (i : Instruction) : String :=
  let one := toString i.num
  let two := one ++ " " ++ toString i.num2
  match i.op with
  | .pop | .copy | .makeTuple | .beginFunction | .ret | .toNumber | .jump | .jumpIfFalse
  | .jumpIfNil | .jumpIfTrueOrPop | .jumpIfFalseOrPop | .forCheck => one
  | .call | .methodCall =>
    match i.name? with
    | some name => one ++ " " ++ name
    | none => one
  | .swap | .clean | .initItem | .setIndex | .setMulti => two
  | .literal | .getField => i.valueText
  | .setField => i.valueText ++ " " ++ two
  | .load => i.symbolText
  | .store => i.symbolText ++ " " ++ two
  | .bindArgs => i.symbolsText
  | .closure => i.name?.getD "?" ++ " @" ++ one ++ " [" ++ i.symbolsText ++ "]"
  | _ => ""

/-- The line of a listing for the instruction at the index. -/
def listingLine (offset : Nat) (i : Instruction) : String :=
  let operands := i.operandText
  let body :=
    if operands.isEmpty then i.op.mnemonic else padRight 10 i.op.mnemonic ++ " " ++ operands
  let note :=
    match i.source? with
    | some span => "  ; line " ++ toString span.line
    | none => ""
  padZeros 4 offset ++ "  " ++ body ++ note

end Instruction

/-- The listing of a chunk, each line ended by a line feed. -/
def Chunk.listing (c : Chunk) : String :=
  let title := "=== " ++ c.name ++ " ==="
  let lines := c.code.toList.zipIdx.map fun (i, offset) => i.listingLine offset
  String.join ((title :: lines).map fun line => line ++ "\n")

end ScriptEngine
