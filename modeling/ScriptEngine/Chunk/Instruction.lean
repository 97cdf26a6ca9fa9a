import ScriptEngine.Scope.Symbol
import ScriptEngine.Value.Basic

/-!
# Instructions

A chunk is one flat array of instructions with absolute jump targets; all functions
of a source text share it, and a function begins at a `beginFunction`.  Operands stand
in the instruction itself.  In the comments `[.., a, b]` is the operand stack with its
top last, and an offset counts down from the top, which has offset 0.
-/

namespace ScriptEngine

inductive Op where
  /-- No effect. -/
  | nop
  /-- Drops `num` values. -/
  | pop
  /-- Pushes a copy of the value at offset `num`. -/
  | copy
  /-- Exchanges the values at offsets `num` and `num2`. -/
  | swap
  /-- Pushes the value operand. -/
  | literal
  /-- Replaces `num` values by one tuple of them. -/
  | makeTuple
  /-- Reduces the top to a scalar. -/
  | toScalar
  /-- Pushes the value of the symbol operand. -/
  | load
  /-- Assigns item `num2` of the value at offset `num` to the symbol; nothing is popped. -/
  | store
  /-- Gives the locals from `num` on, `num2` of them, fresh variables that hold nil. -/
  | clean
  /-- Pushes a function that begins at `num` and captures the symbols operand. -/
  | closure
  /-- Allocates `num` locals for the function that begins here. -/
  | beginFunction
  /-- Binds the arguments of the call to the parameters in the symbols operand. -/
  | bindArgs
  /-- `[.., f, a1, .., an]` with `n = num`: calls `f`. -/
  | call
  /-- The same with the receiver as first argument. -/
  | methodCall
  /-- Returns nothing (`num = 0`) or the popped top (`num = 1`). -/
  | ret
  /-- Pushes a new table. -/
  | newTable
  /-- `[.., t, k, v]` becomes `[.., t]` with `t[k] = v`, without metamethods. -/
  | initField
  /-- `[.., t, v]` becomes `[.., t]` with `t[num] = v`, without metamethods; when `num2` is 1, a
  tuple fills `num`, `num + 1` and so on. -/
  | initItem
  /-- `[.., o, k]` becomes `[.., o[k]]`. -/
  | getIndex
  /-- `[.., o]` becomes `[.., o[value]]`. -/
  | getField
  /-- `[.., o, keys]` becomes `[.., o[keys]]`, for user data only. -/
  | getMulti
  /-- `[.., o, k]` becomes `[..]` with `o[k]` set to item `num2` of the value at offset `num`. -/
  | setIndex
  /-- `[.., o]` becomes `[..]` with `o[value]` set in the same way. -/
  | setField
  /-- `[.., o, keys]` becomes `[..]` with `o[keys]` set in the same way, for user data only. -/
  | setMulti
  /-- Goes on at `num`. -/
  | jump
  /-- Pops and jumps when false. -/
  | jumpIfFalse
  /-- Pops and jumps when nil. -/
  | jumpIfNil
  /-- Jumps and keeps the top when true, else pops. -/
  | jumpIfTrueOrPop
  /-- Jumps and keeps the top when false, else pops. -/
  | jumpIfFalseOrPop
  /-- `[.., var, limit, step]`: jumps when the loop is done. -/
  | forCheck
  /-- `[.., var, limit, step]`: adds `step` to `var`. -/
  | forStep
  /-- Turns the top into a number; `num` says which operand of a loop it is. -/
  | toNumber
  /-- Turns the top into its truth value. -/
  | toBoolean
  /-- Spreads the top into `[.., f, s, var]`. -/
  | iterPrepare
  /-- `[.., f, s, var, results]` becomes `[.., f, s, v]` with the first result. -/
  | iterUpdate
  | concat
  | add
  | sub
  | mul
  | div
  | mod
  | pow
  | neg
  | not
  | length
  | equal
  | less
  | lessEqual
  /-- Never part of a sound chunk. -/
  | invalid
deriving DecidableEq, Inhabited, Repr

namespace Op

/-- Whether `num` is the index of an instruction to go on at. -/
def isJump : Op → Bool
  | .jump | .jumpIfFalse | .jumpIfNil | .jumpIfTrueOrPop | .jumpIfFalseOrPop | .forCheck => true
  | _ => false

/-- Whether the operation takes two values and leaves one. -/
def isBinary : Op → Bool
  | .concat | .add | .sub | .mul | .div | .mod | .pow | .equal | .less | .lessEqual => true
  | _ => false

/-- The name in listings. -/
def mnemonic : Op → String
  | .nop => "NOP"
  | .pop => "POP"
  | .copy => "COPY"
  | .swap => "SWAP"
  | .literal => "LITERAL"
  | .makeTuple => "MKTUPLE"
  | .toScalar => "SCALAR"
  | .load => "LOAD"
  | .store => "STORE"
  | .clean => "CLEAN"
  | .closure => "CLOSURE"
  | .beginFunction => "BEGINFN"
  | .bindArgs => "ARGS"
  | .call => "CALL"
  | .methodCall => "THISCALL"
  | .ret => "RET"
  | .newTable => "NEWTABLE"
  | .initField => "TBLINITN"
  | .initItem => "TBLINITI"
  | .getIndex => "INDEX"
  | .getField => "INDEXN"
  | .getMulti => "INDEXL"
  | .setIndex => "INDEXSET"
  | .setField => "INDEXSETN"
  | .setMulti => "INDEXSETL"
  | .jump => "JUMP"
  | .jumpIfFalse => "JF"
  | .jumpIfNil => "JNIL"
  | .jumpIfTrueOrPop => "JTORPOP"
  | .jumpIfFalseOrPop => "JFORPOP"
  | .forCheck => "JFOR"
  | .forStep => "INCR"
  | .toNumber => "TONUM"
  | .toBoolean => "TOBOOL"
  | .iterPrepare => "ITERPREP"
  | .iterUpdate => "ITERUPD"
  | .concat => "CONCAT"
  | .add => "ADD"
  | .sub => "SUB"
  | .mul => "MUL"
  | .div => "DIV"
  | .mod => "MOD"
  | .pow => "POW"
  | .neg => "NEG"
  | .not => "NOT"
  | .length => "LEN"
  | .equal => "EQ"
  | .less => "LESS"
  | .lessEqual => "LESSEQ"
  | .invalid => "INVALID"

end Op

/-- A place in a source text. -/
structure SourceSpan where
  line : Nat
  column : Nat
deriving DecidableEq, Inhabited, Repr

/-- A place in a source text together with the name of its chunk. -/
structure SourceLocation where
  chunk : String
  line : Nat
  column : Nat
deriving DecidableEq, Inhabited, Repr

/-- Chunk and line. -/
def SourceLocation.display (l : SourceLocation) : String :=
  l.chunk ++ ":" ++ toString l.line

/-- An operation with its operands; which of them it needs depends on the operation. -/
structure Instruction where
  op : Op
  num : Nat := 0
  num2 : Nat := 0
  value? : Option Value := none
  symbol? : Option Symbol := none
  symbols? : Option (List Symbol) := none
  name? : Option String := none
  source? : Option SourceSpan := none
deriving DecidableEq, Inhabited

/-- The symbols operand, empty when it is missing. -/
def Instruction.symbols (i : Instruction) : List Symbol :=
  i.symbols?.getD []

/-- The instructions of a source text. -/
structure Chunk where
  name : String
  code : Array Instruction
deriving DecidableEq, Inhabited

namespace Chunk

def size (c : Chunk) : Nat := c.code.size

/-- Where in the source an instruction comes from, if that was recorded. -/
def location? (c : Chunk) (index : Nat) : Option SourceLocation :=
  match c.code[index]? with
  | none => none
  | some i => i.source?.map fun s => ⟨c.name, s.line, s.column⟩

end Chunk

end ScriptEngine
