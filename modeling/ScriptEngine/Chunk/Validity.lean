import ScriptEngine.Chunk.Instruction

/-!
# Sound chunks

What is checked before a chunk may run: every operation has the operands it needs,
jumps stay inside, functions begin at a `beginFunction`.  All faults are collected,
at most one for each instruction besides that of a missing entry.
-/

namespace ScriptEngine

inductive ChunkFault where
  | empty
  | missingEntry
  | missingOperand (op : Op) (operand : String)
  | jumpOutOfBounds (target size : Nat)
  | badEntryPoint (target : Nat)
  | badReturnCount (count : Nat)
  | globalCapture
  | invalidOp
deriving DecidableEq, Repr

def ChunkFault.message : ChunkFault → String
  | .empty => "chunk is empty"
  | .missingEntry => "chunk does not start with BEGINFN"
  | .missingOperand op operand => op.mnemonic ++ " is missing its " ++ operand ++ " operand"
  | .jumpOutOfBounds target size =>
    "jump target " ++ toString target ++ " is out of bounds (len=" ++ toString size ++ ")"
  | .badEntryPoint target => "closure entry point " ++ toString target ++ " is not a BEGINFN"
  | .badReturnCount count =>
    "RET with " ++ toString count ++ " values (expected 0 or 1)"
  | .globalCapture => "closure captures a global symbol"
  | .invalidOp => "invalid opcode"

/-- A fault and the index of the instruction that has it. -/
structure LocatedFault where
  offset : Nat
  fault : ChunkFault
deriving DecidableEq, Repr

def LocatedFault.message (f : LocatedFault) : String :=
  "instruction " ++ toString f.offset ++ ": " ++ f.fault.message

namespace Chunk

/-- Whether a function may begin at the index. -/
def isEntry (c : Chunk) (target : Nat) : Bool :=
  match c.code[target]? with
  | some i => i.op = .beginFunction
  | none => false

/-- The first fault of an instruction. -/
def faultOf? (c : Chunk) (i : Instruction) : Option ChunkFault :=
  match i.op with
  | .literal | .getField | .setField =>
    if i.value?.isNone then some (.missingOperand i.op "value") else none
  | .load | .store =>
    if i.symbol?.isNone then some (.missingOperand i.op "symbol") else none
  | .bindArgs =>
    if i.symbols?.isNone then some (.missingOperand i.op "symbols") else none
  | .closure =>
    match i.symbols? with
    | none => some (.missingOperand i.op "symbols")
    | some captures =>
      if captures.any Symbol.isGlobal then some .globalCapture
      else if c.isEntry i.num then none
      else some (.badEntryPoint i.num)
  | .ret => if 1 < i.num then some (.badReturnCount i.num) else none
  | .invalid => some .invalidOp
  | op =>
    if op.isJump && c.size ≤ i.num then some (.jumpOutOfBounds i.num c.size) else none

/-- All faults of a chunk in the order of its instructions. -/
def faults (c : Chunk) : List LocatedFault :=
  if c.size = 0 then [⟨0, .empty⟩]
  else
    (if c.isEntry 0 then [] else [⟨0, .missingEntry⟩]) ++
      c.code.toList.zipIdx.filterMap fun (i, offset) =>
        (c.faultOf? i).map fun fault => ⟨offset, fault⟩

/-- A chunk that may run. -/
def IsSound (c : Chunk) : Prop := c.faults = []

instance (c : Chunk) : Decidable c.IsSound :=
  inferInstanceAs (Decidable (_ = _))

end Chunk

end ScriptEngine
