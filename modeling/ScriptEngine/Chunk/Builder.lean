import ScriptEngine.Chunk.Instruction

/-!
# Building chunks

A chunk grows by one instruction at a time.  A jump may be emitted before its target
is known and is then pointed at the place where the chunk has got to.
-/

namespace ScriptEngine

structure ChunkBuilder where
  name : String
  code : Array Instruction := #[]
  /-- Source position of the instructions to come. -/
  source? : Option SourceSpan := none
deriving DecidableEq, Inhabited

namespace ChunkBuilder

/-- The target of a jump that has not been pointed anywhere, the largest machine word. -/
def unresolvedTarget : Nat := Nat.pow 2 64 - 1

def start (name : String) : ChunkBuilder := { name }

def setSource (b : ChunkBuilder) (line column : Nat) : ChunkBuilder :=
  { b with source? := some ⟨line, column⟩ }

/-- Index of the next instruction. -/
def here (b : ChunkBuilder) : Nat := b.code.size

/-- Appends an instruction, which keeps a source position of its own, and gives its index. -/
def emit (b : ChunkBuilder) (i : Instruction) : Nat × ChunkBuilder :=
  let i := if i.source?.isNone then { i with source? := b.source? } else i
  (b.here, { b with code := b.code.push i })

def emitOp (b : ChunkBuilder) (op : Op) (num : Nat) : Nat × ChunkBuilder :=
  b.emit { op, num }

def literal (b : ChunkBuilder) (v : Value) : Nat × ChunkBuilder :=
  b.emit { op := .literal, value? := some v }

def beginFunction (b : ChunkBuilder) (localCount : Nat) : Nat × ChunkBuilder :=
  b.emitOp .beginFunction localCount

def bindArgs (b : ChunkBuilder) (params : List Symbol) : Nat × ChunkBuilder :=
  b.emit { op := .bindArgs, symbols? := some params }

def load (b : ChunkBuilder) (s : Symbol) : Nat × ChunkBuilder :=
  b.emit { op := .load, symbol? := some s }

/-- Assigns the top to the symbol and drops it; the index is that of the assignment. -/
def storePop (b : ChunkBuilder) (s : Symbol) : Nat × ChunkBuilder :=
  let (index, b) := b.emit { op := .store, symbol? := some s }
  (index, (b.emitOp .pop 1).2)

def getField (b : ChunkBuilder) (name : String) : Nat × ChunkBuilder :=
  b.emit { op := .getField, value? := some (.string name) }

def call (b : ChunkBuilder) (argCount : Nat) : Nat × ChunkBuilder :=
  b.emitOp .call argCount

def ret (b : ChunkBuilder) (count : Nat) : Nat × ChunkBuilder :=
  b.emitOp .ret count

def closure (b : ChunkBuilder) (entry : Nat) (captures : List Symbol) (name : String) :
    Nat × ChunkBuilder :=
  b.emit { op := .closure, num := entry, symbols? := some captures, name? := some name }

/-- Emits a jump to be pointed somewhere later. -/
def jump (b : ChunkBuilder) (op : Op) : Nat × ChunkBuilder :=
  b.emitOp op unresolvedTarget

/-- Changes the first operand of an instruction that is there. -/
def patch (b : ChunkBuilder) (index num : Nat) : ChunkBuilder :=
  { b with code := b.code.modify index fun i => { i with num } }

/-- Points a jump at the next instruction. -/
def patchJump (b : ChunkBuilder) (index : Nat) : ChunkBuilder :=
  b.patch index b.here

def build (b : ChunkBuilder) : Chunk := ⟨b.name, b.code⟩

end ChunkBuilder

end ScriptEngine
