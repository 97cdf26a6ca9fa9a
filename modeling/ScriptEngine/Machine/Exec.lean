import ScriptEngine.Machine.Resolve
import ScriptEngine.Native.Action

/-!
# Steps of a processor

A step works on the world and on the processor at hand and either fails or has an
outcome, which says what the loop does next.  What a failing step has changed stays
changed.
-/

namespace ScriptEngine

/-- What the loop does next. -/
inductive Outcome where
  /-- Goes on with the next instruction. -/
  | proceed
  /-- Hands a result to a frame that waited for it. -/
  | finish (frame : Frame) (v : Value)
  /-- Runs the host function on top of the frames. -/
  | invoke (f : NativeRef) (args : Arguments)
  /-- Lets the handler of a call that failed before it had a frame answer the error. -/
  | recover (e : ScriptError) (decorator? : Option Value) (handler : NativeRef)
      (flags : FrameFlags) (returnAddress : Nat)
  /-- Makes a call in place of a frame that is gone. -/
  | tailCall (request : TailCallRequest) (flags : FrameFlags) (returnAddress : Nat)
  | yield (v : Value)
  | forceYield
  /-- Leaves the loop. -/
  | return (v : Value)

/-- What a step works on. -/
structure Core (H : HostTypes) where
  world : World H
  proc : Processor

abbrev Exec (H : HostTypes) := EStateM RuntimeError (Core H)

namespace Exec

variable {H : HostTypes} {α : Type}

def internal (reason : String) : Exec H α := throw (.internal reason)

def underflow : Exec H α := internal "value stack underflow"

def ofScript : Except ScriptError α → Exec H α
  | .ok a => pure a
  | .error e => throw (.script e)

def ofResult : Except RuntimeError α → Exec H α
  | .ok a => pure a
  | .error e => throw e

/-! ## World and processor -/

/-- What a function of the world gives. -/
def ask (f : World H → α) : Exec H α := do pure (f (← get).world)

def askProc (f : Processor → α) : Exec H α := do pure (f (← get).proc)

def modifyWorld (f : World H → World H) : Exec H Unit :=
  modify fun c => { c with world := f c.world }

def modifyProc (f : Processor → Processor) : Exec H Unit :=
  modify fun c => { c with proc := f c.proc }

/-- Carries out a change of the world that gives a value. -/
def changeWorld (f : World H → α × World H) : Exec H α :=
  modifyGet fun c =>
    let (a, w) := f c.world
    (a, { c with world := w })

/-! ## Operands -/

def setStack (stack : Stack Value) : Exec H Unit :=
  modifyProc fun p => { p with stack }

def push (v : Value) : Exec H Unit :=
  modifyProc fun p => { p with stack := p.stack.push v }

def pushAll (vs : List Value) : Exec H Unit :=
  modifyProc fun p => { p with stack := p.stack.pushAll vs }

def pop : Exec H Value := do
  match (← askProc (·.stack)).pop? with
  | some (v, stack) =>
    setStack stack
    pure v
  | none => underflow

/-- Pops several operands, the lowest first. -/
def popMany (n : Nat) : Exec H (List Value) := do
  match (← askProc (·.stack)).popMany? n with
  | some (vs, stack) =>
    setStack stack
    pure vs
  | none => underflow

/-- Pops two operands, the lower one first. -/
def popPair : Exec H (Value × Value) := do
  let b ← pop
  let a ← pop
  pure (a, b)

/-- One above the largest machine word. -/
def wordLimit : Nat := Nat.pow 2 64

/-- The sum of two offsets, which has to be a machine word. -/
def addOffsets (a b : Nat) : Exec H Nat :=
  if a + b < wordLimit then pure (a + b) else throw (.fault .offsetOverflow)

/-- The operand at an offset from the top. -/
def peek (offset : Nat) : Exec H Value := do
  let _ ← addOffsets offset 1
  match (← askProc (·.stack)).get? offset with
  | some v => pure v
  | none => underflow

theorem pop_run_of_push {c : Core H} {v : Value} {stack : Stack Value}
    (h : c.proc.stack = stack.push v) :
    pop c = .ok v { c with proc := { c.proc with stack } } := by
  have hp : c.proc.stack.pop? = some (v, stack) := by rw [h, Stack.pop?_push]
  have hask : (askProc (·.stack) : Exec H (Stack Value)) c = .ok c.proc.stack c := rfl
  simp only [pop, bind, EStateM.bind, hask, hp]
  rfl

/-! ## Frames -/

def topFrame : Exec H Frame := do
  match (← askProc (·.frames)).top? with
  | some f => pure f
  | none => internal "no active call frame"

/-- Puts another frame in place of the topmost one. -/
def setTopFrame (f : Frame) : Exec H Unit :=
  modifyProc fun p => { p with frames := p.frames.set 0 f }

/-- Takes off the topmost frame, if there is one. -/
def popFrame? : Exec H (Option Frame) := do
  match (← askProc (·.frames)).pop? with
  | some (f, frames) =>
    modifyProc fun p => { p with frames }
    pure (some f)
  | none => pure none

/-- Goes on at an instruction of the chunk. -/
def jumpTo (ip : Nat) : Exec H Unit :=
  modifyProc fun p => { p with ip }

end Exec

end ScriptEngine
