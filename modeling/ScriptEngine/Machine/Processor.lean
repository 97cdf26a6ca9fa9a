import ScriptEngine.Machine.Frame
import ScriptEngine.Machine.Stack

/-!
# Processors

The state of one thread of execution: operands, frames, the instruction to come, and
how deep loops are nested in it.  Every coroutine has one.
-/

namespace ScriptEngine

structure Processor where
  stack : Stack Value := .empty
  frames : Stack Frame := .empty
  /-- Index of the instruction to come. -/
  ip : Nat := 0
  chunk? : Option Chunk := none
  /-- Number of loops that run on the processor. -/
  nesting : Nat := 0
  /-- False for the main processor. -/
  canYield : Bool := false
  /-- Instructions between two forced suspensions. -/
  autoYield? : Option Nat := none
  /-- Instructions since the last suspension. -/
  executed : Nat := 0
  /-- The frame of the function that yielded; the next resume completes it. -/
  yielded? : Option Frame := none
  /-- The most frames there have been. -/
  peakFrames : Nat := 0
deriving Inhabited

namespace Processor

/-- Whether a host function that runs now may yield. -/
def isYieldable (p : Processor) : Bool := p.canYield && p.nesting = 1

theorem isYieldable_iff {p : Processor} :
    p.isYieldable = true ↔ p.canYield = true ∧ p.nesting = 1 := by
  unfold isYieldable
  rw [Bool.and_eq_true, decide_eq_true_eq]

/-- Where the instruction that runs comes from. -/
def location? (p : Processor) : Option SourceLocation :=
  match p.chunk?, p.ip with
  | some chunk, ip + 1 => chunk.location? ip
  | _, _ => none

/-- Sets the budget, zero for none, and starts counting anew. -/
def setAutoYield (p : Processor) (budget? : Option Nat) : Processor :=
  { p with autoYield? := budget?.filter (0 < ·), executed := 0 }

/-- Pushes a frame and keeps account of the peak. -/
def pushFrame (p : Processor) (f : Frame) : Processor :=
  let frames := p.frames.push f
  { p with frames, peakFrames := max p.peakFrames frames.height }

/-- Counts an instruction; tells whether the budget is used up, and then starts anew.  Only the
outermost loop of a coroutine counts. -/
def countInstruction (p : Processor) : Bool × Processor :=
  match p.autoYield? with
  | none => (false, p)
  | some budget =>
    if p.isYieldable then
      if budget < p.executed + 1 then (true, { p with executed := 0 })
      else (false, { p with executed := p.executed + 1 })
    else (false, p)

end Processor

end ScriptEngine
