import ScriptEngine.Error.Runtime

/-!
# Call frames

Every call has a frame.  It says where the caller goes on, where the callee's operands
begin, and what is still to be done with the result or with an error before either
reaches the caller.
-/

namespace ScriptEngine

/-- A variable that functions can share. -/
structure CellRef where
  index : Nat
deriving DecidableEq, Inhabited, Repr

/-- What happens to the result of a metamethod. -/
inductive PostReturn where
  /-- Its first value. -/
  | scalar
  /-- Its truth value. -/
  | toBool
  /-- The opposite truth value. -/
  | negateBool
  /-- A length, which must be a number. -/
  | length
  /-- Nothing. -/
  | discard
deriving DecidableEq, Inhabited, Repr

/-- The value that is pushed, if any. -/
def PostReturn.apply (post : PostReturn) (v : Value) : Except ScriptError (Option Value) :=
  match post with
  | .scalar => .ok (some v.toStorable)
  | .toBool => .ok (some (.boolean v.toBool))
  | .negateBool => .ok (some (.boolean !v.toBool))
  | .length =>
    match v.toNumber? with
    | some n => .ok (some (.number (Double.floor n)))
    | none => .error .lengthNotNumber
  | .discard => .ok none

/-- What a frame's result goes through. -/
inductive Continuation where
  /-- The result of this function on it takes its place. -/
  | native (f : NativeRef)
  | post (p : PostReturn)
deriving DecidableEq, Repr

structure Handlers where
  continuation? : Option Continuation := none
  /-- Its result on the error's value takes the place of the call's result. -/
  errorHandler? : Option NativeRef := none
  /-- Sees an error before any frame is dropped and may replace its value. -/
  beforeUnwind? : Option Value := none
deriving DecidableEq, Inhabited

namespace Handlers

def none : Handlers := {}

def ofPost (p : PostReturn) : Handlers := { continuation? := some (.post p) }

def isEmpty (h : Handlers) : Bool :=
  h.continuation?.isNone && h.errorHandler?.isNone && h.beforeUnwind?.isNone

@[simp] theorem isEmpty_iff {h : Handlers} : h.isEmpty = true ↔ h = none := by
  obtain ⟨continuation?, errorHandler?, beforeUnwind?⟩ := h
  cases continuation? <;> cases errorHandler? <;> cases beforeUnwind? <;> simp [isEmpty, none]

end Handlers

structure FrameFlags where
  /-- The receiver is the first argument. -/
  methodCall : Bool := false
  /-- The frame took the place of its caller's. -/
  tailCall : Bool := false
  /-- Returning from the frame ends the loop. -/
  entryPoint : Bool := false
  /-- The frame of a host function that waits for the call it asked for. -/
  awaiting : Bool := false
deriving DecidableEq, Inhabited, Repr

/-- What a frame runs. -/
inductive Callee where
  | function (f : FunctionRef)
  | native (f : NativeRef)
deriving DecidableEq, Inhabited, Repr

def Callee.isFunction : Callee → Bool
  | .function _ => true
  | .native _ => false

structure Frame where
  callee : Callee
  /-- Height of the operand stack when the call began. -/
  base : Nat
  /-- The instruction the caller goes on at. -/
  returnAddress : Nat
  flags : FrameFlags := {}
  handlers : Handlers := {}
  locals : Array CellRef := #[]
  /-- Arguments that have not been bound to parameters. -/
  pendingArgs : List Value := []
deriving DecidableEq, Inhabited

end ScriptEngine
