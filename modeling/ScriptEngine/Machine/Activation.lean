import ScriptEngine.Machine.Call

/-!
# Activations

Loops nest: a host function calls back into a script, an error handler runs, a coroutine
is resumed.  The activations are the loops that have begun and not ended, the innermost
first, each with what its result is for.  With them the machine takes one small step at
a time.
-/

namespace ScriptEngine

/-- What the result of a nested call is for. -/
inductive Waiter (H : HostTypes) where
  /-- A host function goes on with it. -/
  | action (next : Except RuntimeError Value → Action H NativeOutcome)
  /-- It replaces the value of an error on its way; the other functions follow. -/
  | decorated (e : ScriptError) (rest : List Value)
  /-- It replaces the value of an error that a handler is about to answer. -/
  | refused (e : ScriptError) (handler : NativeRef) (flags : FrameFlags) (returnAddress : Nat)
  /-- It is the handler's answer to a call that had no frame yet. -/
  | recovered (flags : FrameFlags) (returnAddress : Nat)
  /-- It is the handler's answer to an error that has dropped frames. -/
  | caught (flags : FrameFlags) (returnAddress : Nat)
  /-- It is the result of the processor that runs. -/
  | processor

/-- What a nested loop leaves as it found it. -/
structure LoopMark where
  ip : Nat
  chunk? : Option Chunk
  frames : Nat
  stack : Nat

inductive Activation (H : HostTypes) where
  /-- A nested loop on the processor that ran before. -/
  | call (mark : LoopMark) (waiter : Waiter H)
  /-- The outermost loop of a coroutine. -/
  | body
  /-- A coroutine took over from the processor of another. -/
  | switch (c : CoroutineRef) (outer : Processor)
      (next : Except RuntimeError Value → Action H NativeOutcome)

/-- How a loop ends without an error. -/
inductive LoopExit where
  | returned (v : Value)
  | yielded (v : Value)
  | forceYielded
deriving DecidableEq

/-- What the machine does next. -/
inductive Control (H : HostTypes) where
  /-- The innermost loop goes on. -/
  | loop (o : Outcome)
  /-- The innermost loop has to deal with an error. -/
  | failed (e : RuntimeError)
  /-- An error on its way is shown to the functions that want to see it. -/
  | unwinding (e : ScriptError) (decorators : List Value)
  /-- A nested call begins. -/
  | calling (function : Value) (args : List Value) (waiter : Waiter H)
  /-- The innermost loop ends. -/
  | leaving (exit : Except RuntimeError LoopExit)
  /-- A nested call has a result. -/
  | answering (waiter : Waiter H) (result : Except RuntimeError Value)
  /-- A coroutine gives way to the one that resumed it. -/
  | switching (exit : Except RuntimeError LoopExit)
  /-- A host function runs. -/
  | running (a : Action H NativeOutcome)
  /-- The answer of an error handler reaches whoever waits for it; an error on this way ends the
  loop. -/
  | settling (o : Outcome)
  /-- All is done. -/
  | finished (result : Except RuntimeError Value)

structure Machine (H : HostTypes) where
  core : Core H
  /-- The innermost first. -/
  activations : List (Activation H) := []
  control : Control H

/-- The height that the frames of the innermost loop stand on. -/
def frameFloor {H : HostTypes} : List (Activation H) → Nat
  | .call mark _ :: _ => mark.frames
  | _ => 0

/-- The machine of a host that is about to do something. -/
def Machine.start {H : HostTypes} (w : World H) (a : Action H NativeOutcome) : Machine H :=
  { core := ⟨w, {}⟩, control := .running a }

end ScriptEngine
