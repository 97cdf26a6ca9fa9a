import ScriptEngine.Machine.Processor
import ScriptEngine.World.Basic

/-!
# The path of an error

A script error passes the frames from the top down to the first one that handles it or
that began the loop.  On its way it takes along the lines of the traceback, and the
functions that want to see it before any of these frames goes.
-/

namespace ScriptEngine

/-- The instruction before an address. -/
def previousIp? : Nat → Option Nat
  | 0 => none
  | ip + 1 => some ip

namespace World

variable {H : HostTypes}

/-- The line of a frame in which the given instruction was the last one. -/
def tracebackLine (w : World H) (f : Frame) (ip? : Option Nat) : String :=
  match f.callee with
  | .function r =>
    let closure := w.closure r
    let place :=
      match ip?.bind closure.chunk.location? with
      | some l => l.display
      | none => closure.chunk.name ++ ":?"
    place ++ ": in function '" ++ closure.displayName ++ "'"
  | .native r => "[native]: in function '" ++ w.nativeName r ++ "'"

/-- The lines of frames, the topmost first; every frame waits for the one above it. -/
def traceback (w : World H) : Option Nat → List Frame → List String
  | _, [] => []
  | ip?, f :: rest => w.tracebackLine f ip? :: traceback w (previousIp? f.returnAddress) rest

end World

/-- The frames an error passes, the topmost first: down to the first that has an error handler or
began the loop. -/
def errorPath : List Frame → List Frame
  | [] => []
  | f :: rest =>
    if f.handlers.errorHandler?.isSome || f.flags.entryPoint then [f] else f :: errorPath rest

/-- The path begins at the topmost frame and leaves none out. -/
theorem errorPath_prefix (frames : List Frame) : errorPath frames <+: frames := by
  fun_induction errorPath frames with
  | case1 => exact List.prefix_refl []
  | case2 f rest _ => exact ⟨rest, rfl⟩
  | case3 f rest _ ih => exact (List.prefix_cons_inj f).2 ih

namespace Processor

/-- The functions that see an error before frames above the floor go, the topmost frame's first. -/
def decorators (p : Processor) (floor : Nat) : List Value :=
  (errorPath (p.frames.above floor)).filterMap (·.handlers.beforeUnwind?)

/-- Drops the frames an error passes; gives the one that handles it, if there is one. -/
def dropErrorPath (p : Processor) (floor : Nat) : Option (Frame × NativeRef) × Processor :=
  let path := errorPath (p.frames.above floor)
  let handler? := do
    let f ← path.getLast?
    let h ← f.handlers.errorHandler?
    pure (f, h)
  (handler?, { p with frames := p.frames.truncate (p.frames.height - path.length) })

/-- The error with its place and its traceback, unless it has them already. -/
def located {H : HostTypes} (p : Processor) (w : World H) (floor : Nat) (e : ScriptError) :
    ScriptError :=
  let e := e.withLocation p.location?
  if e.traceback.isEmpty then
    { e with traceback := w.traceback (previousIp? p.ip) (p.frames.above floor) }
  else e

end Processor

end ScriptEngine
