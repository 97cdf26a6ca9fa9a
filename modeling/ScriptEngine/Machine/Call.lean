import ScriptEngine.Machine.Exec

/-!
# Entering and leaving calls

Every call goes through `Exec.call` and every result through `Exec.finish` and
`Exec.deliver`.  A value that is no function is called through its definition of the
call operator, which gets the value as first argument, up to ten times over.
-/

namespace ScriptEngine

/-- The longest chain of definitions of the call operator that is followed. -/
def maxCallHops : Nat := 10

/-- The function that a call of a value ends up at, with its arguments; else the value that cannot
be called. -/
def World.callee {H : HostTypes} [HostObjects H] (w : World H) :
    Nat → Value → List Value → Except Value (Callee × List Value)
  | _, .function f, args => .ok (.function f, args)
  | _, .native f, args => .ok (.native f, args)
  | 0, v, _ => .error v
  | hops + 1, v, args =>
    match w.hook? v .call with
    | some h => w.callee hops h (v :: args)
    | none => .error v

namespace Exec

variable {H : HostTypes} [HostObjects H]

/-- A call failed before it had a frame.  Its handlers answer all the same. -/
def failCall (e : ScriptError) (flags : FrameFlags) (returnAddress : Nat) (handlers : Handlers) :
    Exec H Outcome :=
  match handlers.errorHandler? with
  | some h => pure (.recover e handlers.beforeUnwind? h flags returnAddress)
  | none => throw (.script e)

/-- Pushes the frame of a callee and begins it. -/
def enter (callee : Callee) (args : List Value) (flags : FrameFlags) (returnAddress : Nat)
    (handlers : Handlers) : Exec H Outcome := do
  let depth ← askProc (·.frames.height)
  let limit ← ask (·.settings.maxCallDepth)
  if limit ≤ depth then failCall .stackOverflow flags returnAddress handlers
  else
    let base ← askProc (·.stack.height)
    match callee with
    | .function f =>
      let closure ← ask (·.closure f)
      modifyProc fun p =>
        { p.pushFrame { callee, base, returnAddress, flags, handlers, pendingArgs := args } with
          ip := closure.entry
          chunk? := some closure.chunk }
      pure .proceed
    | .native f =>
      modifyProc (·.pushFrame { callee, base, returnAddress, flags, handlers })
      pure (.invoke f (.ofValues args flags.methodCall))

/-- Calls a value. -/
def call (function : Value) (args : List Value) (flags : FrameFlags) (returnAddress : Nat)
    (handlers : Handlers) : Exec H Outcome := do
  let resolved ← ask (·.callee maxCallHops function.toScalar (flattenArgs args))
  match resolved with
  | .ok (callee, args) => enter callee args flags returnAddress handlers
  | .error v => failCall (.call v) flags returnAddress handlers

/-- Makes the call that a host function asked for. -/
def callRequest (request : TailCallRequest) (flags : FrameFlags) (returnAddress : Nat) :
    Exec H Outcome :=
  call request.function request.args flags returnAddress
    { continuation? := request.continuation?.map .native
      errorHandler? := request.errorHandler?
      beforeUnwind? := request.beforeUnwind? }

/-- Begins the call of a metamethod; what remains of its result is pushed. -/
def callPending (pending : PendingCall) : Exec H Outcome := do
  let ip ← askProc (·.ip)
  call pending.function pending.args {} ip (.ofPost pending.post)

/-- Pushes what an operator came to, or begins the call that finds out. -/
def pushResolved : Resolved → Exec H Outcome
  | .value v => do
    push v
    pure .proceed
  | .call pending => callPending pending

/-- Hands a result to whoever waits for it: the end of the loop, a host function that waits for the
call it asked for, or the script. -/
def deliver (flags : FrameFlags) (returnAddress : Nat) (v? : Option Value) : Exec H Outcome := do
  if flags.entryPoint then pure (.return (v?.getD .void))
  else
    let top? ← askProc (·.frames.top?)
    match top? with
    | none =>
      pushAll v?.toList
      jumpTo returnAddress
      pure .proceed
    | some top =>
      if top.flags.awaiting then
        let _ ← popFrame?
        pure (.finish top (v?.getD .void))
      else
        pushAll v?.toList
        jumpTo returnAddress
        match top.callee with
        | .function f =>
          let closure ← ask (·.closure f)
          modifyProc fun p => { p with chunk? := some closure.chunk }
        | .native _ => pure ()
        pure .proceed

/-- Passes the result of a frame that is gone through the frame's continuation. -/
def finish (frame : Frame) (v : Value) : Exec H Outcome := do
  match frame.handlers.continuation? with
  | none => deliver frame.flags frame.returnAddress (some v)
  | some (.post p) =>
    let v? ← ofScript (p.apply v)
    deliver frame.flags frame.returnAddress v?
  | some (.native f) =>
    pure (.tailCall { function := .native f, args := [v] }
      { entryPoint := frame.flags.entryPoint } frame.returnAddress)

/-- Makes room for the call that a host function asked for: the function's frame goes if nothing is
left to do in it, else it waits. -/
def tailFromNative (frame : Frame) (request : TailCallRequest) : Exec H Outcome := do
  if frame.handlers.isEmpty then
    pure (.tailCall request { entryPoint := frame.flags.entryPoint, tailCall := true }
      frame.returnAddress)
  else
    let waiting := { frame with flags := { frame.flags with awaiting := true } }
    modifyProc fun p => { p with frames := p.frames.push waiting }
    pure (.tailCall request {} frame.returnAddress)

/-- Ends the host function on top of the frames. -/
def completeNative (outcome : NativeOutcome) : Exec H Outcome := do
  let frame? ← popFrame?
  match frame? with
  | none => internal "native frame lost"
  | some frame =>
    match outcome with
    | .result v => finish frame v
    | .yield v =>
      modifyProc fun p => { p with yielded? := some frame }
      pure (.yield v)
    | .tailCall request => tailFromNative frame request

/-- Whether the call to come can take the place of the frame that makes it. -/
def canTailCall (p : Processor) : Bool :=
  let returnsNext :=
    match p.chunk? with
    | some chunk =>
      match chunk.code[p.ip]? with
      | some i => i.op = .ret && i.num = 1
      | none => false
    | none => false
  returnsNext &&
    match p.frames.top? with
    | some f => f.callee.isFunction && f.handlers.isEmpty && !f.flags.awaiting
    | none => false

end Exec

end ScriptEngine
