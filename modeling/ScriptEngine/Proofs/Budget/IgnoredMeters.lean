import ScriptEngine.Proofs.Machine.Results

/-!
# Programs and the budget of their processor

A processor may have a budget, and it counts instructions since it was last
suspended.  Neither has any influence on what an instruction does: a program
runs alike on the same processor with another budget and another count.
-/

namespace ScriptEngine

variable {H : HostTypes} {α β : Type}

/-- A budget and what has been used of it. -/
structure Meter where
  budget? : Option Nat := none
  executed : Nat := 0

/-- The meter after one more instruction. -/
def Meter.tick (k : Meter) : Meter :=
  match k.budget? with
  | none => k
  | some _ => { k with executed := k.executed + 1 }

/-- The processor with another meter, if one is given. -/
def Processor.metered (p : Processor) (k? : Option Meter) : Processor :=
  { p with
    autoYield? := k?.elim p.autoYield? Meter.budget?
    executed := k?.elim p.executed Meter.executed }

def Core.metered (c : Core H) (k? : Option Meter) : Core H :=
  ⟨c.world, c.proc.metered k?⟩

namespace Exec

def meteredResult (k? : Option Meter) :
    EStateM.Result RuntimeError (Core H) α → EStateM.Result RuntimeError (Core H) α
  | .ok a c => .ok a (c.metered k?)
  | .error e c => .error e (c.metered k?)

/-- The program does not care for the meter. -/
def IgnoresMeter (x : Exec H α) : Prop :=
  ∀ k? c, x (c.metered k?) = meteredResult k? (x c)

theorem IgnoresMeter.bind {x : Exec H α} {f : α → Exec H β} (hx : IgnoresMeter x)
    (hf : ∀ a, IgnoresMeter (f a)) : IgnoresMeter (x >>= f) := by
  intro k? c
  rw [run_bind, run_bind, hx k? c]
  cases x c with
  | ok a c' => exact hf a k? c'
  | error e c' => rfl

theorem ignoresMeter_pure (a : α) : IgnoresMeter (pure a : Exec H α) := by
  intro _ _
  rfl

theorem ignoresMeter_throw (e : RuntimeError) : IgnoresMeter (throw e : Exec H α) := by
  intro _ _
  rfl

theorem ignoresMeter_ask (f : World H → α) : IgnoresMeter (ask f) := by
  intro _ _
  rfl

theorem ignoresMeter_modifyProc {f : Processor → Processor}
    (hf : ∀ p k?, f (Processor.metered p k?) = (f p).metered k?) :
    IgnoresMeter (modifyProc f : Exec H Unit) := by
  intro k? c
  rw [modifyProc_run, modifyProc_run]
  exact congrArg (fun p => EStateM.Result.ok () (Core.mk c.world p)) (hf c.proc k?)

theorem ignoresMeter_addOffsets (a b : Nat) : IgnoresMeter (addOffsets a b : Exec H Nat) := by
  unfold addOffsets
  split
  · exact ignoresMeter_pure _
  · exact ignoresMeter_throw _

theorem ignoresMeter_setStack (stack : Stack Value) :
    IgnoresMeter (setStack stack : Exec H Unit) := by
  intro _ _
  rfl

theorem ignoresMeter_askStack : IgnoresMeter (askProc (·.stack) : Exec H (Stack Value)) := by
  intro _ _
  rfl

theorem ignoresMeter_pop : IgnoresMeter (pop : Exec H Value) := by
  refine ignoresMeter_askStack.bind fun stack => ?_
  cases stack.pop? with
  | none => exact ignoresMeter_throw _
  | some p => exact (ignoresMeter_setStack p.2).bind fun _ => ignoresMeter_pure p.1

theorem ignoresMeter_popMany (n : Nat) : IgnoresMeter (popMany n : Exec H (List Value)) := by
  refine ignoresMeter_askStack.bind fun stack => ?_
  cases stack.popMany? n with
  | none => exact ignoresMeter_throw _
  | some p => exact (ignoresMeter_setStack p.2).bind fun _ => ignoresMeter_pure p.1

theorem ignoresMeter_peek (offset : Nat) : IgnoresMeter (peek offset : Exec H Value) := by
  refine (ignoresMeter_addOffsets _ _).bind fun _ => ignoresMeter_askStack.bind fun stack => ?_
  cases stack.get? offset with
  | none => exact ignoresMeter_throw _
  | some v => exact ignoresMeter_pure v

theorem ignoresMeter_swap (i : Instruction) : IgnoresMeter (swap i : Exec H Unit) := by
  refine (ignoresMeter_addOffsets _ _).bind fun _ => (ignoresMeter_addOffsets _ _).bind fun _ =>
    ignoresMeter_askStack.bind fun stack => ?_
  cases stack.swap? i.num i.num2 with
  | none => exact ignoresMeter_throw _
  | some stack => exact ignoresMeter_setStack stack

theorem ignoresMeter_numberOperand (offset : Nat) :
    IgnoresMeter (numberOperand offset : Exec H Float) := by
  refine (ignoresMeter_peek offset).bind fun v => ?_
  cases v with
  | number n => exact ignoresMeter_pure n
  | _ => exact ignoresMeter_throw _

theorem ignoresMeter_forStep : IgnoresMeter (forStep : Exec H Unit) := by
  have hstate : IgnoresMeter (forState : Exec H (Float × Float × Float)) :=
    (ignoresMeter_numberOperand 2).bind fun var =>
      (ignoresMeter_numberOperand 1).bind fun limit =>
        (ignoresMeter_numberOperand 0).bind fun step => ignoresMeter_pure (var, limit, step)
  exact hstate.bind fun state => ignoresMeter_modifyProc fun _ _ => rfl

theorem ignoresMeter_topFrame : IgnoresMeter (topFrame : Exec H Frame) := by
  refine IgnoresMeter.bind (x := askProc (·.frames)) (fun _ _ => rfl) fun frames => ?_
  cases frames.top? with
  | none => exact ignoresMeter_throw _
  | some f => exact ignoresMeter_pure f

theorem ignoresMeter_updateTop (locals : Array CellRef) (pendingArgs : List Value) :
    IgnoresMeter (updateTop locals pendingArgs : Exec H Unit) := by
  refine ignoresMeter_modifyProc fun p k? => ?_
  have htop : (p.metered k?).frames.top? = p.frames.top? := rfl
  rw [htop]
  cases p.frames.top? <;> rfl

theorem ignoresMeter_jumpTo (ip : Nat) : IgnoresMeter (jumpTo ip : Exec H Unit) := by
  intro _ _
  rfl

theorem ignoresMeter_fetch : IgnoresMeter (fetch : Exec H (Chunk × Instruction)) := by
  refine IgnoresMeter.bind (x := askProc (·.chunk?)) (fun _ _ => rfl) fun chunk? => ?_
  cases chunk? with
  | none => exact ignoresMeter_throw _
  | some chunk =>
      refine IgnoresMeter.bind (x := askProc (·.ip)) (fun _ _ => rfl) fun ip => ?_
      cases chunk.code[ip]? with
      | none => exact ignoresMeter_throw _
      | some i => exact (ignoresMeter_jumpTo _).bind fun _ => ignoresMeter_pure (chunk, i)

theorem Simple.ignoresMeter {x : Exec H α} (hx : Simple x) : IgnoresMeter x := by
  induction hx with
  | pure a => exact ignoresMeter_pure a
  | throw e => exact ignoresMeter_throw e
  | bind hx hf ihx ihf => exact ihx.bind ihf
  | ask hf => exact ignoresMeter_ask _
  | modifyWorld hf => exact fun _ _ => rfl
  | changeWorld hf => exact fun _ _ => rfl
  | push v => exact fun _ _ => rfl
  | pushAll vs => exact fun _ _ => rfl
  | pop => exact ignoresMeter_pop
  | popMany n => exact ignoresMeter_popMany n
  | peek offset => exact ignoresMeter_peek offset
  | swap i => exact ignoresMeter_swap i
  | forStep => exact ignoresMeter_forStep
  | jumpTo ip => exact ignoresMeter_jumpTo ip
  | viewTop => exact ignoresMeter_topFrame.bind fun f => ignoresMeter_pure f.view
  | updateTop locals pendingArgs => exact ignoresMeter_updateTop locals pendingArgs
  | fetch => exact ignoresMeter_fetch

/-! ## Calls and results -/

theorem ignoresMeter_popFrame? : IgnoresMeter (popFrame? : Exec H (Option Frame)) := by
  refine IgnoresMeter.bind (x := askProc (·.frames)) (fun _ _ => rfl) fun frames => ?_
  cases frames.pop? with
  | none => exact ignoresMeter_pure _
  | some p =>
      exact (ignoresMeter_modifyProc fun _ _ => rfl).bind fun _ => ignoresMeter_pure (some p.1)

theorem ignoresMeter_failCall (e : ScriptError) (flags : FrameFlags) (returnAddress : Nat)
    (handlers : Handlers) :
    IgnoresMeter (failCall e flags returnAddress handlers : Exec H Outcome) := by
  unfold failCall
  cases handlers.errorHandler? with
  | none => exact ignoresMeter_throw _
  | some h => exact ignoresMeter_pure _

theorem ignoresMeter_enter (callee : Callee) (args : List Value) (flags : FrameFlags)
    (returnAddress : Nat) (handlers : Handlers) :
    IgnoresMeter (enter callee args flags returnAddress handlers : Exec H Outcome) := by
  refine IgnoresMeter.bind (x := askProc (·.frames.height)) (fun _ _ => rfl) fun depth => ?_
  refine (ignoresMeter_ask _).bind fun limit => ?_
  split
  · exact ignoresMeter_failCall _ _ _ _
  · refine IgnoresMeter.bind (x := askProc (·.stack.height)) (fun _ _ => rfl) fun base => ?_
    cases callee with
    | function f =>
        exact (ignoresMeter_ask _).bind fun closure =>
          (ignoresMeter_modifyProc fun _ _ => rfl).bind fun _ => ignoresMeter_pure _
    | native f =>
        exact (ignoresMeter_modifyProc fun _ _ => rfl).bind fun _ => ignoresMeter_pure _

theorem ignoresMeter_deliver (flags : FrameFlags) (returnAddress : Nat) (v? : Option Value) :
    IgnoresMeter (deliver flags returnAddress v? : Exec H Outcome) := by
  unfold deliver
  split
  · exact ignoresMeter_pure _
  · refine IgnoresMeter.bind (x := askProc (·.frames.top?)) (fun _ _ => rfl) fun top? => ?_
    have hjump : IgnoresMeter (pushAll v?.toList : Exec H Unit) := fun _ _ => rfl
    cases top? with
    | none =>
        exact hjump.bind fun _ => (ignoresMeter_jumpTo _).bind fun _ => ignoresMeter_pure _
    | some top =>
        dsimp only
        split
        · exact ignoresMeter_popFrame?.bind fun _ => ignoresMeter_pure _
        · refine hjump.bind fun _ => (ignoresMeter_jumpTo _).bind fun _ => ?_
          cases top.callee with
          | function f =>
              exact (ignoresMeter_ask _).bind fun closure =>
                (ignoresMeter_modifyProc fun _ _ => rfl).bind fun _ => ignoresMeter_pure _
          | native f => exact ignoresMeter_pure _

theorem ignoresMeter_finish (frame : Frame) (v : Value) :
    IgnoresMeter (finish frame v : Exec H Outcome) := by
  unfold finish
  cases frame.handlers.continuation? with
  | none => exact ignoresMeter_deliver _ _ _
  | some continuation =>
      cases continuation with
      | native f => exact ignoresMeter_pure _
      | post p =>
          dsimp only
          cases p.apply v with
          | ok v? => exact (ignoresMeter_pure v?).bind fun _ => ignoresMeter_deliver _ _ _
          | error e =>
              exact (ignoresMeter_throw (.script e)).bind fun _ => ignoresMeter_deliver _ _ _

theorem ignoresMeter_completeNative (outcome : NativeOutcome) :
    IgnoresMeter (completeNative outcome : Exec H Outcome) := by
  refine ignoresMeter_popFrame?.bind fun frame? => ?_
  cases frame? with
  | none => exact ignoresMeter_throw _
  | some frame =>
      cases outcome with
      | result v => exact ignoresMeter_finish frame v
      | yield v =>
          exact (ignoresMeter_modifyProc fun _ _ => rfl).bind fun _ => ignoresMeter_pure _
      | tailCall request =>
          dsimp only
          unfold tailFromNative
          split
          · exact ignoresMeter_pure _
          · exact (ignoresMeter_modifyProc fun _ _ => rfl).bind fun _ => ignoresMeter_pure _

theorem ignoresMeter_leaveFrame (v : Value) : IgnoresMeter (leaveFrame v : Exec H Outcome) := by
  refine ignoresMeter_popFrame?.bind fun frame? => ?_
  cases frame? with
  | none => exact ignoresMeter_throw _
  | some frame =>
      exact (ignoresMeter_modifyProc fun _ _ => rfl).bind fun _ => ignoresMeter_finish frame v

variable [HostObjects H]

theorem ignoresMeter_call (function : Value) (args : List Value) (flags : FrameFlags)
    (returnAddress : Nat) (handlers : Handlers) :
    IgnoresMeter (call function args flags returnAddress handlers : Exec H Outcome) := by
  refine (ignoresMeter_ask _).bind fun resolved => ?_
  cases resolved with
  | ok callee => exact ignoresMeter_enter _ _ _ _ _
  | error v => exact ignoresMeter_failCall _ _ _ _

theorem ignoresMeter_placeCall (function : Value) (args : List Value) (methodCall : Bool) :
    IgnoresMeter (placeCall function args methodCall : Exec H Outcome) := by
  refine IgnoresMeter.bind (x := askProc canTailCall) (fun _ _ => rfl) fun can => ?_
  split
  · refine ignoresMeter_popFrame?.bind fun caller? => ?_
    cases caller? with
    | none => exact ignoresMeter_throw _
    | some caller =>
        exact (ignoresMeter_modifyProc fun _ _ => rfl).bind fun _ => ignoresMeter_call _ _ _ _ _
  · exact IgnoresMeter.bind (x := askProc (·.ip)) (fun _ _ => rfl) fun ip =>
      ignoresMeter_call _ _ _ _ _

/-- No instruction cares for the meter. -/
theorem ignoresMeter_step : IgnoresMeter (step : Exec H Outcome) := by
  rw [step_eq]
  refine simple_stepIntent.ignoresMeter.bind fun intent => ?_
  cases intent with
  | proceed => exact ignoresMeter_pure _
  | pending p =>
      exact IgnoresMeter.bind (x := askProc (·.ip)) (fun _ _ => rfl) fun ip =>
        ignoresMeter_call _ _ _ _ _
  | call function args methodCall => exact ignoresMeter_placeCall _ _ _
  | «return» v => exact ignoresMeter_leaveFrame v

end Exec

end ScriptEngine
