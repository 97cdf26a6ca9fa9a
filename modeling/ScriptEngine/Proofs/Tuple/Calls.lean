import ScriptEngine.Proofs.Machine.Intent
import ScriptEngine.Proofs.Tuple.Instructions

/-!
# Calls on flat values

A function gets its arguments as a row of single values, and its result reaches whoever
waits for it flat.  One step of a processor flows therefore, and what is fresh after it is
what the instruction has bound.
-/

namespace ScriptEngine

variable {H : HostTypes} [HostObjects H] {fresh : CellRef → Value → Prop}

namespace Exec

/-! ## Entering -/

theorem flows_failCall {e : ScriptError} (he : e.Flat) (flags : FrameFlags)
    (returnAddress : Nat) (handlers : Handlers) :
    Flows fresh (failCall e flags returnAddress handlers : Exec H Outcome) Outcome.Flat := by
  unfold failCall
  split
  · exact flows_pure he
  · exact flows_throw he

theorem flat_pushFrame {p : Processor} (hp : p.Flat) {f : Frame} (hf : f.Flat) :
    (p.pushFrame f).Flat :=
  ⟨hp.stack, List.forall_mem_cons.mpr ⟨hf, hp.frames⟩, hp.yielded, hp.chunk⟩

theorem flat_enterChunk {p : Processor} (hp : p.Flat) {chunk : Chunk} (hchunk : chunk.Flat)
    (ip : Nat) : Processor.Flat { p with ip, chunk? := some chunk } := by
  refine ⟨hp.stack, hp.frames, hp.yielded, ?_⟩
  rintro _ ⟨⟩
  exact hchunk

theorem flows_enter (callee : Callee) {args : List Value} (hargs : ∀ v ∈ args, v.Single)
    (flags : FrameFlags) (returnAddress : Nat) (handlers : Handlers) :
    Flows fresh (enter callee args flags returnAddress handlers : Exec H Outcome)
      Outcome.Flat := by
  refine flows_bind (flows_look _) fun depth _ => ?_
  refine flows_bind (P := fun _ => True) (flows_ask fun _ _ => trivial) fun limit _ => ?_
  split
  · exact flows_failCall (ScriptError.flat_of_payload rfl) _ _ _
  · refine flows_bind (flows_look _) fun base _ => ?_
    cases callee with
    | function f =>
      refine flows_bind (P := fun k : Closure => k.chunk.Flat) (flows_ask fun w hw => hw.closure f)
        fun closure hclosure => ?_
      refine flows_bind (flows_modifyProc fun p hp => ?_) fun _ _ => flows_pure trivial
      refine flat_enterChunk (flat_pushFrame hp ?_) hclosure _
      exact hargs
    | native f =>
      refine flows_bind (flows_modifyProc fun p hp => flat_pushFrame hp (by simp [Frame.Flat]))
        fun _ _ => ?_
      exact flows_pure (Arguments.single_ofValues (Value.flat_of_single hargs) _)

theorem flows_call (function : Value) {args : List Value} (hargs : ∀ v ∈ args, v.Flat)
    (flags : FrameFlags) (returnAddress : Nat) (handlers : Handlers) :
    Flows fresh (call function args flags returnAddress handlers : Exec H Outcome)
      Outcome.Flat := by
  refine flows_bind
    (P := fun r : Except Value (Callee × List Value) =>
      ∀ callee args, r = .ok (callee, args) → ∀ v ∈ args, v.Single)
    (flows_ask fun w hw callee args' h => ?_) fun resolved hresolved => ?_
  · exact hw.single_callee function.single_toScalar (single_flattenArgs hargs) h
  · split
    · exact flows_enter _ (hresolved _ _ rfl) _ _ _
    · exact flows_failCall (ScriptError.flat_of_payload rfl) _ _ _

theorem flows_callRequest {request : TailCallRequest} (h : ∀ v ∈ request.args, v.Flat)
    (flags : FrameFlags) (returnAddress : Nat) :
    Flows fresh (callRequest request flags returnAddress : Exec H Outcome) Outcome.Flat :=
  flows_call _ h _ _ _

theorem flows_callPending {pending : PendingCall} (h : ∀ v ∈ pending.args, v.Flat) :
    Flows fresh (callPending pending : Exec H Outcome) Outcome.Flat := by
  refine flows_bind (flows_look _) fun _ _ => ?_
  exact flows_call _ h _ _ _

theorem flows_pushResolved {r : Resolved} (hr : r.Flat) :
    Flows fresh (pushResolved r : Exec H Outcome) Outcome.Flat := by
  cases r with
  | value v => exact flows_bind (flows_push hr) fun _ _ => flows_pure trivial
  | call pending => exact flows_callPending hr

/-! ## Leaving -/

theorem flat_getD {v? : Option Value} (hv : ∀ v, v? = some v → v.Flat) :
    (v?.getD .void).Flat := by
  cases v? with
  | none => trivial
  | some v => exact hv v rfl

theorem flows_deliver (flags : FrameFlags) (returnAddress : Nat) {v? : Option Value}
    (hv : ∀ v, v? = some v → v.Flat) :
    Flows fresh (deliver flags returnAddress v? : Exec H Outcome) Outcome.Flat := by
  have hpush : Flows fresh (pushAll v?.toList : Exec H Unit) fun _ => True :=
    flows_pushAll fun v hmem => hv v (by simpa using hmem)
  unfold deliver
  split
  · exact flows_pure (flat_getD hv)
  · refine flows_bind
      (P := fun f? : Option Frame => ∀ f, f? = some f → f.Flat)
      (flows_askProc fun p hp f hf => hp.frames f (List.mem_of_mem_head? hf))
      fun top? htop => ?_
    split
    · exact flows_bind hpush fun _ _ => flows_bind (flows_jumpTo _) fun _ _ => flows_pure trivial
    · next top =>
      split
      · exact flows_bind flows_popFrame? fun _ _ => flows_pure ⟨htop top rfl, flat_getD hv⟩
      · refine flows_bind hpush fun _ _ => flows_bind (flows_jumpTo _) fun _ _ => ?_
        split
        · next f hf =>
          refine flows_bind (P := fun k : Closure => k.chunk.Flat)
            (flows_ask fun w hw => hw.closure f) fun closure hclosure => ?_
          exact flows_bind (flows_modifyProc fun p hp => flat_enterChunk hp hclosure p.ip)
            fun _ _ => flows_pure trivial
        · exact flows_pure trivial

theorem flows_finish (frame : Frame) {v : Value} (hv : v.Flat) :
    Flows fresh (finish frame v : Exec H Outcome) Outcome.Flat := by
  unfold finish
  split
  · refine flows_deliver _ _ ?_
    rintro _ ⟨⟩
    exact hv
  · next p hp =>
    refine flows_bind (flows_ofScript (p.single_apply v)) fun v? hv? => ?_
    exact flows_deliver _ _ fun v hsome => (hv? v hsome).flat
  · exact flows_pure (List.forall_mem_singleton.mpr hv)

theorem flows_tailFromNative {frame : Frame} (hframe : frame.Flat) {request : TailCallRequest}
    (h : ∀ v ∈ request.args, v.Flat) :
    Flows fresh (tailFromNative frame request : Exec H Outcome) Outcome.Flat := by
  unfold tailFromNative
  split
  · exact flows_pure h
  · refine flows_bind (flows_modifyProc fun p hp => flat_withFrames hp ?_) fun _ _ => flows_pure h
    exact List.forall_mem_cons.mpr ⟨hframe, hp.frames⟩

theorem flows_completeNative {outcome : NativeOutcome} (h : outcome.Flat) :
    Flows fresh (completeNative outcome : Exec H Outcome) Outcome.Flat := by
  refine flows_bind flows_popFrame? fun frame? hframe => ?_
  split
  · exact flows_internal _
  · next frame =>
    have hframe := hframe frame rfl
    split
    · exact flows_finish frame h
    · refine flows_bind (flows_modifyProc fun p hp => ?_) fun _ _ => flows_pure h
      refine ⟨hp.stack, hp.frames, ?_, hp.chunk⟩
      rintro _ ⟨⟩
      exact hframe
    · exact flows_tailFromNative hframe h

/-! ## Instructions that call -/

theorem flows_valueOperand {chunk : Chunk} (hchunk : chunk.Flat) {ip : Nat} {i : Instruction}
    (hi : chunk.code[ip]? = some i) : Flows fresh (valueOperand i : Exec H Value) Value.Flat := by
  unfold valueOperand
  split
  · next v hv => exact flows_pure (hchunk ip i hi v hv)
  · exact flows_internal _

theorem flows_symbolOperand (i : Instruction) :
    Flows fresh (symbolOperand i : Exec H Symbol) fun _ => True := by
  unfold symbolOperand
  split
  · exact flows_pure trivial
  · exact flows_internal _

theorem flows_getIndex (object : Value) {key : Value} (hkey : key.Flat) :
    Flows fresh (getIndex object key : Exec H Outcome) Outcome.Flat := by
  refine flows_consult (fun _ hw => hw.resolveIndex hkey object) fun _ => ?_
  exact flows_pushResolved

theorem flows_setIndex (object : Value) {key : Value} (hkey : key.Flat) (value : Value) :
    Flows fresh (setIndex object key value : Exec H Outcome) Outcome.Flat := by
  refine flows_consult (fun w hw => hw.resolveSetIndex hkey object value)
    fun assignment hassignment => ?_
  split
  · exact flows_callPending hassignment
  · refine flows_bind (flows_modifyWorld (fun w hw => hw.assign hassignment) fun w => ?_)
      fun _ _ => flows_pure trivial
    cases assignment with
    | call p => exact .refl w
    | _ => exact .of_cells (World.cells_modifyObject w _ _)

theorem flows_load (s : Symbol) : Flows fresh (load s : Exec H Outcome) Outcome.Flat := by
  unfold load
  split
  · exact flows_bind (flows_readSymbol _) fun object _ => flows_getIndex object trivial
  · exact flows_bind (flows_readSymbol _) fun v hv =>
      flows_bind (flows_push hv) fun _ _ => flows_pure trivial

theorem flows_store (s : Symbol) {value : Value} (hvalue : value.Single) :
    Flows fresh (store s value : Exec H Outcome) Outcome.Flat := by
  unfold store
  split
  · next name env =>
    have hkey : (Value.string name).Flat := trivial
    exact flows_bind (flows_readSymbol _) fun object _ => flows_setIndex object hkey value
  · refine flows_bind (flows_symbolCell _) fun c _ => ?_
    refine flows_bind (flows_modifyWorld (fun w hw => hw.setCell c hvalue.flat) fun w => ?_)
      fun _ _ => flows_pure trivial
    refine w.spares_setCell c fun htuple => ?_
    rw [hvalue] at htuple
    cases htuple

theorem flows_binary {f : World H → Value → Value → Except RuntimeError Resolved}
    (hf : ∀ w a b, FlatResult Resolved.Flat (f w a b)) :
    Flows fresh (binary f) Outcome.Flat := by
  refine flows_bind flows_popPair fun _ _ => ?_
  refine flows_consult (fun w _ => hf w _ _) fun _ => ?_
  exact flows_pushResolved

theorem flat_truncateStack {p : Processor} (hp : p.Flat) (height : Nat) :
    Processor.Flat { p with stack := p.stack.truncate height } := by
  refine flat_withStack hp fun v hv => ?_
  exact hp.stack v (List.mem_of_mem_drop hv)

theorem flows_callOp (i : Instruction) (methodCall : Bool) :
    Flows fresh (callOp i methodCall : Exec H Outcome) Outcome.Flat := by
  refine flows_bind (flows_popMany _) fun args hargs => ?_
  refine flows_bind flows_pop fun function _ => ?_
  refine flows_bind (flows_look _) fun can _ => ?_
  split
  · refine flows_bind flows_popFrame? fun caller? _ => ?_
    split
    · exact flows_internal _
    · exact flows_bind (flows_modifyProc fun p hp => flat_truncateStack hp _) fun _ _ =>
        flows_call _ hargs _ _ _
  · exact flows_bind (flows_look _) fun _ _ => flows_call _ hargs _ _ _

theorem flows_leaveFrame {v : Value} (hv : v.Flat) :
    Flows fresh (leaveFrame v : Exec H Outcome) Outcome.Flat := by
  refine flows_bind flows_popFrame? fun frame? _ => ?_
  split
  · exact flows_internal _
  · exact flows_bind (flows_modifyProc fun p hp => flat_truncateStack hp _) fun _ _ =>
      flows_finish _ hv

theorem flows_ret (i : Instruction) : Flows fresh (ret i : Exec H Outcome) Outcome.Flat := by
  unfold ret
  split
  · exact flows_bind flows_pop fun v => flows_leaveFrame
  · exact flows_leaveFrame trivial

/-! ## Steps -/

/-- Every instruction but the one that binds arguments spares the variables. -/
theorem flows_execute {chunk : Chunk} (hchunk : chunk.Flat) {ip : Nat} {i : Instruction}
    (hi : chunk.code[ip]? = some i) (hbind : i.op ≠ .bindArgs) :
    Flows fresh (execute chunk i : Exec H Outcome) Outcome.Flat := by
  have hvalue : Flows fresh (valueOperand i : Exec H Value) Value.Flat :=
    flows_valueOperand hchunk hi
  have hassigned : Flows fresh (assigned i : Exec H Value) Value.Single := flows_assigned i
  unfold execute
  cases hop : i.op with
  | nop => exact flows_pure trivial
  | pop => exact flows_andProceed (flows_bind (flows_popMany _) fun _ _ => flows_pure trivial)
  | copy => exact flows_andProceed (flows_bind (flows_peek _) fun _ hv => flows_push hv)
  | swap => exact flows_andProceed (flows_swap i)
  | literal => exact flows_andProceed (flows_bind hvalue fun _ hv => flows_push hv)
  | makeTuple =>
    exact flows_andProceed (flows_bind (flows_popMany _) fun _ hvs =>
      flows_push (Value.flat_tupled hvs))
  | toScalar =>
    exact flows_andProceed (flows_bind flows_pop fun v _ => flows_push v.single_toScalar.flat)
  | load => exact flows_bind (flows_symbolOperand i) fun s _ => flows_load s
  | store =>
    exact flows_bind hassigned fun v hv => flows_bind (flows_symbolOperand i) fun s _ =>
      flows_store s hv
  | clean => exact flows_andProceed (flows_clean i)
  | closure => exact flows_andProceed (flows_makeClosure hchunk i)
  | beginFunction => exact flows_andProceed (flows_beginFunction i)
  | bindArgs => exact absurd hop hbind
  | call => exact flows_callOp i false
  | methodCall => exact flows_callOp i true
  | ret => exact flows_ret i
  | newTable =>
    refine flows_andProceed (flows_bind (flows_changeWorld (fun w hw => ?_) fun w => ?_)
      fun _ _ => flows_push trivial)
    · exact hw.add (Object.flat_table .empty)
    · exact .of_cells rfl
  | initField => exact flows_andProceed flows_initField
  | initItem => exact flows_andProceed (flows_initItem i)
  | getIndex =>
    exact flows_bind flows_pop fun key _ => flows_bind flows_pop fun object _ =>
      flows_getIndex object key.single_toScalar.flat
  | getField =>
    exact flows_bind flows_pop fun object _ => flows_bind hvalue fun key hkey =>
      flows_getIndex object hkey
  | getMulti => exact flows_andProceed flows_getMulti
  | setIndex =>
    exact flows_bind flows_pop fun key _ => flows_bind flows_pop fun object _ =>
      flows_bind hassigned fun v _ => flows_setIndex object key.single_toScalar.flat v
  | setField =>
    exact flows_bind flows_pop fun object _ => flows_bind hassigned fun v _ =>
      flows_bind hvalue fun key hkey => flows_setIndex object hkey v
  | setMulti => exact flows_andProceed (flows_setMulti i)
  | jump => exact flows_andProceed (flows_jumpTo _)
  | jumpIfFalse => exact flows_andProceed (flows_jumpWhen i _)
  | jumpIfNil => exact flows_andProceed (flows_jumpWhen i _)
  | jumpIfTrueOrPop => exact flows_andProceed (flows_jumpOrPop i true)
  | jumpIfFalseOrPop => exact flows_andProceed (flows_jumpOrPop i false)
  | forCheck => exact flows_andProceed (flows_forCheck i)
  | forStep => exact flows_andProceed flows_forStep
  | toNumber => exact flows_andProceed (flows_toNumber i)
  | toBoolean => exact flows_andProceed (flows_bind flows_pop fun _ _ => flows_push trivial)
  | iterPrepare => exact flows_andProceed flows_iterPrepare
  | iterUpdate => exact flows_andProceed flows_iterUpdate
  | concat => exact flows_binary World.flat_resolveConcat
  | add => exact flows_binary fun w => w.flat_resolveArith .add
  | sub => exact flows_binary fun w => w.flat_resolveArith .sub
  | mul => exact flows_binary fun w => w.flat_resolveArith .mul
  | div => exact flows_binary fun w => w.flat_resolveArith .div
  | mod => exact flows_binary fun w => w.flat_resolveArith .mod
  | pow => exact flows_binary fun w => w.flat_resolveArith .pow
  | neg =>
    exact flows_bind flows_pop fun a _ =>
      flows_consult (fun w _ => w.flat_resolveNegate a) fun _ => flows_pushResolved
  | not => exact flows_andProceed (flows_bind flows_pop fun _ _ => flows_push trivial)
  | length =>
    refine flows_bind flows_pop fun a _ => ?_
    refine flows_bind (flows_modifyWorld (fun w hw => hw.noteLength a) fun w => ?_) fun _ _ => ?_
    · exact (Action.receives_noteLength w a).spares
    · exact flows_consult (fun w _ => w.flat_resolveLength a) fun _ => flows_pushResolved
  | equal => exact flows_binary fun w a b => w.flat_resolveEqual a b
  | less => exact flows_binary World.flat_resolveLess
  | lessEqual => exact flows_binary World.flat_resolveLessEqual
  | invalid => exact flows_internal _

/-- Only the rest of the arguments is fresh where arguments are bound. -/
theorem flowsTo_bindArgs {c : Core H} (hc : c.Flat) (i : Instruction)
    (hfresh : ∀ frame cell v, c.proc.frames.top? = some frame →
      BindsRest frame.locals frame.pendingArgs 0 i.symbols cell v → fresh cell v) :
    FlowsTo fresh (fun _ => True) c.world (bindArgs i c) := by
  unfold bindArgs
  cases htop : c.proc.frames.top? with
  | none =>
    rw [run_bind_of_error (topFrame_run_none htop)]
    exact ⟨hc, .refl _, trivial⟩
  | some frame =>
    have hframe : frame.Flat := hc.proc.frames frame (List.mem_of_mem_head? htop)
    rw [run_bind_of_ok (topFrame_run htop)]
    refine flows_bind (flows_setTopFrame (f := { frame with pendingArgs := [] })
      (by simp [Frame.Flat]))
      (fun _ _ => ?_) c hc
    exact flows_bindParams frame.locals hframe 0 i.symbols fun cell v => hfresh frame cell v htop

end Exec

/-- The instruction to come binds the variable to a parameter that takes all the arguments
from its position on. -/
def Core.Binds (c : Core H) (cell : CellRef) (v : Value) : Prop :=
  ∃ (chunk : Chunk) (i : Instruction) (frame : Frame),
    c.proc.chunk? = some chunk ∧ chunk.code[c.proc.ip]? = some i ∧ i.op = .bindArgs ∧
      c.proc.frames.top? = some frame ∧
        Exec.BindsRest frame.locals frame.pendingArgs 0 i.symbols cell v

namespace Exec

/-- One step of a processor on flat values. -/
theorem flowsTo_step {c : Core H} (hc : c.Flat) (hfresh : ∀ cell v, c.Binds cell v → fresh cell v) :
    FlowsTo fresh Outcome.Flat c.world (step c) := by
  rw [step_eq_fetch]
  cases hchunk? : c.proc.chunk? with
  | none =>
    have hfetch : fetch c = .error (.internal "no bytecode loaded") c := by
      rw [fetch_run, hchunk?]
    rw [run_bind_of_error hfetch]
    exact ⟨hc, .refl _, trivial⟩
  | some chunk =>
    cases hi : chunk.code[c.proc.ip]? with
    | none =>
      rw [run_bind_of_error (fetch_run_of_no_code hchunk? hi)]
      exact ⟨hc, .refl _, trivial⟩
    | some i =>
      have hnext : Core.Flat (H := H) ⟨c.world, { c.proc with ip := c.proc.ip + 1 }⟩ :=
        ⟨hc.world, hc.proc.stack, hc.proc.frames, hc.proc.yielded, hc.proc.chunk⟩
      rw [run_bind_of_ok (fetch_run_of_code hchunk? hi)]
      by_cases hbind : i.op = .bindArgs
      · simp only [execute, hbind]
        refine FlowsTo.bind (flowsTo_bindArgs hnext i fun frame cell v htop hrest => ?_)
          fun _ _ => flows_pure trivial
        exact hfresh cell v ⟨chunk, i, frame, hchunk?, hi, hbind, htop, hrest⟩
      · exact flows_execute (hc.proc.chunk chunk hchunk?) hi hbind _ hnext

end Exec

end ScriptEngine
