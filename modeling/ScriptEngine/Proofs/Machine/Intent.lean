import ScriptEngine.Proofs.Machine.Simple

/-!
# What an instruction is about to do

An instruction first does something simple, and then at most one thing happens
to the frames: a call begins, a call takes the place of its frame, or the frame
returns.  `Exec.intent` is the first part and `Exec.carryOut` the second.
-/

namespace ScriptEngine

inductive Intent where
  | proceed
  | pending (p : PendingCall)
  | call (function : Value) (args : List Value) (methodCall : Bool)
  | return (v : Value)

namespace Exec

variable {H : HostTypes} [HostObjects H]

def intendResolved : Resolved → Exec H Intent
  | .value v => do
    push v
    pure .proceed
  | .call pending => pure (.pending pending)

def intendLoad (s : Symbol) : Exec H Intent := do
  match s with
  | .global name env =>
    let object ← readSymbol env
    let resolved ← ofResult (← ask (·.resolveIndex object (.string name)))
    intendResolved resolved
  | _ =>
    push (← readSymbol s)
    pure .proceed

def intendSetIndex (object key value : Value) : Exec H Intent := do
  match ← ofResult (← ask (·.resolveSetIndex object key value)) with
  | .call pending => pure (.pending pending)
  | assignment =>
    modifyWorld (·.assign assignment)
    pure .proceed

def intendStore (s : Symbol) (value : Value) : Exec H Intent := do
  match s with
  | .global name env =>
    let object ← readSymbol env
    intendSetIndex object (.string name) value
  | _ =>
    let c ← symbolCell s
    modifyWorld (·.setCell c value)
    pure .proceed

def intendIndex (object key : Value) : Exec H Intent := do
  let resolved ← ofResult (← ask (·.resolveIndex object key))
  intendResolved resolved

def intendBinary (f : World H → Value → Value → Except RuntimeError Resolved) :
    Exec H Intent := do
  let (a, b) ← popPair
  let resolved ← ofResult (← ask fun w => f w a b)
  intendResolved resolved

def intendCall (i : Instruction) (methodCall : Bool) : Exec H Intent := do
  let args ← popMany i.num
  let function ← pop
  pure (.call function args methodCall)

def intendReturn (i : Instruction) : Exec H Intent :=
  if i.num = 1 then do
    let v ← pop
    pure (.return v)
  else pure (.return .void)

def andIntend (x : Exec H Unit) : Exec H Intent := do
  x
  pure .proceed

/-- What an instruction does before anything happens to the frames. -/
def intent (chunk : Chunk) (i : Instruction) : Exec H Intent :=
  match i.op with
  | .nop => pure .proceed
  | .pop => andIntend do
    let _ ← popMany i.num
    pure ()
  | .copy => andIntend do push (← peek i.num)
  | .swap => andIntend (swap i)
  | .literal => andIntend do push (← valueOperand i)
  | .makeTuple => andIntend do push (.tupled (← popMany i.num))
  | .toScalar => andIntend do push (← pop).toScalar
  | .load => do intendLoad (← symbolOperand i)
  | .store => do
    let v ← assigned i
    intendStore (← symbolOperand i) v
  | .clean => andIntend (clean i)
  | .closure => andIntend (makeClosure chunk i)
  | .beginFunction => andIntend (beginFunction i)
  | .bindArgs => andIntend (bindArgs i)
  | .call => intendCall i false
  | .methodCall => intendCall i true
  | .ret => intendReturn i
  | .newTable => andIntend do push (.table (← changeWorld (·.newTable)))
  | .initField => andIntend initField
  | .initItem => andIntend (initItem i)
  | .getIndex => do
    let key ← pop
    let object ← pop
    intendIndex object key.toScalar
  | .getField => do
    let object ← pop
    intendIndex object (← valueOperand i)
  | .getMulti => andIntend getMulti
  | .setIndex => do
    let key ← pop
    let object ← pop
    intendSetIndex object key.toScalar (← assigned i)
  | .setField => do
    let object ← pop
    let v ← assigned i
    intendSetIndex object (← valueOperand i) v
  | .setMulti => andIntend (setMulti i)
  | .jump => andIntend (jumpTo i.num)
  | .jumpIfFalse => andIntend (jumpWhen i fun v => !v.toBool)
  | .jumpIfNil => andIntend (jumpWhen i fun v => v.toScalar.isNil)
  | .jumpIfTrueOrPop => andIntend (jumpOrPop i true)
  | .jumpIfFalseOrPop => andIntend (jumpOrPop i false)
  | .forCheck => andIntend (forCheck i)
  | .forStep => andIntend forStep
  | .toNumber => andIntend (toNumber i)
  | .toBoolean => andIntend do push (.boolean (← pop).toBool)
  | .iterPrepare => andIntend iterPrepare
  | .iterUpdate => andIntend iterUpdate
  | .concat => intendBinary World.resolveConcat
  | .add => intendBinary (·.resolveArith .add)
  | .sub => intendBinary (·.resolveArith .sub)
  | .mul => intendBinary (·.resolveArith .mul)
  | .div => intendBinary (·.resolveArith .div)
  | .mod => intendBinary (·.resolveArith .mod)
  | .pow => intendBinary (·.resolveArith .pow)
  | .neg => do
    let a ← pop
    let resolved ← ofResult (← ask (·.resolveNegate a))
    intendResolved resolved
  | .not => andIntend do push (.boolean !(← pop).toBool)
  | .length => do
    let a ← pop
    modifyWorld (·.noteLength a)
    let resolved ← ofResult (← ask (·.resolveLength a))
    intendResolved resolved
  | .equal => intendBinary fun w a b => .ok (w.resolveEqual a b)
  | .less => intendBinary World.resolveLess
  | .lessEqual => intendBinary World.resolveLessEqual
  | .invalid => internal "invalid opcode executed"

/-- Makes a call, in place of the frame that makes it if that one returns
next. -/
def placeCall (function : Value) (args : List Value) (methodCall : Bool) :
    Exec H Outcome := do
  if ← askProc canTailCall then
    match ← popFrame? with
    | none => internal "tail call without a frame"
    | some caller =>
      modifyProc fun p => { p with stack := p.stack.truncate caller.base }
      call function args
        { methodCall, tailCall := true, entryPoint := caller.flags.entryPoint }
        caller.returnAddress {}
  else
    let ip ← askProc (·.ip)
    call function args { methodCall } ip {}

/-- Drops the frame that runs and hands its result on. -/
def leaveFrame (v : Value) : Exec H Outcome := do
  match ← popFrame? with
  | none => internal "return without a frame"
  | some frame =>
    modifyProc fun p => { p with stack := p.stack.truncate frame.base }
    finish frame v

def carryOut : Intent → Exec H Outcome
  | .proceed => pure .proceed
  | .pending p => callPending p
  | .call function args methodCall => placeCall function args methodCall
  | .return v => leaveFrame v

/-- A way of carrying intents out, with the calls of instructions left open. -/
structure CarriesOut (k : Intent → Exec H Outcome) : Prop where
  proceed : k .proceed = pure .proceed
  pending : ∀ p, k (.pending p) = callPending p
  leave : ∀ v, k (.return v) = leaveFrame v

theorem carriesOut_carryOut : CarriesOut (H := H) carryOut := by
  refine ⟨rfl, ?_, ?_⟩
  · intro _
    rfl
  · intro _
    rfl

section

variable {k : Intent → Exec H Outcome}

theorem andProceed_eq (hk : CarriesOut k) (x : Exec H Unit) :
    andProceed x = andIntend x >>= k := by
  simp only [andProceed, andIntend, bind_assoc, pure_bind, hk.proceed]

theorem pushResolved_eq (hk : CarriesOut k) (r : Resolved) :
    (pushResolved r : Exec H Outcome) = intendResolved r >>= k := by
  cases r with
  | value v =>
      simp only [pushResolved, intendResolved, bind_assoc, pure_bind, hk.proceed]
  | call p => simp only [pushResolved, intendResolved, pure_bind, hk.pending]

theorem load_eq (hk : CarriesOut k) (s : Symbol) :
    (load s : Exec H Outcome) = intendLoad s >>= k := by
  cases s <;>
    simp only [load, intendLoad, bind_assoc, pure_bind, hk.proceed,
      pushResolved_eq hk]

theorem setIndex_eq (hk : CarriesOut k) (object key value : Value) :
    (setIndex object key value : Exec H Outcome) =
      intendSetIndex object key value >>= k := by
  simp only [setIndex, intendSetIndex, bind_assoc]
  congr 1
  funext r
  congr 1
  funext a
  cases a with
  | call p => simp only [pure_bind, hk.pending]
  | entry t key written value => simp only [bind_assoc, pure_bind, hk.proceed]
  | object u o => simp only [bind_assoc, pure_bind, hk.proceed]

theorem store_eq (hk : CarriesOut k) (s : Symbol) (value : Value) :
    (store s value : Exec H Outcome) = intendStore s value >>= k := by
  cases s <;>
    simp only [store, intendStore, bind_assoc, pure_bind, hk.proceed,
      setIndex_eq hk]

theorem getIndex_eq (hk : CarriesOut k) (object key : Value) :
    (getIndex object key : Exec H Outcome) =
      intendIndex object key >>= k := by
  simp only [getIndex, intendIndex, bind_assoc, pushResolved_eq hk]

theorem binary_eq (hk : CarriesOut k)
    (f : World H → Value → Value → Except RuntimeError Resolved) :
    binary f = intendBinary f >>= k := by
  simp only [binary, intendBinary, bind_assoc, pushResolved_eq hk]

theorem ret_eq (hk : CarriesOut k) (i : Instruction) :
    (ret i : Exec H Outcome) = intendReturn i >>= k := by
  unfold ret intendReturn
  by_cases hvalue : i.num = 1
  · simp only [hvalue, if_true, bind_assoc, pure_bind, hk.leave]
    rfl
  · simp only [hvalue, if_false, pure_bind, hk.leave]
    rfl

/-- An instruction that is no call carries out what it intends. -/
theorem execute_eq_of_ne_call (hk : CarriesOut k) (chunk : Chunk)
    {i : Instruction} (hcall : i.op ≠ .call) (hmethod : i.op ≠ .methodCall) :
    (execute chunk i : Exec H Outcome) = intent chunk i >>= k := by
  unfold execute intent
  cases hop : i.op with
  | call => exact absurd hop hcall
  | methodCall => exact absurd hop hmethod
  | _ =>
      simp only [andProceed_eq hk, load_eq hk, store_eq hk, ret_eq hk,
        getIndex_eq hk, setIndex_eq hk, binary_eq hk, pushResolved_eq hk,
        hk.proceed, bind_assoc, pure_bind] <;> rfl

end

theorem callOp_eq (i : Instruction) (methodCall : Bool) :
    (callOp i methodCall : Exec H Outcome) =
      intendCall i methodCall >>= carryOut := by
  simp only [callOp, intendCall, bind_assoc, pure_bind]
  rfl

/-- An instruction carries out what it intends. -/
theorem execute_eq (chunk : Chunk) (i : Instruction) :
    (execute chunk i : Exec H Outcome) = intent chunk i >>= carryOut := by
  by_cases hcall : i.op = .call
  · simp only [execute, intent, hcall, callOp_eq]
  · by_cases hmethod : i.op = .methodCall
    · simp only [execute, intent, hmethod, callOp_eq]
    · exact execute_eq_of_ne_call carriesOut_carryOut chunk hcall hmethod

/-- Fetches the next instruction and finds out what it intends. -/
def stepIntent : Exec H Intent := do
  let (chunk, i) ← fetch
  intent chunk i

theorem step_eq_fetch : (step : Exec H Outcome) = fetch >>= fun p => execute p.1 p.2 := by
  simp only [step, fetch, bind_assoc]
  congr 1
  funext chunk?
  cases chunk? with
  | none => rfl
  | some chunk =>
      simp only [bind_assoc]
      congr 1
      funext ip
      cases chunk.code[ip]? with
      | none => rfl
      | some i => simp only [bind_assoc, pure_bind]

theorem step_eq : (step : Exec H Outcome) = stepIntent >>= carryOut := by
  rw [step_eq_fetch]
  simp only [stepIntent, bind_assoc, execute_eq]

/-! ## The first part is simple -/

omit [HostObjects H] in
theorem simple_andIntend {x : Exec H Unit} (hx : Simple x) :
    Simple (andIntend x) := by
  refine .bind hx fun _ => ?_
  exact .pure _

omit [HostObjects H] in
theorem simple_intendResolved (r : Resolved) :
    Simple (intendResolved r : Exec H Intent) := by
  cases r with
  | value v => exact .bind (.push v) fun _ => .pure _
  | call p => exact .pure _

theorem simple_intendIndex (object key : Value) :
    Simple (intendIndex object key : Exec H Intent) := by
  apply Simple.bind (.ask (World.blind_resolveIndex object key))
  intro r
  exact .bind (.ofResult r) fun resolved => simple_intendResolved resolved

theorem simple_intendLoad (s : Symbol) :
    Simple (intendLoad s : Exec H Intent) := by
  cases s with
  | global name env =>
      exact .bind (simple_readSymbol env) fun object => simple_intendIndex _ _
  | slot index name =>
      exact .bind (simple_readSymbol _) fun v => .bind (.push v) fun _ => .pure _
  | captured index name =>
      exact .bind (simple_readSymbol _) fun v => .bind (.push v) fun _ => .pure _

theorem simple_intendSetIndex (object key value : Value) :
    Simple (intendSetIndex object key value : Exec H Intent) := by
  apply Simple.bind (.ask (World.blind_resolveSetIndex object key value))
  intro r
  apply Simple.bind (.ofResult r)
  intro a
  cases a with
  | call p => exact .pure _
  | entry t k written v =>
      exact .bind (.modifyWorld (World.tame_assign _)) fun _ => .pure _
  | object u o =>
      exact .bind (.modifyWorld (World.tame_assign _)) fun _ => .pure _

theorem simple_intendStore (s : Symbol) (value : Value) :
    Simple (intendStore s value : Exec H Intent) := by
  have hvariable : Simple (do
      let c ← symbolCell s
      modifyWorld (·.setCell c value)
      pure .proceed : Exec H Intent) :=
    .bind (simple_symbolCell s) fun c =>
      .bind (.modifyWorld (World.tame_setCell c value)) fun _ => .pure _
  cases s with
  | global name env =>
      exact .bind (simple_readSymbol env) fun object =>
        simple_intendSetIndex _ _ _
  | slot index name => exact hvariable
  | captured index name => exact hvariable

omit [HostObjects H] in
theorem simple_intendBinary
    {f : World H → Value → Value → Except RuntimeError Resolved}
    (hf : ∀ a b, World.Blind fun w => f w a b) : Simple (intendBinary f) := by
  apply Simple.bind .popPair
  intro operands
  apply Simple.bind (.ask (hf operands.1 operands.2))
  intro r
  exact .bind (.ofResult r) fun resolved => simple_intendResolved resolved

omit [HostObjects H] in
theorem simple_intendCall (i : Instruction) (methodCall : Bool) :
    Simple (intendCall i methodCall : Exec H Intent) := by
  refine .bind (.popMany _) fun _ => ?_
  refine .bind .pop fun _ => ?_
  exact .pure _

omit [HostObjects H] in
theorem simple_intendReturn (i : Instruction) :
    Simple (intendReturn i : Exec H Intent) := by
  unfold intendReturn
  split
  · exact .bind .pop fun v => .pure _
  · exact .pure _

theorem simple_intent (chunk : Chunk) (i : Instruction) :
    Simple (intent chunk i : Exec H Intent) := by
  unfold intent
  cases i.op with
  | nop => exact .pure _
  | pop => exact simple_andIntend (.bind (.popMany _) fun _ => .pure _)
  | copy => exact simple_andIntend (.bind (.peek _) fun v => .push v)
  | swap => exact simple_andIntend (.swap i)
  | literal =>
      exact simple_andIntend (.bind (simple_valueOperand i) fun v => .push v)
  | makeTuple => exact simple_andIntend (.bind (.popMany _) fun vs => .push _)
  | toScalar => exact simple_andIntend (.bind .pop fun v => .push _)
  | load => exact .bind (simple_symbolOperand i) fun s => simple_intendLoad s
  | store =>
      exact .bind (simple_assigned i) fun v =>
        .bind (simple_symbolOperand i) fun s => simple_intendStore s v
  | clean => exact simple_andIntend (simple_clean i)
  | closure => exact simple_andIntend (simple_makeClosure chunk i)
  | beginFunction => exact simple_andIntend (simple_beginFunction i)
  | bindArgs => exact simple_andIntend (simple_bindArgs i)
  | call => exact simple_intendCall i false
  | methodCall => exact simple_intendCall i true
  | ret => exact simple_intendReturn i
  | newTable =>
      exact simple_andIntend
        (.bind (.changeWorld World.tameWith_newTable) fun t => .push _)
  | initField => exact simple_andIntend simple_initField
  | initItem => exact simple_andIntend (simple_initItem i)
  | getIndex =>
      exact .bind .pop fun key => .bind .pop fun object =>
        simple_intendIndex _ _
  | getField =>
      exact .bind .pop fun object =>
        .bind (simple_valueOperand i) fun key => simple_intendIndex _ _
  | getMulti => exact simple_andIntend simple_getMulti
  | setIndex =>
      exact .bind .pop fun key => .bind .pop fun object =>
        .bind (simple_assigned i) fun v => simple_intendSetIndex _ _ _
  | setField =>
      exact .bind .pop fun object => .bind (simple_assigned i) fun v =>
        .bind (simple_valueOperand i) fun key => simple_intendSetIndex _ _ _
  | setMulti => exact simple_andIntend (simple_setMulti i)
  | jump => exact simple_andIntend (.jumpTo _)
  | jumpIfFalse => exact simple_andIntend (simple_jumpWhen i _)
  | jumpIfNil => exact simple_andIntend (simple_jumpWhen i _)
  | jumpIfTrueOrPop => exact simple_andIntend (simple_jumpOrPop i true)
  | jumpIfFalseOrPop => exact simple_andIntend (simple_jumpOrPop i false)
  | forCheck => exact simple_andIntend (simple_forCheck i)
  | forStep => exact simple_andIntend .forStep
  | toNumber => exact simple_andIntend (simple_toNumber i)
  | toBoolean => exact simple_andIntend (.bind .pop fun v => .push _)
  | iterPrepare => exact simple_andIntend simple_iterPrepare
  | iterUpdate => exact simple_andIntend simple_iterUpdate
  | concat => exact simple_intendBinary World.blind_resolveConcat
  | add => exact simple_intendBinary (World.blind_resolveArith .add)
  | sub => exact simple_intendBinary (World.blind_resolveArith .sub)
  | mul => exact simple_intendBinary (World.blind_resolveArith .mul)
  | div => exact simple_intendBinary (World.blind_resolveArith .div)
  | mod => exact simple_intendBinary (World.blind_resolveArith .mod)
  | pow => exact simple_intendBinary (World.blind_resolveArith .pow)
  | neg =>
      exact .bind .pop fun a => .bind (.ask (World.blind_resolveNegate a))
        fun r => .bind (.ofResult r) fun resolved => simple_intendResolved _
  | not => exact simple_andIntend (.bind .pop fun v => .push _)
  | length =>
      exact .bind .pop fun a =>
        .bind (.modifyWorld (World.tame_noteLength a)) fun _ =>
          .bind (.ask (World.blind_resolveLength a)) fun r =>
            .bind (.ofResult r) fun resolved => simple_intendResolved _
  | equal =>
      apply simple_intendBinary
      intro a b w
      exact congrArg Except.ok (World.blind_resolveEqual a b w)
  | less => exact simple_intendBinary World.blind_resolveLess
  | lessEqual => exact simple_intendBinary World.blind_resolveLessEqual
  | invalid => exact .internal _

theorem simple_stepIntent : Simple (stepIntent : Exec H Intent) := by
  refine .bind .fetch fun fetched => ?_
  exact simple_intent fetched.1 fetched.2

end Exec

end ScriptEngine
