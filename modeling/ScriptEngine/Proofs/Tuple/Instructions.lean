import ScriptEngine.Proofs.Machine.Simple
import ScriptEngine.Proofs.Tuple.Library

/-!
# Instructions on flat values

`Exec.Flows` says of a program that it keeps a flat world and a flat processor flat, fails with
flat errors only, and puts no tuple into a variable but where it is `fresh`.  Everything that
an instruction does flows, and one instruction alone has anything fresh: the one that binds
the arguments of a call.
-/

namespace ScriptEngine

variable {H : HostTypes} [HostObjects H] {α β : Type}

structure Core.Flat (c : Core H) : Prop where
  world : c.world.Flat
  proc : c.proc.Flat

def Outcome.Flat : Outcome → Prop
  | .finish frame v => frame.Flat ∧ v.Flat
  | .invoke _ args => args.Single
  | .recover e _ _ _ _ => e.Flat
  | .tailCall request _ _ => ∀ v ∈ request.args, v.Flat
  | .yield v => v.Flat
  | .return v => v.Flat
  | .proceed | .forceYield => True

namespace Exec

/-- How a run ends that keeps the world and the processor flat. -/
def FlowsTo (fresh : CellRef → Value → Prop) (P : α → Prop) (w : World H) :
    EStateM.Result RuntimeError (Core H) α → Prop
  | .ok a c => c.Flat ∧ w.Spares fresh c.world ∧ P a
  | .error e c => c.Flat ∧ w.Spares fresh c.world ∧ e.Flat

def Flows (fresh : CellRef → Value → Prop) (x : Exec H α) (P : α → Prop) : Prop :=
  ∀ c : Core H, c.Flat → FlowsTo fresh P c.world (x c)

variable {fresh : CellRef → Value → Prop} {P : α → Prop} {Q : β → Prop}

theorem FlowsTo.bind {x : Exec H α} {f : α → Exec H β} {c : Core H}
    (hx : FlowsTo fresh P c.world (x c)) (hf : ∀ a, P a → Flows fresh (f a) Q) :
    FlowsTo fresh Q c.world ((x >>= f) c) := by
  rw [run_bind]
  cases hrun : x c with
  | error e c' =>
    rw [hrun] at hx
    exact hx
  | ok a c' =>
    rw [hrun] at hx
    obtain ⟨hc', hspares, ha⟩ := hx
    have hnext := hf a ha c' hc'
    dsimp only
    cases hend : f a c' with
    | ok b c'' =>
      rw [hend] at hnext
      exact ⟨hnext.1, hspares.trans hnext.2.1, hnext.2.2⟩
    | error e c'' =>
      rw [hend] at hnext
      exact ⟨hnext.1, hspares.trans hnext.2.1, hnext.2.2⟩

theorem flows_bind {x : Exec H α} {f : α → Exec H β} (hx : Flows fresh x P)
    (hf : ∀ a, P a → Flows fresh (f a) Q) : Flows fresh (x >>= f) Q := by
  intro c hc
  exact (hx c hc).bind hf

theorem flows_pure {a : α} (ha : P a) : Flows fresh (pure a : Exec H α) P := by
  intro _ hc
  exact ⟨hc, .refl _, ha⟩

theorem flows_throw {e : RuntimeError} (he : e.Flat) : Flows fresh (throw e : Exec H α) P := by
  intro _ hc
  exact ⟨hc, .refl _, he⟩

theorem flows_internal (reason : String) : Flows fresh (internal reason : Exec H α) P :=
  flows_throw trivial

theorem flows_ofResult {r : Except RuntimeError α} (hr : FlatResult P r) :
    Flows fresh (ofResult r : Exec H α) P := by
  cases r with
  | ok a => exact flows_pure hr
  | error e => exact flows_throw hr

theorem flows_ofScript {r : Except ScriptError α} (hr : FlatScript P r) :
    Flows fresh (ofScript r : Exec H α) P := by
  cases r with
  | ok a => exact flows_pure hr
  | error e => exact flows_throw hr

theorem flows_ask {f : World H → α} (hf : ∀ w : World H, w.Flat → P (f w)) :
    Flows fresh (ask f) P := by
  intro _ hc
  exact ⟨hc, .refl _, hf _ hc.world⟩

theorem flows_askProc {f : Processor → α} (hf : ∀ p : Processor, p.Flat → P (f p)) :
    Flows fresh (askProc f : Exec H α) P := by
  intro _ hc
  exact ⟨hc, .refl _, hf _ hc.proc⟩

/-- A question whose answer may be anything. -/
theorem flows_look (f : Processor → α) : Flows fresh (askProc f : Exec H α) fun _ => True := by
  refine flows_askProc fun _ _ => ?_
  trivial

theorem flows_modifyWorld {f : World H → World H} (hf : ∀ w : World H, w.Flat → (f w).Flat)
    (hspares : ∀ w : World H, w.Spares fresh (f w)) :
    Flows fresh (modifyWorld f) fun _ => True := by
  intro _ hc
  exact ⟨⟨hf _ hc.world, hc.proc⟩, hspares _, trivial⟩

theorem flows_changeWorld {f : World H → α × World H}
    (hf : ∀ w : World H, w.Flat → (f w).2.Flat)
    (hspares : ∀ w : World H, w.Spares fresh (f w).2) :
    Flows fresh (changeWorld f) fun _ => True := by
  intro _ hc
  exact ⟨⟨hf _ hc.world, hc.proc⟩, hspares _, trivial⟩

theorem flows_modifyProc {f : Processor → Processor} (hf : ∀ p : Processor, p.Flat → (f p).Flat) :
    Flows fresh (modifyProc f : Exec H Unit) fun _ => True := by
  intro _ hc
  exact ⟨⟨hc.world, hf _ hc.proc⟩, .refl _, trivial⟩

/-- A question to the world whose answer may be an error. -/
theorem flows_consult {f : World H → Except RuntimeError α} {g : α → Exec H β}
    (hf : ∀ w : World H, w.Flat → FlatResult P (f w)) (hg : ∀ a, P a → Flows fresh (g a) Q) :
    Flows fresh (do
      let a ← ofResult (← ask f)
      g a) Q := by
  refine flows_bind (flows_ask hf) fun _ hr => ?_
  exact flows_bind (flows_ofResult hr) hg

theorem flows_andProceed {x : Exec H Unit} (hx : Flows fresh x fun _ => True) :
    Flows fresh (andProceed x) Outcome.Flat := by
  refine flows_bind hx fun _ _ => ?_
  exact flows_pure trivial

/-! ## Operands -/

theorem flat_withStack {p : Processor} (hp : p.Flat) {stack : Stack Value}
    (hstack : ∀ v ∈ stack.items, v.Flat) : Processor.Flat { p with stack } :=
  ⟨hstack, hp.frames, hp.yielded, hp.chunk⟩

theorem flows_setStack {stack : Stack Value} (hstack : ∀ v ∈ stack.items, v.Flat) :
    Flows fresh (setStack stack : Exec H Unit) fun _ => True := by
  refine flows_modifyProc fun _ hp => ?_
  exact flat_withStack hp hstack

theorem flows_askStack :
    Flows fresh (askProc (·.stack) : Exec H (Stack Value)) fun stack =>
      ∀ v ∈ stack.items, v.Flat := by
  refine flows_askProc fun _ hp => ?_
  exact hp.stack

theorem flows_push {v : Value} (hv : v.Flat) :
    Flows fresh (push v : Exec H Unit) fun _ => True := by
  refine flows_modifyProc fun p hp => flat_withStack hp ?_
  exact List.forall_mem_cons.mpr ⟨hv, hp.stack⟩

theorem flows_pushAll {vs : List Value} (hvs : ∀ v ∈ vs, v.Flat) :
    Flows fresh (pushAll vs : Exec H Unit) fun _ => True := by
  refine flows_modifyProc fun p hp => flat_withStack hp ?_
  intro v hv
  simp only [Stack.items_pushAll, List.mem_append, List.mem_reverse] at hv
  rcases hv with hnew | hold
  · exact hvs v hnew
  · exact hp.stack v hold

theorem flows_pop : Flows fresh (pop : Exec H Value) Value.Flat := by
  refine flows_bind flows_askStack fun stack hstack => ?_
  split
  · next v rest hpop =>
    rw [Stack.pop?_eq_some_iff] at hpop
    subst hpop
    rw [Stack.items_push, List.forall_mem_cons] at hstack
    exact flows_bind (flows_setStack hstack.2) fun _ _ => flows_pure hstack.1
  · exact flows_internal _

theorem flows_popMany (n : Nat) :
    Flows fresh (popMany n : Exec H (List Value)) fun vs => ∀ v ∈ vs, v.Flat := by
  refine flows_bind flows_askStack fun stack hstack => ?_
  split
  · next vs rest hpop =>
    unfold Stack.popMany? at hpop
    split at hpop
    · cases hpop
      refine flows_bind (flows_setStack ?_) fun _ _ => flows_pure ?_
      · exact fun v hv => hstack v (List.mem_of_mem_drop hv)
      · exact fun v hv => hstack v (List.mem_of_mem_take (List.mem_reverse.mp hv))
    · cases hpop
  · exact flows_internal _

theorem flows_popPair :
    Flows fresh (popPair : Exec H (Value × Value)) fun pair => pair.1.Flat ∧ pair.2.Flat := by
  refine flows_bind flows_pop fun _ hb => ?_
  refine flows_bind flows_pop fun _ ha => ?_
  exact flows_pure ⟨ha, hb⟩

theorem flows_addOffsets (a b : Nat) : Flows fresh (addOffsets a b : Exec H Nat) fun _ => True := by
  unfold addOffsets
  split
  · exact flows_pure trivial
  · exact flows_throw trivial

theorem flows_peek (offset : Nat) : Flows fresh (peek offset : Exec H Value) Value.Flat := by
  refine flows_bind (flows_addOffsets _ _) fun _ _ => ?_
  refine flows_bind flows_askStack fun stack hstack => ?_
  split
  · next v hv => exact flows_pure (hstack v (List.mem_of_getElem? hv))
  · exact flows_internal _

theorem flows_assigned (i : Instruction) :
    Flows fresh (assigned i : Exec H Value) Value.Single := by
  refine flows_bind (flows_peek i.num) fun v _ => ?_
  exact flows_pure (v.single_tupleItem i.num2)

omit [HostObjects H] in
theorem flat_set {s : Stack Value} (hs : ∀ v ∈ s.items, v.Flat) (offset : Nat) {v : Value}
    (hv : v.Flat) : ∀ u ∈ (s.set offset v).items, u.Flat := by
  intro u hu
  rw [Stack.items_set] at hu
  rcases List.mem_or_eq_of_mem_set hu with hold | rfl
  · exact hs u hold
  · exact hv

theorem flows_swap (i : Instruction) : Flows fresh (swap i : Exec H Unit) fun _ => True := by
  refine flows_bind (flows_addOffsets _ _) fun _ _ => ?_
  refine flows_bind (flows_addOffsets _ _) fun _ _ => ?_
  refine flows_bind flows_askStack fun stack hstack => ?_
  split
  · next stack' hswap =>
    unfold Stack.swap? at hswap
    split at hswap
    · next a b ha hb =>
      cases hswap
      have ha := hstack a (List.mem_of_getElem? ha)
      have hb := hstack b (List.mem_of_getElem? hb)
      exact flows_setStack (flat_set (flat_set hstack _ hb) _ ha)
    · cases hswap
  · exact flows_internal _

/-! ## Frames and variables -/

omit [HostObjects H] in
theorem flat_withFrames {p : Processor} (hp : p.Flat) {frames : Stack Frame}
    (hframes : ∀ f ∈ frames.items, f.Flat) : Processor.Flat { p with frames } :=
  ⟨hp.stack, hframes, hp.yielded, hp.chunk⟩

theorem flows_askFrames :
    Flows fresh (askProc (·.frames) : Exec H (Stack Frame))
      fun frames => ∀ f ∈ frames.items, f.Flat := by
  refine flows_askProc fun _ hp => ?_
  exact hp.frames

theorem flows_topFrame : Flows fresh (topFrame : Exec H Frame) Frame.Flat := by
  refine flows_bind flows_askFrames fun frames hframes => ?_
  split
  · next f htop => exact flows_pure (hframes f (List.mem_of_mem_head? htop))
  · exact flows_internal _

theorem flows_setTopFrame {f : Frame} (hf : f.Flat) :
    Flows fresh (setTopFrame f : Exec H Unit) fun _ => True := by
  refine flows_modifyProc fun p hp => flat_withFrames hp fun g hg => ?_
  rw [Stack.items_set] at hg
  rcases List.mem_or_eq_of_mem_set hg with hold | rfl
  · exact hp.frames g hold
  · exact hf

theorem flows_popFrame? :
    Flows fresh (popFrame? : Exec H (Option Frame)) fun f? => ∀ f, f? = some f → f.Flat := by
  refine flows_bind flows_askFrames fun frames hframes => ?_
  split
  · next f rest hpop =>
    rw [Stack.pop?_eq_some_iff] at hpop
    subst hpop
    rw [Stack.items_push, List.forall_mem_cons] at hframes
    refine flows_bind (flows_modifyProc fun p hp => flat_withFrames hp hframes.2) fun _ _ => ?_
    refine flows_pure ?_
    rintro f' ⟨⟩
    exact hframes.1
  · exact flows_pure (by simp)

theorem flows_jumpTo (ip : Nat) : Flows fresh (jumpTo ip : Exec H Unit) fun _ => True := by
  refine flows_modifyProc fun _ hp => ?_
  exact ⟨hp.stack, hp.frames, hp.yielded, hp.chunk⟩

theorem flows_symbolCell (s : Symbol) :
    Flows fresh (symbolCell s : Exec H CellRef) fun _ => True := by
  refine flows_bind flows_topFrame fun frame _ => ?_
  cases s with
  | slot index name =>
    dsimp only
    split
    · exact flows_pure trivial
    · exact flows_internal _
  | captured index name =>
    dsimp only
    split
    · refine flows_bind (P := fun _ => True) (flows_ask fun _ _ => trivial) fun closure _ => ?_
      split
      · exact flows_pure trivial
      · exact flows_internal _
    · exact flows_internal _
  | global name env => exact flows_internal _

theorem flows_readSymbol (s : Symbol) : Flows fresh (readSymbol s : Exec H Value) Value.Flat := by
  refine flows_bind (flows_symbolCell s) fun c _ => ?_
  refine flows_ask fun _ hw => ?_
  exact hw.cells c

theorem flows_freshLocals (first n : Nat) (locals : Array CellRef) :
    Flows fresh (freshLocals first n locals : Exec H (Array CellRef)) fun _ => True := by
  induction n generalizing first locals with
  | zero => exact flows_pure trivial
  | succ n ih =>
    refine flows_bind (flows_changeWorld ?_ ?_) fun _ _ => ih _ _
    · exact fun _ hw => hw.newCell trivial
    · exact fun w => w.spares_newCell rfl

theorem flows_clean (i : Instruction) : Flows fresh (clean i : Exec H Unit) fun _ => True := by
  refine flows_bind flows_topFrame fun _ hframe => ?_
  refine flows_bind (flows_addOffsets _ _) fun _ _ => ?_
  refine flows_bind (flows_freshLocals _ _ _) fun _ _ => ?_
  exact flows_setTopFrame hframe

theorem flows_beginFunction (i : Instruction) :
    Flows fresh (beginFunction i : Exec H Unit) fun _ => True := by
  refine flows_bind flows_topFrame fun frame hframe => ?_
  have hcells : Flows fresh (changeWorld (·.newCells i.num) : Exec H _) fun _ => True :=
    flows_changeWorld (fun _ hw => hw.newCells i.num) fun w => w.spares_newCells i.num
  dsimp only
  split
  · exact flows_bind (P := fun _ => True) (flows_throw trivial) fun _ _ =>
      flows_bind hcells fun _ _ => flows_setTopFrame hframe
  · exact flows_bind hcells fun _ _ => flows_setTopFrame hframe

theorem flows_captureAll (symbols : List Symbol) :
    Flows fresh (captureAll symbols : Exec H (List CellRef)) fun _ => True := by
  induction symbols with
  | nil => exact flows_pure trivial
  | cons s rest ih =>
    exact flows_bind (flows_symbolCell s) fun _ _ => flows_bind ih fun _ _ => flows_pure trivial

theorem flows_makeClosure {chunk : Chunk} (hchunk : chunk.Flat) (i : Instruction) :
    Flows fresh (makeClosure chunk i : Exec H Unit) fun _ => True := by
  refine flows_bind (flows_captureAll i.symbols) fun upvalues _ => ?_
  refine flows_bind (flows_changeWorld ?_ ?_) fun _ _ => flows_push trivial
  · exact fun _ hw => hw.add hchunk
  · exact fun _ => .of_cells rfl

/-! ## Arguments -/

/-- What a parameter gets is flat, and a tuple only if it takes the rest of the arguments. -/
theorem flat_argumentFor (param : Symbol) (position : Nat) {args : List Value}
    (hargs : ∀ v ∈ args, v.Single) : (argumentFor param position args).Flat := by
  unfold argumentFor
  split
  · exact Value.flat_tupled fun v hv => (hargs v (List.mem_of_mem_drop hv)).flat
  · exact (Value.single_toStorable _).flat

theorem isVarargs_of_isTuple {param : Symbol} {position : Nat} {args : List Value}
    (h : (argumentFor param position args).isTuple = true) : param.isVarargs = true := by
  by_contra hvarargs
  rw [argumentFor, if_neg hvarargs, Value.single_toStorable] at h
  cases h

/-- The variables that take the rest of the arguments, with what they get. -/
def BindsRest (locals : Array CellRef) (args : List Value) (first : Nat) (params : List Symbol)
    (c : CellRef) (v : Value) : Prop :=
  ∃ (position index : Nat) (name : String),
    params[position]? = some (.slot index name) ∧ (Symbol.slot index name).isVarargs = true ∧
      locals[index]? = some c ∧ v = .tupled (args.drop (first + position))

theorem flows_bindParams (locals : Array CellRef) {args : List Value}
    (hargs : ∀ v ∈ args, v.Single) (first : Nat) (params : List Symbol)
    (hfresh : ∀ c v, BindsRest locals args first params c v → fresh c v) :
    Flows fresh (bindParams locals args first params : Exec H Unit) fun _ => True := by
  induction params generalizing first with
  | nil => exact flows_pure trivial
  | cons param rest ih =>
    unfold bindParams
    split
    · next index name =>
      split
      · next c hc =>
        have hflat := flat_argumentFor (.slot index name) first hargs
        refine flows_bind (flows_modifyWorld (fun w hw => hw.setCell c hflat) fun w => ?_)
          fun _ _ => ih (first + 1) ?_
        · refine w.spares_setCell c fun htuple => hfresh _ _ ?_
          have hvarargs := isVarargs_of_isTuple htuple
          exact ⟨0, index, name, rfl, hvarargs, hc, by simp [argumentFor, hvarargs]⟩
        · rintro c v ⟨position, index, name, hparam, hvarargs, hc, rfl⟩
          refine hfresh _ _ ⟨position + 1, index, name, hparam, hvarargs, hc, ?_⟩
          rw [Nat.add_assoc, Nat.add_comm 1]
      · exact flows_internal _
    · exact flows_internal _

/-! ## Tables -/

theorem flows_modifyTable (t : TableRef) {f : Table → Table}
    (hf : ∀ t : Table, t.Arises → (f t).Arises) :
    Flows fresh (modifyWorld (·.modifyTable t f) : Exec H Unit) fun _ => True := by
  refine flows_modifyWorld (fun _ hw => hw.modifyTable t hf) fun w => ?_
  exact .of_cells (World.cells_modifyObject w _ _)

theorem flows_tableOperand : Flows fresh (tableOperand : Exec H TableRef) fun _ => True := by
  refine flows_bind (flows_peek 0) fun v _ => ?_
  split
  · exact flows_pure trivial
  · exact flows_internal _

theorem flows_initField : Flows fresh (initField : Exec H Unit) fun _ => True := by
  refine flows_bind flows_pop fun value _ => ?_
  refine flows_bind flows_pop fun key _ => ?_
  refine flows_bind flows_tableOperand fun t _ => ?_
  split
  · next k hk =>
    refine flows_modifyTable t fun t ht => ?_
    simpa only [Value.toScalar_toScalar] using ht.setKey hk value.storable_toStorable
  · exact flows_throw (ScriptError.flat_of_payload rfl)

theorem flows_fillItems (t : TableRef) (i : Int) (values : List Value) :
    Flows fresh (fillItems t i values : Exec H Unit) fun _ => True := by
  induction values generalizing i with
  | nil => exact flows_pure trivial
  | cons v rest ih =>
    unfold fillItems
    split
    · refine flows_bind (P := fun _ => True) ?_ fun _ _ => ih _
      exact flows_modifyTable t fun t ht => ht.perform (.setInteger i _)
    · exact flows_throw trivial

theorem flows_initItem (i : Instruction) :
    Flows fresh (initItem i : Exec H Unit) fun _ => True := by
  refine flows_bind flows_pop fun value _ => ?_
  refine flows_bind flows_tableOperand fun t _ => ?_
  split <;> exact flows_fillItems _ _ _

theorem flows_getMulti : Flows fresh (getMulti : Exec H Unit) fun _ => True := by
  refine flows_bind flows_pop fun keys hkeys => ?_
  refine flows_bind flows_pop fun object _ => ?_
  dsimp only
  split
  · exact flows_consult (fun w hw => hw.userIndex _ hkeys) fun v hv => flows_push hv
  · exact flows_throw (ScriptError.flat_of_payload rfl)

theorem flows_setMulti (i : Instruction) :
    Flows fresh (setMulti i : Exec H Unit) fun _ => True := by
  refine flows_bind flows_pop fun keys hkeys => ?_
  refine flows_bind flows_pop fun object _ => ?_
  refine flows_bind (flows_assigned i) fun value hvalue => ?_
  split
  · refine flows_consult (fun w hw => hw.userAssign _ hkeys hvalue) fun o _ => ?_
    exact flows_modifyWorld (fun w hw => hw.setUserObject _ o) fun w =>
      .of_cells (World.cells_modifyObject w _ _)
  · exact flows_throw (ScriptError.flat_of_payload rfl)

/-! ## Loops -/

theorem flows_numberOperand (offset : Nat) :
    Flows fresh (numberOperand offset : Exec H Float) fun _ => True := by
  refine flows_bind (flows_peek offset) fun v _ => ?_
  split
  · exact flows_pure trivial
  · exact flows_internal _

theorem flows_forState : Flows fresh (forState : Exec H (Float × Float × Float)) fun _ => True := by
  refine flows_bind (flows_numberOperand 2) fun _ _ => ?_
  refine flows_bind (flows_numberOperand 1) fun _ _ => ?_
  refine flows_bind (flows_numberOperand 0) fun _ _ => ?_
  exact flows_pure trivial

theorem flows_forCheck (i : Instruction) :
    Flows fresh (forCheck i : Exec H Unit) fun _ => True := by
  refine flows_bind flows_forState fun state _ => ?_
  dsimp only
  split <;> split
  all_goals
    first
    | exact flows_jumpTo _
    | exact flows_pure trivial

theorem flows_forStep : Flows fresh (forStep : Exec H Unit) fun _ => True := by
  refine flows_bind flows_forState fun _ _ => ?_
  refine flows_modifyProc fun _ hp => ?_
  exact flat_withStack hp (flat_set hp.stack 2 trivial)

theorem flows_toNumber (i : Instruction) :
    Flows fresh (toNumber i : Exec H Unit) fun _ => True := by
  refine flows_bind flows_pop fun v _ => ?_
  split
  · exact flows_push trivial
  · exact flows_throw (ScriptError.flat_of_payload rfl)

theorem flows_iterPrepare : Flows fresh (iterPrepare : Exec H Unit) fun _ => True := by
  refine flows_bind flows_pop fun v _ => flows_pushAll ?_
  simp only [List.forall_mem_cons, List.not_mem_nil, false_implies, implies_true, and_true]
  exact ⟨(Value.single_toStorable _).flat, (Value.single_toStorable _).flat,
    (Value.single_toStorable _).flat⟩

theorem flows_iterUpdate : Flows fresh (iterUpdate : Exec H Unit) fun _ => True := by
  refine flows_bind flows_pop fun v _ => ?_
  refine flows_bind flows_pop fun _ _ => ?_
  exact flows_push (v.single_tupleItem 0).flat

theorem flows_jumpWhen (i : Instruction) (condition : Value → Bool) :
    Flows fresh (jumpWhen i condition : Exec H Unit) fun _ => True := by
  refine flows_bind flows_pop fun v _ => ?_
  split
  · exact flows_jumpTo _
  · exact flows_pure trivial

theorem flows_jumpOrPop (i : Instruction) (truth : Bool) :
    Flows fresh (jumpOrPop i truth : Exec H Unit) fun _ => True := by
  refine flows_bind (flows_peek 0) fun v _ => ?_
  split
  · exact flows_jumpTo _
  · exact flows_bind flows_pop fun _ _ => flows_pure trivial

end Exec

end ScriptEngine
