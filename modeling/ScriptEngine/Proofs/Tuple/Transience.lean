import ScriptEngine.Proofs.Coroutine.Nesting
import ScriptEngine.Proofs.Tuple.Calls

/-!
# Tuples are flat and transient

In every state of an engine that is supplied with flat values only, all values on their way
are flat: operands, results, errors and what coroutines hand to one another.  What a function
gets as an argument is no tuple, tables hold neither tuples nor Void, and a variable that
holds a tuple was bound to a parameter that takes the rest of the arguments.
-/

namespace ScriptEngine

variable {H : HostTypes}

def LoopExit.Flat : LoopExit → Prop
  | .returned v => v.Flat
  | .yielded v => v.Flat
  | .forceYielded => True

section

variable [HostObjects H]

/-- What goes on with a result supplies flat values if the result is flat. -/
def Waiter.Flat : Waiter H → Prop
  | .action next => ∀ r, FlatResult Value.Flat r → (next r).Supplies NativeOutcome.Flat
  | .decorated e _ => e.Flat
  | .refused e _ _ _ => e.Flat
  | .recovered _ _ | .caught _ _ | .processor => True

def Activation.Flat : Activation H → Prop
  | .call mark waiter => (∀ chunk, mark.chunk? = some chunk → chunk.Flat) ∧ waiter.Flat
  | .body => True
  | .switch _ outer next =>
      outer.Flat ∧ ∀ r, FlatResult Value.Flat r → (next r).Supplies NativeOutcome.Flat

def Control.Flat : Control H → Prop
  | .loop o => o.Flat
  | .failed e => e.Flat
  | .unwinding e _ => e.Flat
  | .calling _ args waiter => (∀ v ∈ args, v.Flat) ∧ waiter.Flat
  | .leaving exit => FlatResult LoopExit.Flat exit
  | .answering waiter result => waiter.Flat ∧ FlatResult Value.Flat result
  | .switching exit => FlatResult LoopExit.Flat exit
  | .running a => a.Supplies NativeOutcome.Flat
  | .settling o => o.Flat
  | .finished result => FlatResult Value.Flat result

namespace Machine

structure Flat (m : Machine H) : Prop where
  core : m.core.Flat
  activations : ∀ a ∈ m.activations, a.Flat
  control : m.control.Flat

end Machine

end

namespace Machine

/-- The step binds the variable to a parameter that takes the rest of the arguments. -/
def Binds (m : Machine H) (cell : CellRef) (v : Value) : Prop :=
  m.control = .loop .proceed ∧ m.core.Binds cell v

/-- A flat machine whose variables hold the tuples of a world, and fresh ones. -/
structure FlowsFrom [HostObjects H] (fresh : CellRef → Value → Prop) (w : World H)
    (m : Machine H) : Prop where
  flat : m.Flat
  spares : w.Spares fresh m.core.world

/-! ## Worlds between coroutines -/

section

variable [HostObjects H] {w w' : World H}

theorem FlowsFrom.after {fresh : CellRef → Value → Prop} {m : Machine H}
    (h : m.FlowsFrom fresh w') (hspares : w.Spares fresh w') : m.FlowsFrom fresh w :=
  ⟨h.flat, hspares.trans h.spares⟩

theorem flat_engage (hw : w.Flat) (r : CoroutineRef) : (w.engage r).Flat := by
  have h : (w.modifyCoroutine r fun c =>
      { c with state := c.state.engaged, processor? := none }).Flat := by
    refine hw.modifyCoroutine r fun c _ p hp => ?_
    cases hp
  exact h.of_parts rfl rfl h.answers

theorem flat_release (hw : w.Flat) (r : CoroutineRef) {p : Processor} (hp : p.Flat)
    (exit : Except RuntimeError LoopExit) : (w.release r p exit).Flat := by
  have h : (w.modifyCoroutine r fun c =>
      { c with state := c.state.after exit, processor? := some p }).Flat := by
    refine hw.modifyCoroutine r fun c _ q hq => ?_
    cases hq
    exact hp
  exact h.of_parts rfl rfl h.answers

omit [HostObjects H] in
theorem flat_resumeRefusal {r : CoroutineRef} {args : List Value} {e : RuntimeError}
    (h : w.resumeRefusal? r args = some e) : e.Flat := by
  simp only [World.resumeRefusal?] at h
  split_ifs at h <;> cases h
  all_goals first | trivial | exact ScriptError.flat_of_payload rfl

end

variable [Host H]

/-- A function of the host that is invoked now supplies flat values. -/
def HostSupplies (m : Machine H) : Prop :=
  ∀ f args native g, m.control = .loop (.invoke f args) →
    m.core.world.native? f = some native → native.body = .host g →
      (m.core.invoke f args).Supplies NativeOutcome.Flat

variable {fresh : CellRef → Value → Prop} {core : Core H} {activations : List (Activation H)}

theorem flows_exec {route : Route} {x : Exec H Outcome}
    (hx : Exec.FlowsTo fresh Outcome.Flat core.world (x core))
    (hactivations : ∀ a ∈ activations, a.Flat) :
    (exec route x core activations).FlowsFrom fresh core.world := by
  unfold exec
  cases hrun : x core with
  | ok o core' =>
    rw [hrun] at hx
    cases route <;> exact ⟨⟨hx.1, hactivations, hx.2.2⟩, hx.2.1⟩
  | error e core' =>
    rw [hrun] at hx
    cases route <;> exact ⟨⟨hx.1, hactivations, hx.2.2⟩, hx.2.1⟩

/-! ## Loops -/

omit [Host H] in
theorem flat_same {p p' : Processor} (hp : p.Flat) (hstack : p'.stack = p.stack)
    (hframes : p'.frames = p.frames) (hyielded : p'.yielded? = p.yielded?)
    (hchunk : p'.chunk? = p.chunk?) : p'.Flat := by
  constructor
  · rw [hstack]
    exact hp.stack
  · rw [hframes]
    exact hp.frames
  · rw [hyielded]
    exact hp.yielded
  · rw [hchunk]
    exact hp.chunk

theorem flat_counted (hcore : core.Flat) : (counted core).Flat := by
  refine ⟨hcore.world, ?_⟩
  unfold counted
  rw [countInstruction_eq]
  exact flat_same hcore.proc rfl rfl rfl rfl

theorem flowsTo_poll (hcore : core.Flat) (hfresh : ∀ cell v, core.Binds cell v → fresh cell v) :
    Exec.FlowsTo fresh Outcome.Flat core.world (Exec.poll core) := by
  have hcounted := flat_counted hcore
  rcases poll_cases core with hrun | hrun | hrun <;> rw [hrun]
  · exact ⟨hcore, .refl _, trivial⟩
  · exact ⟨hcounted, .refl _, trivial⟩
  · refine Exec.flowsTo_step hcounted fun cell v hbinds => hfresh cell v ?_
    unfold counted at hbinds
    rwa [countInstruction_eq] at hbinds

theorem supplies_invoke {f : NativeRef} {args : Arguments} (hargs : args.Single)
    (hhost : ∀ native g, core.world.native? f = some native → native.body = .host g →
      (core.invoke f args).Supplies NativeOutcome.Flat) :
    (core.invoke f args).Supplies NativeOutcome.Flat := by
  rcases core.invoke_cases f args with
    hinvoke | ⟨native, g, -, -, hinvoke⟩ | ⟨native, g, hnative, hbody, -⟩
  · rw [hinvoke]
    trivial
  · rw [hinvoke]
    exact g.supplies_action _ hargs
  · exact hhost native g hnative hbody

omit [Host H] in
theorem flat_forget {p : Processor} (hp : p.Flat) : Processor.Flat { p with yielded? := none } := by
  refine ⟨hp.stack, hp.frames, ?_, hp.chunk⟩
  simp

omit [Host H] in
theorem flat_truncateFrames {p : Processor} (hp : p.Flat) (height : Nat) :
    Processor.Flat { p with frames := p.frames.truncate height } := by
  refine Exec.flat_withFrames hp fun f hf => ?_
  exact hp.frames f (List.mem_of_mem_drop hf)

theorem flows_afterOutcome {o : Outcome} (hcore : core.Flat) (ho : o.Flat)
    (hactivations : ∀ a ∈ activations, a.Flat)
    (hfresh : o = .proceed → ∀ cell v, core.Binds cell v → fresh cell v)
    (hhost : ∀ f args native g, o = .invoke f args →
      core.world.native? f = some native → native.body = .host g →
        (core.invoke f args).Supplies NativeOutcome.Flat) :
    (afterOutcome core activations o).FlowsFrom fresh core.world := by
  cases o with
  | proceed => exact flows_exec (flowsTo_poll hcore (hfresh rfl)) hactivations
  | finish frame v => exact flows_exec (Exec.flows_finish frame ho.2 core hcore) hactivations
  | invoke f args =>
    refine ⟨⟨hcore, hactivations, ?_⟩, .of_cells rfl⟩
    exact supplies_invoke ho fun native g => hhost f args native g rfl
  | recover e decorator? handler flags returnAddress =>
    have hvalue := List.forall_mem_singleton.mpr (ScriptError.Flat.value ho)
    cases decorator? with
    | none => exact ⟨⟨hcore, hactivations, hvalue, trivial⟩, .of_cells rfl⟩
    | some decorator => exact ⟨⟨hcore, hactivations, hvalue, ho⟩, .of_cells rfl⟩
  | tailCall request flags returnAddress =>
    exact flows_exec (Exec.flows_callRequest ho _ _ core hcore) hactivations
  | yield v =>
    unfold afterOutcome
    rcases checkYield_cases core with hrun | ⟨violation, hrun⟩
    · rw [hrun]
      exact ⟨⟨hcore, hactivations, ho⟩, .of_cells rfl⟩
    · rw [hrun]
      exact ⟨⟨⟨hcore.world, flat_forget hcore.proc⟩, hactivations, trivial⟩, .of_cells rfl⟩
  | forceYield => exact ⟨⟨hcore, hactivations, trivial⟩, .of_cells rfl⟩
  | «return» v => exact ⟨⟨hcore, hactivations, ho⟩, .of_cells rfl⟩

omit [Host H] in
theorem flat_located {p : Processor} {w : World H} {floor : Nat} {e : ScriptError}
    (he : e.Flat) : (p.located w floor e).Flat := by
  unfold Processor.located
  dsimp only
  split <;> exact he.withLocation _

theorem flows_afterFailure {e : RuntimeError} (hcore : core.Flat) (he : e.Flat)
    (hactivations : ∀ a ∈ activations, a.Flat) :
    (afterFailure core activations e).FlowsFrom fresh core.world := by
  have hcut := flat_truncateFrames hcore.proc (frameFloor activations)
  cases e with
  | script e => exact ⟨⟨hcore, hactivations, flat_located he⟩, .of_cells rfl⟩
  | _ => exact ⟨⟨⟨hcore.world, hcut⟩, hactivations, trivial⟩, .of_cells rfl⟩

theorem flows_catchError {e : ScriptError} (hcore : core.Flat) (he : e.Flat)
    (hactivations : ∀ a ∈ activations, a.Flat) :
    (catchError core activations e).FlowsFrom fresh core.world := by
  have hvalue := List.forall_mem_singleton.mpr he.value
  have hcut := flat_truncateFrames hcore.proc
  rcases catchError_cases core activations e with
    ⟨frame, handler, n, -, hcaught⟩ | ⟨n, -, hcaught⟩
  all_goals rw [hcaught]
  · exact ⟨⟨⟨hcore.world, Exec.flat_truncateStack (hcut n) _⟩, hactivations, hvalue, trivial⟩,
      .of_cells rfl⟩
  · exact ⟨⟨⟨hcore.world, hcut n⟩, hactivations, he⟩, .of_cells rfl⟩

theorem flows_beginCall (function : Value) {args : List Value} {waiter : Waiter H}
    (hcore : core.Flat) (hargs : ∀ v ∈ args, v.Flat) (hwaiter : waiter.Flat)
    (hactivations : ∀ a ∈ activations, a.Flat) :
    (beginCall core activations function args waiter).FlowsFrom fresh core.world := by
  rcases beginCall_cases core activations function args waiter with hbegin | ⟨-, hbegin⟩
  all_goals rw [hbegin]
  · exact ⟨⟨hcore, hactivations, hwaiter, ScriptError.flat_of_payload rfl⟩, .of_cells rfl⟩
  · have hnested : core.nested.Flat := ⟨hcore.world, flat_same hcore.proc rfl rfl rfl rfl⟩
    refine flows_exec (Exec.flows_call function hargs _ _ _ _ hnested) ?_
    exact List.forall_mem_cons.mpr ⟨⟨hcore.proc.chunk, hwaiter⟩, hactivations⟩

theorem flows_leave {exit : Except RuntimeError LoopExit} (hcore : core.Flat)
    (hexit : FlatResult LoopExit.Flat exit) (hactivations : ∀ a ∈ activations, a.Flat) :
    (leave core activations exit).FlowsFrom fresh core.world := by
  unfold leave
  split
  · next mark waiter rest =>
    obtain ⟨⟨hchunk, hwaiter⟩, hrest⟩ := List.forall_mem_cons.mp hactivations
    have hback : Processor.Flat
        { core.proc with
          nesting := core.proc.nesting - 1, ip := mark.ip, chunk? := mark.chunk? } :=
      ⟨hcore.proc.stack, hcore.proc.frames, hcore.proc.yielded, hchunk⟩
    have hcut := Exec.flat_truncateStack (flat_truncateFrames hback mark.frames) mark.stack
    unfold endCall
    dsimp only
    rcases exit with e | exit
    · exact ⟨⟨⟨hcore.world, hcut⟩, hrest, hwaiter, hexit⟩, .of_cells rfl⟩
    · cases exit with
      | returned v => exact ⟨⟨⟨hcore.world, hback⟩, hrest, hwaiter, hexit⟩, .of_cells rfl⟩
      | yielded v => exact ⟨⟨⟨hcore.world, hcut⟩, hrest, hwaiter, trivial⟩, .of_cells rfl⟩
      | forceYielded => exact ⟨⟨⟨hcore.world, hcut⟩, hrest, hwaiter, trivial⟩, .of_cells rfl⟩
  · next rest =>
    obtain ⟨-, hrest⟩ := List.forall_mem_cons.mp hactivations
    unfold endBody
    dsimp only
    cases exit with
    | ok exit =>
      exact ⟨⟨⟨hcore.world, flat_same hcore.proc rfl rfl rfl rfl⟩, hrest, hexit⟩, .of_cells rfl⟩
    | error e =>
      refine ⟨⟨⟨hcore.world, ?_⟩, hrest, hexit⟩, .of_cells rfl⟩
      constructor
      · simp
      · simp
      · simp
      · exact hcore.proc.chunk
  · exact ⟨⟨hcore, hactivations, trivial⟩, .of_cells rfl⟩

omit [Host H] in
theorem flat_afterDecorator {e : ScriptError} {result : Except RuntimeError Value} :
    (afterDecorator e result).Flat := by
  cases result with
  | ok v => exact ScriptError.flat_replaceValue v.single_toStorable.flat
  | error e => exact ScriptError.flat_of_payload rfl

theorem flows_answer {waiter : Waiter H} {result : Except RuntimeError Value}
    (hcore : core.Flat) (hwaiter : waiter.Flat) (hresult : FlatResult Value.Flat result)
    (hactivations : ∀ a ∈ activations, a.Flat) :
    (answer core activations result waiter).FlowsFrom fresh core.world := by
  cases waiter with
  | action next => exact ⟨⟨hcore, hactivations, hwaiter result hresult⟩, .of_cells rfl⟩
  | decorated e rest => exact ⟨⟨hcore, hactivations, flat_afterDecorator⟩, .of_cells rfl⟩
  | refused e handler flags returnAddress =>
    have herror : (afterDecorator e result).Flat := flat_afterDecorator
    have hvalue := List.forall_mem_singleton.mpr herror.value
    exact ⟨⟨hcore, hactivations, hvalue, trivial⟩, .of_cells rfl⟩
  | recovered flags returnAddress =>
    cases result with
    | ok v =>
      refine flows_exec (Exec.flows_deliver flags returnAddress ?_ core hcore) hactivations
      rintro _ ⟨⟩
      exact hresult
    | error e => exact ⟨⟨hcore, hactivations, hresult⟩, .of_cells rfl⟩
  | caught flags returnAddress =>
    cases result with
    | ok v =>
      refine flows_exec (Exec.flows_deliver flags returnAddress ?_ core hcore) hactivations
      rintro _ ⟨⟩
      exact hresult
    | error e => exact ⟨⟨hcore, hactivations, hresult⟩, .of_cells rfl⟩
  | processor =>
    exact ⟨⟨hcore, hactivations, hresult.map fun v hv => hv⟩, .of_cells rfl⟩

theorem flows_settle {o : Outcome} (hcore : core.Flat) (ho : o.Flat)
    (hactivations : ∀ a ∈ activations, a.Flat) :
    (settle core activations o).FlowsFrom fresh core.world := by
  cases o with
  | finish frame v =>
    exact flows_exec (Exec.flows_finish frame ho.2 core hcore) hactivations
  | _ => exact ⟨⟨hcore, hactivations, ho⟩, .of_cells rfl⟩

/-! ## Coroutines -/

/-- A processor that rested is taken up. -/
theorem flows_runCoroutine {w : World H} {c : Coroutine} {p : Processor} {args : List Value}
    (hw : w.Flat) (hp : p.Flat) (hargs : ∀ v ∈ args, v.Flat)
    (hactivations : ∀ a ∈ activations, a.Flat) :
    (runCoroutine w activations c p args).FlowsFrom fresh w := by
  have henter : p.enterOutermost.Flat := flat_same hp rfl rfl rfl rfl
  have hbody : ∀ a ∈ Activation.body :: activations, a.Flat :=
    List.forall_mem_cons.mpr ⟨trivial, hactivations⟩
  have hroused := roused_runCoroutine w activations c p args
  generalize runCoroutine w activations c p args = m at hroused ⊢
  cases hroused with
  | native hkind => exact ⟨⟨⟨hw, hp⟩, hactivations, hargs, trivial⟩, .of_cells rfl⟩
  | first hkind hstate =>
    have hstart : Core.Flat (⟨w, p.enterOutermost⟩ : Core H) := ⟨hw, henter⟩
    exact flows_exec (Exec.flows_call c.entry hargs _ _ _ _ hstart) hbody
  | lost hkind hstate hyielded =>
    exact ⟨⟨⟨hw, hp⟩, hactivations, trivial⟩, .of_cells rfl⟩
  | yielded frame hkind hstate hyielded =>
    refine ⟨⟨⟨hw, flat_forget henter⟩, hbody, ?_⟩, .of_cells rfl⟩
    exact ⟨hp.yielded frame hyielded, Value.flat_tupled hargs⟩
  | forced hkind hfirst hyielded => exact ⟨⟨⟨hw, henter⟩, hbody, trivial⟩, .of_cells rfl⟩

section

variable {args : List Value} {next : Except RuntimeError Value → Action H NativeOutcome}

theorem flows_resume (r : CoroutineRef) (hcore : core.Flat) (hargs : ∀ v ∈ args, v.Flat)
    (hnext : ∀ result, FlatResult Value.Flat result →
      (next result).Supplies NativeOutcome.Flat)
    (hactivations : ∀ a ∈ activations, a.Flat) :
    (resume core activations r args next).FlowsFrom fresh core.world := by
  rcases resume_cases core activations r args next with
    ⟨e, hrefusal, hresume⟩ | ⟨c, p, hc, hp, -, -, hresume⟩
  all_goals rw [hresume]
  · refine ⟨⟨hcore, hactivations, hnext _ ?_⟩, .of_cells rfl⟩
    exact flat_resumeRefusal hrefusal
  · have hproc : p.Flat := by
      rw [← World.coroutine_of_coroutine? hc] at hp
      exact hcore.world.coroutine r hp
    have hswitch : ∀ a ∈ Activation.switch r core.proc next :: activations, a.Flat :=
      List.forall_mem_cons.mpr ⟨⟨hcore.proc, hnext⟩, hactivations⟩
    refine (flows_runCoroutine (flat_engage hcore.world r) hproc hargs hswitch).after ?_
    exact .of_cells (World.cells_modifyObject _ _ _)

theorem flows_enterMain (function : Value) (hcore : core.Flat) (hargs : ∀ v ∈ args, v.Flat)
    (hnext : ∀ result, FlatResult Value.Flat result →
      (next result).Supplies NativeOutcome.Flat)
    (hactivations : ∀ a ∈ activations, a.Flat) :
    (enterMain core activations function args next).FlowsFrom fresh core.world := by
  rcases enterMain_cases core activations function args next with
    henter | ⟨c, q, hc, hq, henter⟩
  all_goals rw [henter]
  · exact ⟨⟨hcore, hactivations, hnext _ trivial⟩, .of_cells rfl⟩
  · rw [← World.coroutine_of_coroutine? hc] at hq
    have hswitch : ∀ a ∈ Activation.switch core.world.main core.proc next :: activations,
        a.Flat := List.forall_mem_cons.mpr ⟨⟨hcore.proc, hnext⟩, hactivations⟩
    refine ⟨⟨⟨flat_engage hcore.world _, hcore.world.coroutine _ hq⟩, hswitch, hargs, trivial⟩, ?_⟩
    exact .of_cells (World.cells_modifyObject _ _ _)

end

theorem flows_switchBack {exit : Except RuntimeError LoopExit} (hcore : core.Flat)
    (hexit : FlatResult LoopExit.Flat exit) (hactivations : ∀ a ∈ activations, a.Flat) :
    (switchBack core activations exit).FlowsFrom fresh core.world := by
  unfold switchBack
  dsimp only
  split
  · next r outer next rest =>
    obtain ⟨⟨houter, hnext⟩, hrest⟩ := List.forall_mem_cons.mp hactivations
    have hworld := flat_release hcore.world r hcore.proc exit
    refine ⟨⟨⟨hworld, houter⟩, hrest, hnext _ (hexit.map fun o ho => ?_)⟩, ?_⟩
    · cases o with
      | forceYielded => trivial
      | _ => exact ho
    · exact .of_cells (World.cells_modifyObject _ _ _)
  · exact ⟨⟨hcore, hactivations, trivial⟩, .of_cells rfl⟩

/-! ## Steps -/

theorem flows_act {a : Action H NativeOutcome} (hcore : core.Flat)
    (ha : a.Supplies NativeOutcome.Flat) (hactivations : ∀ a ∈ activations, a.Flat) :
    (act core activations a).FlowsFrom fresh core.world := by
  cases a with
  | done outcome =>
    cases activations with
    | nil =>
      refine ⟨⟨hcore, hactivations, ?_⟩, .of_cells rfl⟩
      cases outcome with
      | result v => exact ha
      | _ => trivial
    | cons top rest => exact flows_exec (Exec.flows_completeNative ha core hcore) hactivations
  | fail e =>
    cases activations with
    | nil => exact ⟨⟨hcore, hactivations, ha⟩, .of_cells rfl⟩
    | cons top rest => exact ⟨⟨hcore, hactivations, ha⟩, .of_cells rfl⟩
  | read next => exact ⟨⟨hcore, hactivations, ha core.world hcore.world⟩, .of_cells rfl⟩
  | write change next =>
    have hchange := ha.1 core.world
    exact ⟨⟨⟨hchange.flat hcore.world, hcore.proc⟩, hactivations, ha.2⟩, hchange.spares⟩
  | call function args next => exact ⟨⟨hcore, hactivations, ha⟩, .of_cells rfl⟩
  | resume r args next => exact flows_resume r hcore ha.1 ha.2 hactivations
  | enterMain function args next => exact flows_enterMain function hcore ha.1 ha.2 hactivations

variable {m : Machine H}

/-- A step keeps a machine flat, and what tuples it puts into variables are rests of arguments. -/
theorem Flat.next (h : m.Flat) (hhost : m.HostSupplies) :
    m.next.FlowsFrom m.Binds m.core.world := by
  obtain ⟨core, activations, control⟩ := m
  obtain ⟨hcore, hactivations, hcontrol⟩ := h
  cases control with
  | loop o =>
    refine flows_afterOutcome hcore hcontrol hactivations ?_ ?_
    · rintro rfl cell v hbinds
      exact ⟨rfl, hbinds⟩
    · rintro f args native g rfl hnative hbody
      exact hhost f args native g rfl hnative hbody
  | failed e => exact flows_afterFailure hcore hcontrol hactivations
  | unwinding e decorators =>
    cases decorators with
    | nil => exact flows_catchError hcore hcontrol hactivations
    | cons d rest =>
      have hvalue := List.forall_mem_singleton.mpr (ScriptError.Flat.value hcontrol)
      exact ⟨⟨hcore, hactivations, hvalue, hcontrol⟩, .of_cells rfl⟩
  | calling function args waiter =>
    exact flows_beginCall function hcore hcontrol.1 hcontrol.2 hactivations
  | leaving exit => exact flows_leave hcore hcontrol hactivations
  | answering waiter result => exact flows_answer hcore hcontrol.1 hcontrol.2 hactivations
  | switching exit => exact flows_switchBack hcore hcontrol hactivations
  | running a => exact flows_act hcore hcontrol hactivations
  | settling o => exact flows_settle hcore hcontrol hactivations
  | finished result => exact ⟨⟨hcore, hactivations, hcontrol⟩, .of_cells rfl⟩

end Machine

end ScriptEngine
