import ScriptEngine.Proofs.Coroutine.Schedule
import ScriptEngine.Proofs.Machine.Results
import ScriptEngine.Proofs.Machine.Steps

/-!
# How loops and coroutines nest

The activations of a machine are a stack of loops and switches from one
coroutine to another.  Which of them may stand on which, and which control goes
with what is innermost, is `Machine.WellNested`; besides, a well nested machine has
in flight exactly the coroutines it switched to.  `Machine.Turn` says everything a
step can do to the activations and to the coroutines.
-/

namespace ScriptEngine

variable {H : HostTypes}

/-- The coroutine that takes over with an activation. -/
def Activation.coroutine? : Activation H → Option CoroutineRef
  | .switch r _ _ => some r
  | .call _ _ => none
  | .body => none

/-- The coroutines that took over and have not given way, the innermost first. -/
def switches (activations : List (Activation H)) : List CoroutineRef :=
  activations.filterMap Activation.coroutine?

/-- What is innermost is a loop. -/
inductive InLoop : List (Activation H) → Prop where
  | call (mark : LoopMark) (waiter : Waiter H) (rest : List (Activation H)) :
      InLoop (.call mark waiter :: rest)
  | body (rest : List (Activation H)) : InLoop (.body :: rest)

/-- A coroutine has taken over and its loop has not begun or has ended. -/
inductive AtSwitch : List (Activation H) → Prop where
  | switch (r : CoroutineRef) (outer : Processor)
      (next : Except RuntimeError Value → Action H NativeOutcome)
      (rest : List (Activation H)) : AtSwitch (.switch r outer next :: rest)

/-- Where an action runs: in the loop that invoked it, or in no loop when the
host itself acts. -/
def ActsIn (activations : List (Activation H)) : Prop :=
  activations = [] ∨ InLoop activations

def Waiter.Fits (activations : List (Activation H)) : Waiter H → Prop
  | .action next => ActsIn activations ∧ ∀ r, (next r).Lawful
  | .processor => AtSwitch activations
  | .decorated _ _ => InLoop activations
  | .refused _ _ _ _ => InLoop activations
  | .recovered _ _ => InLoop activations
  | .caught _ _ => InLoop activations

/-- A coroutine over a function of a script, not the main one. -/
def World.IsScript (w : World H) (r : CoroutineRef) : Prop :=
  ∃ c, w.coroutine? r = some c ∧ c.kind = .script ∧ c.state ≠ .main

inductive Nested (w : World H) : List (Activation H) → Prop where
  | nil : Nested w []
  | call (mark : LoopMark) {waiter : Waiter H} {rest : List (Activation H)}
      (hwaiter : waiter.Fits rest) (h : Nested w rest) :
      Nested w (.call mark waiter :: rest)
  | body {r : CoroutineRef} {outer : Processor}
      {next : Except RuntimeError Value → Action H NativeOutcome}
      {rest : List (Activation H)} (hscript : w.IsScript r)
      (h : Nested w (.switch r outer next :: rest)) :
      Nested w (.body :: .switch r outer next :: rest)
  | switch (r : CoroutineRef) (outer : Processor)
      {next : Except RuntimeError Value → Action H NativeOutcome}
      {rest : List (Activation H)} (hacts : ActsIn rest)
      (hnext : ∀ x, (next x).Lawful) (h : Nested w rest) :
      Nested w (.switch r outer next :: rest)

def Control.Fits (w : World H) (activations : List (Activation H)) :
    Control H → Prop
  | .loop _ => InLoop activations
  | .failed _ => InLoop activations
  | .unwinding _ _ => InLoop activations
  | .leaving _ => InLoop activations
  | .settling _ => InLoop activations
  | .calling _ _ waiter => waiter.Fits activations
  | .answering waiter _ => waiter.Fits activations
  | .switching exit =>
      ∃ r outer next rest, activations = .switch r outer next :: rest ∧
        (¬LoopExit.IsFinal exit → w.IsScript r)
  | .running a => ActsIn activations ∧ a.Lawful
  | .finished _ => activations = []

structure Machine.WellNested (m : Machine H) : Prop where
  scheduled : m.core.world.Scheduled
  inFlight : m.core.world.inFlight = switches m.activations
  nested : Nested m.core.world m.activations
  control : m.control.Fits m.core.world m.activations

/-! ## What survives in the world -/

theorem World.Advances.isScript {w w' : World H} (h : w.Advances w')
    {r : CoroutineRef} (hr : w.IsScript r) : w'.IsScript r := by
  obtain ⟨c, hc, hkind, hstate⟩ := hr
  obtain ⟨c', hc', hmoves, hkind'⟩ := h.moves r c hc
  refine ⟨c', hc', hkind'.trans hkind, ?_⟩
  intro hmain
  rw [hmain] at hmoves
  generalize c.state = state at hmoves hstate
  cases hmoves
  exact hstate rfl

theorem Nested.of_advances {w w' : World H} {activations : List (Activation H)}
    (h : Nested w activations) (hw : w.Advances w') : Nested w' activations := by
  induction h with
  | nil => exact .nil
  | call mark hwaiter h ih => exact .call mark hwaiter ih
  | body hscript h ih => exact .body (hw.isScript hscript) ih
  | switch r outer hacts hnext h ih => exact .switch r outer hacts hnext ih

/-- A machine that is through is in no loop. -/
theorem Machine.WellNested.activations_eq_nil {m : Machine H} (h : m.WellNested)
    {result : Except RuntimeError Value} (hfinished : m.control = .finished result) :
    m.activations = [] := by
  have hcontrol := h.control
  rw [hfinished] at hcontrol
  exact hcontrol

theorem not_inLoop_nil : ¬InLoop ([] : List (Activation H)) := by
  intro h
  cases h

theorem InLoop.ne_switch {r : CoroutineRef} {outer : Processor}
    {next : Except RuntimeError Value → Action H NativeOutcome}
    {rest : List (Activation H)} : ¬InLoop (.switch r outer next :: rest) := by
  intro h
  cases h

/-! ## Turns of the machine -/

namespace Machine

/-- The processor has been taken up again: its operands are as they were and
its frames are still there. -/
structure TakesUp (p p' : Processor) : Prop where
  stack : p'.stack = p.stack
  frames : p.frames.items <:+ p'.frames.items
  canYield : p'.canYield = p.canYield

/-- What a step does to the activations and to the coroutines. -/
inductive Turn (m m' : Machine H) : Prop where
  | stays (hworld : m.core.world.Extends m'.core.world)
      (h : m'.activations = m.activations)
      (hcan : m'.core.proc.canYield = m.core.proc.canYield)
  | enters (hworld : m.core.world.Extends m'.core.world) (mark : LoopMark)
      (waiter : Waiter H) (h : m'.activations = .call mark waiter :: m.activations)
      (hcan : m'.core.proc.canYield = m.core.proc.canYield)
  | leaves (hworld : m'.core.world = m.core.world) (a : Activation H)
      (ha : a.coroutine? = none) (h : m.activations = a :: m'.activations)
      (hcan : m'.core.proc.canYield = m.core.proc.canYield)
      (hfrom : ∃ exit, m.control = .leaving exit)
  | engages (r : CoroutineRef) (c : Coroutine)
      (hready : m.core.world.Ready r c) (p : Processor)
      (hp : c.processor? = some p) (hproc : TakesUp p m'.core.proc)
      (next : Except RuntimeError Value → Action H NativeOutcome)
      (hworld : m'.core.world = m.core.world.engage r)
      (loops : List (Activation H)) (hloops : ∀ a ∈ loops, a.coroutine? = none)
      (h : m'.activations = loops ++ .switch r m.core.proc next :: m.activations)
      (hfrom : (∃ args, m.control = .running (.resume r args next)) ∨
        r = m.core.world.main)
  | releases (r : CoroutineRef)
      (next : Except RuntimeError Value → Action H NativeOutcome)
      (exit : Except RuntimeError LoopExit)
      (hexit : m.control = .switching exit)
      (hworld : m'.core.world = m.core.world.release r m.core.proc exit)
      (h : m.activations = .switch r m'.core.proc next :: m'.activations)
      (hcontrol : m'.control = .running (next (exit.map LoopExit.value)))

section

variable [Host H]

omit [Host H] in
theorem exec_core {route : Route} (x : Exec H Outcome) (core : Core H)
    (activations : List (Activation H)) :
    (exec route x core activations).core = Exec.resultCore (x core) := by
  unfold exec
  cases x core <;> rfl

omit [Host H] in
/-- A program that extends the world is run in a loop. -/
theorem turn_exec {core core' : Core H} {activations : List (Activation H)}
    {control : Control H} {route : Route} {x : Exec H Outcome}
    (h : core.world.Extends (Exec.resultCore (x core')).world)
    (hcan : (Exec.resultCore (x core')).proc.canYield = core.proc.canYield) :
    Turn ⟨core, activations, control⟩ (exec route x core' activations) := by
  refine .stays ?_ (exec_activations x core' activations) ?_
  · rw [exec_core]
    exact h
  · rw [exec_core]
    exact hcan

omit [Host H] in
/-- A program that leaves the world alone is run in a loop. -/
theorem turn_exec_of_keeps {core : Core H} {activations : List (Activation H)}
    {control : Control H} {route : Route} {x : Exec H Outcome}
    (h : core.Keeps (Exec.resultCore (x core))) :
    Turn ⟨core, activations, control⟩ (exec route x core activations) := by
  refine turn_exec ?_ h.canYield
  rw [h.world]
  exact .refl _

omit [Host H] in
/-- Counting an instruction concerns nothing but the count. -/
theorem countInstruction_eq (p : Processor) :
    p.countInstruction.2 =
      { p with executed := p.countInstruction.2.executed } := by
  unfold Processor.countInstruction
  split
  · rfl
  · split
    · split <;> rfl
    · rfl

/-- The core as an instruction finds it. -/
def counted (core : Core H) : Core H :=
  ⟨core.world, core.proc.countInstruction.2⟩

/-- A program before which the host's request to stop and the budget are looked at. -/
def pollBefore (x : Exec H Outcome) : Exec H Outcome := do
  if ← Exec.ask (·.cancelled) then throw .terminated
  else
    let due ← modifyGet fun c =>
      let (due, proc) := c.proc.countInstruction
      (due, { c with proc })
    if due then pure .forceYield else x

omit [Host H] in
theorem pollBefore_run (x : Exec H Outcome) (core : Core H) :
    pollBefore x core =
      if core.world.cancelled = true then .error .terminated core
      else if core.proc.countInstruction.1 = true then .ok .forceYield (counted core)
      else x (counted core) := by
  unfold pollBefore
  rw [Exec.run_bind_of_ok (Exec.ask_run _ core)]
  by_cases hcancelled : core.world.cancelled = true
  · rw [if_pos hcancelled, if_pos hcancelled]
    rfl
  · rw [if_neg hcancelled, if_neg hcancelled]
    change (if core.proc.countInstruction.1 = true then pure .forceYield
      else x : Exec H Outcome) (counted core) = _
    by_cases hdue : core.proc.countInstruction.1 = true
    · rw [if_pos hdue, if_pos hdue]
      rfl
    · rw [if_neg hdue, if_neg hdue]

theorem poll_run (core : Core H) :
    Exec.poll core =
      if core.world.cancelled = true then .error .terminated core
      else if core.proc.countInstruction.1 = true then .ok .forceYield (counted core)
      else Exec.step (counted core) := by
  exact pollBefore_run Exec.step core

theorem poll_cases (core : Core H) :
    Exec.poll core = .error .terminated core ∨
      Exec.poll core = .ok .forceYield (counted core) ∨
      Exec.poll core = Exec.step (counted core) := by
  rw [poll_run]
  split
  · exact Or.inl rfl
  · split
    · exact Or.inr (Or.inl rfl)
    · exact Or.inr (Or.inr rfl)

omit [Host H] in
theorem canYield_counted (core : Core H) :
    (counted core).proc.canYield = core.proc.canYield := by
  unfold counted
  rw [countInstruction_eq]

omit [Host H] in
theorem ip_counted (core : Core H) : (counted core).proc.ip = core.proc.ip := by
  unfold counted
  rw [countInstruction_eq]

omit [Host H] in
theorem chunk_counted (core : Core H) : (counted core).proc.chunk? = core.proc.chunk? := by
  unfold counted
  rw [countInstruction_eq]

theorem poll_canYield (core : Core H) :
    (Exec.resultCore (Exec.poll core)).proc.canYield = core.proc.canYield := by
  rcases poll_cases core with h | h | h
  · rw [h]
    rfl
  · rw [h]
    exact canYield_counted core
  · rw [h]
    exact (Exec.step_canYield (counted core)).trans (canYield_counted core)

theorem poll_extends (core : Core H) :
    core.world.Extends (Exec.resultCore (Exec.poll core)).world := by
  rcases poll_cases core with h | h | h
  · rw [h]
    exact .refl _
  · rw [h]
    exact .refl _
  · rw [h]
    exact Exec.step_extends (counted core)

omit [Host H] in
theorem checkYield_cases (core : Core H) :
    Exec.checkYield core = .ok () core ∨
      ∃ v, Exec.checkYield core =
        .error (.contract v) ⟨core.world, { core.proc with yielded? := none }⟩ := by
  unfold Exec.checkYield
  rw [Exec.run_bind_of_ok (Exec.askProc_run _ core)]
  split
  · exact Or.inr ⟨.yieldFromMain, rfl⟩
  · split
    · exact Or.inr ⟨.cannotYield, rfl⟩
    · exact Or.inl rfl

theorem turn_afterOutcome (core : Core H) (activations : List (Activation H))
    (control : Control H) (o : Outcome) :
    Turn ⟨core, activations, control⟩ (afterOutcome core activations o) := by
  cases o with
  | proceed => exact turn_exec (poll_extends core) (poll_canYield core)
  | finish frame v => exact turn_exec_of_keeps (Exec.finished_finish frame v core).keeps
  | invoke f args => exact .stays (.refl _) rfl rfl
  | recover e decorator? handler flags returnAddress =>
      cases decorator? with
      | none => exact .stays (.refl _) rfl rfl
      | some decorator => exact .stays (.refl _) rfl rfl
  | tailCall request flags returnAddress =>
      exact turn_exec_of_keeps (Exec.called_call _ _ _ _ _ core).keeps
  | yield v =>
      unfold afterOutcome
      rcases checkYield_cases core with h | ⟨violation, h⟩
      · rw [h]
        exact .stays (.refl _) rfl rfl
      · rw [h]
        exact .stays (.refl _) rfl rfl
  | forceYield => exact .stays (.refl _) rfl rfl
  | «return» v => exact .stays (.refl _) rfl rfl

theorem turn_beginCall (core : Core H) (activations : List (Activation H))
    (control : Control H) (function : Value) (args : List Value)
    (waiter : Waiter H) :
    Turn ⟨core, activations, control⟩
      (beginCall core activations function args waiter) := by
  rcases beginCall_cases core activations function args waiter with hbegin | ⟨-, hbegin⟩
  all_goals rw [hbegin]
  · exact .stays (.refl _) rfl rfl
  · have hkeeps := (Exec.called_call function args { entryPoint := true } core.proc.ip {}
      core.nested).keeps
    refine .enters ?_ _ waiter (exec_activations _ _ _) ?_
    · rw [exec_core, hkeeps.world]
      exact .refl _
    · rw [exec_core]
      exact hkeeps.canYield

/-- In the innermost loop that the settings allow no call begins. -/
theorem next_of_crowded {m : Machine H} {function : Value} {args : List Value}
    {waiter : Waiter H} (hcontrol : m.control = .calling function args waiter)
    (h : m.core.world.settings.maxNativeNesting ≤ m.core.proc.nesting) :
    m.next = ⟨m.core, m.activations,
      .answering waiter (.error (.script .stackOverflow))⟩ := by
  rw [next_of_calling hcontrol, beginCall_of_crowded m.core h]

omit [Host H] in
theorem turn_leave (core : Core H) {activations : List (Activation H)}
    (exit : Except RuntimeError LoopExit) (h : InLoop activations) :
    Turn ⟨core, activations, .leaving exit⟩ (leave core activations exit) := by
  cases h with
  | call mark waiter rest =>
      change Turn _ (endCall core rest mark waiter exit)
      unfold endCall
      rcases exit with e | exit
      · exact .leaves rfl (.call mark waiter) rfl rfl rfl ⟨_, rfl⟩
      · cases exit <;> exact .leaves rfl (.call mark waiter) rfl rfl rfl ⟨_, rfl⟩
  | body rest =>
      change Turn _ (endBody core rest exit)
      unfold endBody
      cases exit <;> exact .leaves rfl .body rfl rfl rfl ⟨_, rfl⟩

omit [Host H] in
theorem turn_answer (core : Core H) (activations : List (Activation H))
    (control : Control H) (result : Except RuntimeError Value)
    (waiter : Waiter H) :
    Turn ⟨core, activations, control⟩ (answer core activations result waiter) := by
  cases waiter with
  | action next => exact .stays (.refl _) rfl rfl
  | decorated e rest => exact .stays (.refl _) rfl rfl
  | refused e handler flags returnAddress => exact .stays (.refl _) rfl rfl
  | recovered flags returnAddress =>
      cases result with
      | error e => exact .stays (.refl _) rfl rfl
      | ok v =>
          exact turn_exec_of_keeps
            (Exec.delivered_deliver flags returnAddress (some v) core).keeps
  | caught flags returnAddress =>
      cases result with
      | error e => exact .stays (.refl _) rfl rfl
      | ok v =>
          exact turn_exec_of_keeps
            (Exec.delivered_deliver flags returnAddress (some v) core).keeps
  | processor => exact .stays (.refl _) rfl rfl

omit [Host H] in
theorem turn_settle (core : Core H) (activations : List (Activation H))
    (control : Control H) (o : Outcome) :
    Turn ⟨core, activations, control⟩ (settle core activations o) := by
  cases o with
  | finish frame v =>
      exact turn_exec_of_keeps (Exec.finished_finish frame v core).keeps
  | _ => exact .stays (.refl _) rfl rfl

/-! ### Switching -/

omit [Host H] in
theorem TakesUp.refl (p : Processor) : TakesUp p p :=
  ⟨rfl, List.suffix_refl _, rfl⟩

omit [Host H] in
theorem TakesUp.trans {p q r : Processor} (h : TakesUp p q) (h' : TakesUp q r) :
    TakesUp p r := by
  constructor
  · exact h'.stack.trans h.stack
  · exact h.frames.trans h'.frames
  · exact h'.canYield.trans h.canYield

omit [Host H] in
theorem takesUp_of_called {core : Core H} {flags : FrameFlags}
    {returnAddress : Nat} {handlers : Handlers}
    {r : EStateM.Result RuntimeError (Core H) Outcome}
    (h : Exec.Called core flags returnAddress handlers r) :
    TakesUp core.proc (Exec.resultCore r).proc := by
  cases h with
  | failed e h => exact .refl _
  | recovered e handler h => exact .refl _
  | entered f args hdepth => exact ⟨rfl, List.suffix_cons _ _, rfl⟩
  | invoked f args hdepth => exact ⟨rfl, List.suffix_cons _ _, rfl⟩

theorem turn_runCoroutine {core : Core H} {activations : List (Activation H)}
    {r : CoroutineRef} {c : Coroutine} {p : Processor}
    (hready : core.world.Ready r c) (hp : c.processor? = some p)
    (args : List Value)
    (next : Except RuntimeError Value → Action H NativeOutcome) :
    Turn ⟨core, activations, .running (.resume r args next)⟩
      (runCoroutine (core.world.engage r) (.switch r core.proc next :: activations)
        c p args) := by
  have hbody : ∀ a ∈ [(.body : Activation H)], a.coroutine? = none := by
    intro a ha
    cases List.mem_singleton.mp ha
    rfl
  have hfrom : (∃ args', (.running (.resume r args next) : Control H) =
      .running (.resume r args' next)) ∨ r = core.world.main :=
    Or.inl ⟨args, rfl⟩
  have hsame : TakesUp p p.enterOutermost := ⟨rfl, List.suffix_refl _, rfl⟩
  have hroused := roused_runCoroutine (core.world.engage r)
    (.switch r core.proc next :: activations) c p args
  generalize runCoroutine (core.world.engage r) _ c p args = m at hroused ⊢
  cases hroused with
  | native hkind => exact .engages r c hready p hp (.refl p) next rfl [] (by simp) rfl hfrom
  | first hkind hstate =>
      refine .engages r c hready p hp ?_ next ?_ [.body] hbody
        (exec_activations _ _ _) hfrom
      · rw [exec_core]
        exact hsame.trans (takesUp_of_called (Exec.called_call c.entry args _ _ _
          (⟨core.world.engage r, p.enterOutermost⟩ : Core H)))
      · rw [exec_core, (Exec.called_call _ _ _ _ _ _).keeps.world]
  | lost hkind hstate hyielded =>
      exact .engages r c hready p hp (.refl p) next rfl [] (by simp) rfl hfrom
  | yielded frame hkind hstate hyielded =>
      exact .engages r c hready p hp ⟨rfl, List.suffix_refl _, rfl⟩ next rfl
        [.body] hbody rfl hfrom
  | forced hkind hfirst hyielded =>
      exact .engages r c hready p hp hsame next rfl [.body] hbody rfl hfrom

theorem turn_resume (core : Core H) (activations : List (Activation H))
    (r : CoroutineRef) (args : List Value)
    (next : Except RuntimeError Value → Action H NativeOutcome) :
    Turn ⟨core, activations, .running (.resume r args next)⟩
      (resume core activations r args next) := by
  rcases resume_cases core activations r args next with
    ⟨e, -, hresume⟩ | ⟨c, p, hc, hp, hstate, -, hresume⟩
  all_goals rw [hresume]
  · exact .stays (.refl _) rfl rfl
  · exact turn_runCoroutine ⟨hc, by simp [hp], fun _ => hstate⟩ hp args next

omit [Host H] in
theorem turn_enterMain (core : Core H) (activations : List (Activation H))
    (control : Control H) (function : Value) (args : List Value)
    (next : Except RuntimeError Value → Action H NativeOutcome) :
    Turn ⟨core, activations, control⟩
      (enterMain core activations function args next) := by
  rcases enterMain_cases core activations function args next with
    henter | ⟨c, p, hc, hp, henter⟩
  all_goals rw [henter]
  · exact .stays (.refl _) rfl rfl
  · have hready : core.world.Ready core.world.main c :=
      ⟨hc, by simp [hp], fun h => absurd rfl h⟩
    exact .engages core.world.main c hready p hp (.refl p) next rfl [] (by simp) rfl
      (Or.inr rfl)

theorem turn_act (core : Core H) (activations : List (Activation H))
    {a : Action H NativeOutcome} (ha : a.Lawful) :
    Turn ⟨core, activations, .running a⟩ (act core activations a) := by
  cases ha with
  | done outcome =>
      cases activations with
      | nil => exact .stays (.refl _) rfl rfl
      | cons top rest =>
          exact turn_exec_of_keeps (Exec.completed_completeNative outcome core).keeps
  | fail e =>
      cases activations with
      | nil => exact .stays (.refl _) rfl rfl
      | cons top rest => exact .stays (.refl _) rfl rfl
  | read h => exact .stays (.refl _) rfl rfl
  | write hchange h => exact .stays (hchange core.world) rfl rfl
  | call function args h => exact .stays (.refl _) rfl rfl
  | resume r args h => exact turn_resume core activations r args _
  | enterMain function args h => exact turn_enterMain core activations _ _ args _

theorem turn_next {m : Machine H} (h : m.control.Fits m.core.world m.activations) :
    Turn m m.next := by
  obtain ⟨core, activations, control⟩ := m
  cases control with
  | loop o => exact turn_afterOutcome core activations _ o
  | failed e =>
      cases e with
      | script e => exact .stays (.refl _) rfl rfl
      | _ => exact .stays (.refl _) rfl rfl
  | unwinding e decorators =>
      cases decorators with
      | nil =>
          change Turn _ (catchError core activations e)
          rcases catchError_cases core activations e with
            ⟨frame, handler, n, -, hcaught⟩ | ⟨n, -, hcaught⟩
          all_goals rw [hcaught]; exact .stays (.refl _) rfl rfl
      | cons d rest => exact .stays (.refl _) rfl rfl
  | calling function args waiter =>
      exact turn_beginCall core activations _ function args waiter
  | leaving exit => exact turn_leave core exit h
  | answering waiter result =>
      exact turn_answer core activations _ result waiter
  | switching exit =>
      obtain ⟨r, outer, next, rest, rfl, -⟩ := h
      exact .releases r next exit rfl rfl rfl rfl
  | running a => exact turn_act core activations h.2
  | settling o => exact turn_settle core activations _ o
  | finished result => exact .stays (.refl _) rfl rfl

end

end Machine

end ScriptEngine
