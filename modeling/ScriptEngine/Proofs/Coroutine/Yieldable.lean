import ScriptEngine.Proofs.Coroutine.Yielding
import ScriptEngine.Proofs.Native.Simple

/-!
# Who may yield

A function may ask whether it can yield, and its processor answers: one that can yield at
all and on which a single loop runs.  A coroutine over a script runs in a loop of its own,
and for its functions the answer is the truth.  A coroutine over a host function has no such
loop: its function runs in a nested call, on which the processor counts one loop too, and the
call turns a yield into a contract violation.
-/

namespace ScriptEngine

variable {H : HostTypes}

/-! ## Coroutines without a loop of their own -/

/-- The coroutine's function runs in a nested call: it is a host function, or the coroutine is
the main one. -/
def World.IsLoopless (w : World H) (r : CoroutineRef) : Prop :=
  ∃ c, w.coroutine? r = some c ∧ (c.kind = .native ∨ c.state = .main)

theorem World.IsLoopless.not_isScript {w : World H} {r : CoroutineRef} (h : w.IsLoopless r) :
    ¬w.IsScript r := by
  rintro ⟨c', hc', hkind, hstate⟩
  obtain ⟨c, hc, h⟩ := h
  rw [hc] at hc'
  cases hc'
  rcases h with hnative | hmain
  · rw [hkind] at hnative
    cases hnative
  · exact hstate hmain

theorem World.IsLoopless.of_advances {w w' : World H} {r : CoroutineRef} (h : w.IsLoopless r)
    (hw : w.Advances w') : w'.IsLoopless r := by
  obtain ⟨c, hc, h⟩ := h
  obtain ⟨c', hc', hmoves, hkind⟩ := hw.moves r c hc
  refine ⟨c', hc', h.imp hkind.trans ?_⟩
  intro hmain
  rw [hmain] at hmoves
  generalize c'.state = state at hmoves
  cases hmoves with
  | stays => rfl
  | engages hsuspended => cases hsuspended

/-- The result of a call is that of a processor only if its coroutine has no loop of its own. -/
def Waiter.LooplessResults (w : World H) (activations : List (Activation H)) : Waiter H → Prop
  | .processor => ∃ r outer next rest, activations = .switch r outer next :: rest ∧ w.IsLoopless r
  | _ => True

/-- So it is for all nested calls. -/
def LooplessResultsOn (w : World H) : List (Activation H) → Prop
  | .call _ waiter :: rest => waiter.LooplessResults w rest ∧ LooplessResultsOn w rest
  | .body :: rest => LooplessResultsOn w rest
  | .switch _ _ _ :: rest => LooplessResultsOn w rest
  | [] => True

def Control.LooplessResults (w : World H) (activations : List (Activation H)) : Control H → Prop
  | .calling _ _ waiter => waiter.LooplessResults w activations
  | .answering waiter _ => waiter.LooplessResults w activations
  | _ => True

theorem Waiter.LooplessResults.of_advances {w w' : World H} {activations : List (Activation H)}
    {waiter : Waiter H} (h : waiter.LooplessResults w activations) (hw : w.Advances w') :
    waiter.LooplessResults w' activations := by
  cases waiter with
  | processor =>
      obtain ⟨r, outer, next, rest, hswitch, hcall⟩ := h
      exact ⟨r, outer, next, rest, hswitch, hcall.of_advances hw⟩
  | _ => trivial

theorem LooplessResultsOn.of_advances {w w' : World H} {activations : List (Activation H)}
    (h : LooplessResultsOn w activations) (hw : w.Advances w') :
    LooplessResultsOn w' activations := by
  induction activations with
  | nil => trivial
  | cons a rest ih =>
      cases a with
      | call mark waiter => exact ⟨h.1.of_advances hw, ih h.2⟩
      | body => exact ih h
      | switch r outer next => exact ih h

/-- The violation of a yield that does not suspend the coroutine. -/
def Processor.yieldViolation (p : Processor) : ContractViolation :=
  if p.canYield then .cannotYield else .yieldFromMain

/-- A function runs, a loop has failed or a nested call has a result. -/
def Control.isEvent : Control H → Bool
  | .running _ => true
  | .failed _ => true
  | .answering _ _ => true
  | _ => false

namespace Machine

/-- Only for coroutines without a loop of their own a call gives the result of a processor. -/
structure LooplessResults (w : World H) (m : Machine H) : Prop where
  calls : LooplessResultsOn w m.activations
  control : m.control.LooplessResults w m.activations

theorem LooplessResults.of_advances {w w' : World H} {m : Machine H} (h : m.LooplessResults w)
    (hw : w.Advances w') : m.LooplessResults w' := by
  refine ⟨h.calls.of_advances hw, ?_⟩
  have hcontrol := h.control
  revert hcontrol
  cases m.control with
  | calling function args waiter =>
      exact fun hwaiter => Waiter.LooplessResults.of_advances hwaiter hw
  | answering waiter result => exact fun hwaiter => Waiter.LooplessResults.of_advances hwaiter hw
  | _ => exact id

section

variable {w : World H} {activations : List (Activation H)}

theorem looplessResults_exec {route : Route} (x : Exec H Outcome) (core : Core H)
    (h : LooplessResultsOn w activations) :
    (exec route x core activations).LooplessResults w := by
  unfold exec
  cases x core <;> cases route <;> exact ⟨h, trivial⟩

theorem looplessResults_catchError (core : Core H) (e : ScriptError)
    (h : LooplessResultsOn w activations) :
    (catchError core activations e).LooplessResults w := by
  rcases catchError_cases core activations e with
    ⟨frame, handler, n, -, hcaught⟩ | ⟨n, -, hcaught⟩
  all_goals rw [hcaught]; exact ⟨h, trivial⟩

theorem looplessResults_leave (core : Core H) (exit : Except RuntimeError LoopExit)
    (h : LooplessResultsOn w activations) : (leave core activations exit).LooplessResults w := by
  cases activations with
  | nil => exact ⟨h, trivial⟩
  | cons a rest =>
      cases a with
      | call mark waiter =>
          change (endCall core rest mark waiter exit).LooplessResults w
          unfold endCall
          rcases exit with e | exit
          · exact ⟨h.2, h.1⟩
          · cases exit <;> exact ⟨h.2, h.1⟩
      | body =>
          change (endBody core rest exit).LooplessResults w
          unfold endBody
          cases exit <;> exact ⟨h, trivial⟩
      | switch r outer next => exact ⟨h, trivial⟩

theorem looplessResults_answer (core : Core H) (waiter : Waiter H)
    (result : Except RuntimeError Value) (h : LooplessResultsOn w activations) :
    (answer core activations result waiter).LooplessResults w := by
  cases waiter with
  | recovered flags returnAddress =>
      cases result with
      | ok v => exact looplessResults_exec _ core h
      | error e => exact ⟨h, trivial⟩
  | caught flags returnAddress =>
      cases result with
      | ok v =>
          exact looplessResults_exec _ core h
      | error e => exact ⟨h, trivial⟩
  | _ => exact ⟨h, trivial⟩

theorem looplessResults_settle (core : Core H) (o : Outcome) (h : LooplessResultsOn w activations) :
    (settle core activations o).LooplessResults w := by
  cases o with
  | finish frame v =>
      exact looplessResults_exec _ core h
  | _ => exact ⟨h, trivial⟩

theorem looplessResults_beginCall [Host H] (core : Core H) (function : Value) (args : List Value)
    {waiter : Waiter H} (h : LooplessResultsOn w activations)
    (hwaiter : waiter.LooplessResults w activations) :
    (beginCall core activations function args waiter).LooplessResults w := by
  rcases beginCall_cases core activations function args waiter with hbegin | ⟨-, hbegin⟩
  all_goals rw [hbegin]
  · exact ⟨h, hwaiter⟩
  · exact looplessResults_exec _ _ ⟨hwaiter, h⟩

theorem looplessResults_afterOutcome [Host H] (core : Core H) (o : Outcome)
    (h : LooplessResultsOn w activations) :
    (afterOutcome core activations o).LooplessResults w := by
  cases o with
  | proceed => exact looplessResults_exec _ core h
  | finish frame v => exact looplessResults_exec _ core h
  | tailCall request flags returnAddress => exact looplessResults_exec _ core h
  | recover e decorator? handler flags returnAddress =>
      cases decorator? <;> exact ⟨h, trivial⟩
  | yield v =>
      unfold afterOutcome
      cases Exec.checkYield core <;> exact ⟨h, trivial⟩
  | _ => exact ⟨h, trivial⟩

theorem looplessResults_resume [Host H] (core : Core H) (r : CoroutineRef) (args : List Value)
    (next : Except RuntimeError Value → Action H NativeOutcome)
    (h : LooplessResultsOn core.world activations) :
    (resume core activations r args next).LooplessResults core.world := by
  rcases resume_cases core activations r args next with
    ⟨e, -, hresume⟩ | ⟨c, p, hc, -, -, -, hresume⟩
  all_goals rw [hresume]
  · exact ⟨h, trivial⟩
  · have hroused := roused_runCoroutine (core.world.engage r)
      (.switch r core.proc next :: activations) c p args
    generalize runCoroutine (core.world.engage r) _ c p args = m at hroused ⊢
    cases hroused with
    | native hkind =>
        exact ⟨h, r, core.proc, next, activations, rfl, c, hc, Or.inl hkind⟩
    | first hkind hstate => exact looplessResults_exec _ _ h
    | _ => exact ⟨h, trivial⟩

theorem looplessResults_enterMain (core : Core H) (function : Value) (args : List Value)
    (next : Except RuntimeError Value → Action H NativeOutcome)
    (hscheduled : core.world.Scheduled) (h : LooplessResultsOn core.world activations) :
    (enterMain core activations function args next).LooplessResults core.world := by
  rcases enterMain_cases core activations function args next with
    henter | ⟨c, p, hc, -, henter⟩
  all_goals rw [henter]
  · exact ⟨h, trivial⟩
  · exact ⟨h, _, core.proc, next, activations, rfl, c, hc, Or.inr (hscheduled.state_main hc)⟩

theorem looplessResults_act [Host H] (core : Core H) (a : Action H NativeOutcome)
    (hscheduled : core.world.Scheduled) (h : LooplessResultsOn core.world activations) :
    (act core activations a).LooplessResults core.world := by
  cases a with
  | done outcome =>
      cases activations with
      | nil => exact ⟨h, trivial⟩
      | cons top rest => exact looplessResults_exec _ core h
  | fail e => cases activations <;> exact ⟨h, trivial⟩
  | read next => exact ⟨h, trivial⟩
  | write change next => exact ⟨h, trivial⟩
  | call function args next => exact ⟨h, trivial⟩
  | resume r args next => exact looplessResults_resume core r args next h
  | enterMain function args next =>
      exact looplessResults_enterMain core function args next hscheduled h

end

variable {m m' : Machine H} {r : CoroutineRef} {v : Value} {e : ContractViolation}

theorem LooplessResults.next [Host H] (h : m.LooplessResults m.core.world) (hm : m.WellNested) :
    m.next.LooplessResults m.next.core.world := by
  have hturn := turn_next hm.control
  refine LooplessResults.of_advances (w := m.core.world) ?_ (hturn.advances hm)
  have hfits := hm.control
  have hscheduled := hm.scheduled
  obtain ⟨core, activations, control⟩ := m
  obtain ⟨hcalls, hcontrol⟩ := h
  cases control with
  | loop o => exact looplessResults_afterOutcome core o hcalls
  | failed e => cases e <;> exact ⟨hcalls, trivial⟩
  | unwinding e decorators =>
      cases decorators with
      | nil => exact looplessResults_catchError core e hcalls
      | cons d rest => exact ⟨hcalls, trivial⟩
  | calling function args waiter =>
      exact looplessResults_beginCall core function args hcalls hcontrol
  | leaving exit => exact looplessResults_leave core exit hcalls
  | answering waiter result => exact looplessResults_answer core waiter result hcalls
  | switching exit =>
      obtain ⟨r, outer, next, rest, rfl, -⟩ := hfits
      exact ⟨hcalls, trivial⟩
  | running a => exact looplessResults_act core a hscheduled hcalls
  | settling o => exact looplessResults_settle core o hcalls
  | finished result => exact ⟨hcalls, trivial⟩

theorem Reachable.looplessResults [Host H] [LawfulHost H] (h : m.Reachable) :
    m.LooplessResults m.core.world := by
  induction h with
  | start settings host ha => exact ⟨trivial, trivial⟩
  | next h ih => exact ih.next h.wellNested
  | again h hfinished hw ha ih => exact ⟨trivial, trivial⟩

/-! ## What a yield comes to -/

/-- A function that was called runs, and not the host itself. -/
def RunsFunction (m : Machine H) : Prop :=
  (∃ a, m.control = .running a) ∧ m.activations ≠ []

/-- The current coroutine is one over a script. -/
def InScript (m : Machine H) : Prop :=
  ∃ r, m.core.world.current? = some r ∧ m.core.world.IsScript r

/-- The function that runs answers with a yield. -/
def yielding (m : Machine H) (v : Value) : Machine H :=
  { m with control := .running (.done (.yield v)) }

/-- A loop has failed, or a nested call has, with a contract violation. -/
def Violates (m : Machine H) (e : ContractViolation) : Prop :=
  m.control = .failed (.contract e) ∨
    ∃ waiter, m.control = .answering waiter (.error (.contract e))

/-- The current coroutine has given way: whoever resumed it goes on with the value as the
result of the resume, and the coroutine rests suspended. -/
structure GivesWay (m m' : Machine H) (r : CoroutineRef) (v : Value) : Prop where
  resumer : ∃ loops next, (∀ a ∈ loops, a.coroutine? = none) ∧
    m.activations = loops ++ .switch r m'.core.proc next :: m'.activations ∧
    m'.control = .running (next (.ok v))
  suspended : ∃ c, m'.core.world.coroutine? r = some c ∧ c.state = .suspended

section

variable [Host H]

/-- In fewer steps no contract is violated and no function goes on. -/
def Uneventful (m : Machine H) (k : Nat) : Prop :=
  ∀ j < k, (∀ e, ¬(m.after j).Violates e) ∧ (0 < j → ∀ a, (m.after j).control ≠ .running a)

/-- A yield of the function that runs suspends the current coroutine. -/
def YieldSuspends (m : Machine H) (v : Value) : Prop :=
  ∃ r k, m.core.world.current? = some r ∧ (m.yielding v).Uneventful k ∧
    (m.yielding v).GivesWay ((m.yielding v).after k) r v

/-- A yield of the function that runs violates a contract. -/
def YieldViolates (m : Machine H) (v : Value) (e : ContractViolation) : Prop :=
  ∃ k, (m.yielding v).Uneventful k ∧ ((m.yielding v).after k).Violates e

end

/-! ### One of the two -/

theorem Violates.eq {e' : ContractViolation} (h : m.Violates e) (h' : m.Violates e') : e = e' := by
  rcases h with h | ⟨waiter, h⟩
  · rcases h' with h' | ⟨waiter', h'⟩ <;> cases h.symm.trans h'
    rfl
  · rcases h' with h' | ⟨waiter', h'⟩ <;> cases h.symm.trans h'
    rfl

theorem GivesWay.length_lt (h : m.GivesWay m' r v) :
    m'.activations.length < m.activations.length := by
  obtain ⟨loops, next, -, hactivations, -⟩ := h.resumer
  rw [hactivations, List.length_append, List.length_cons]
  omega

theorem Violates.ne_running (h : m.Violates e) (a : Action H NativeOutcome) :
    m.control ≠ .running a := by
  intro hrunning
  rcases h with h | ⟨waiter, h⟩ <;> cases hrunning.symm.trans h

section

variable [Host H] {k j : Nat}

theorem Uneventful.le_of_violates (h : m.Uneventful k) (hviolates : (m.after j).Violates e) :
    k ≤ j := by
  refine Nat.le_of_not_lt fun hlt => ?_
  exact (h j hlt).1 e hviolates

theorem Uneventful.le_of_running (h : m.Uneventful k) {a : Action H NativeOutcome}
    (hrunning : (m.after j).control = .running a) (hj : 0 < j) : k ≤ j := by
  refine Nat.le_of_not_lt fun hlt => ?_
  exact (h j hlt).2 hj a hrunning

theorem uneventful_one (hrunning : ∃ a, m.control = .running a) : m.Uneventful 1 := by
  intro j hj
  obtain ⟨a, hcontrol⟩ := hrunning
  obtain rfl := Nat.lt_one_iff.mp hj
  exact ⟨fun e h => h.ne_running a hcontrol, fun h => absurd h (Nat.lt_irrefl 0)⟩

theorem Uneventful.succ (h : m.Uneventful k) (hquiet : (m.after k).control.isEvent = false) :
    m.Uneventful (k + 1) := by
  intro j hj
  rcases Nat.lt_succ_iff_lt_or_eq.mp hj with hlt | rfl
  · exact h j hlt
  · refine ⟨fun e hviolates => ?_, fun _ a hrunning => ?_⟩
    · rcases hviolates with hfailed | ⟨waiter, hanswering⟩
      · rw [hfailed] at hquiet
        cases hquiet
      · rw [hanswering] at hquiet
        cases hquiet
    · rw [hrunning] at hquiet
      cases hquiet

theorem YieldViolates.unique {e' : ContractViolation} (h : m.YieldViolates v e)
    (h' : m.YieldViolates v e') : e = e' := by
  obtain ⟨k, hquiet, hviolates⟩ := h
  obtain ⟨k', hquiet', hviolates'⟩ := h'
  obtain rfl : k = k' :=
    Nat.le_antisymm (hquiet.le_of_violates hviolates') (hquiet'.le_of_violates hviolates)
  exact hviolates.eq hviolates'

/-- A yield that suspends the coroutine violates nothing. -/
theorem YieldSuspends.not_violates (h : m.YieldSuspends v) : ¬m.YieldViolates v e := by
  rintro ⟨k', hquiet', hviolates⟩
  obtain ⟨r, k, -, hquiet, hway⟩ := h
  obtain ⟨loops, next, -, -, hcontrol⟩ := hway.resumer
  have hk : 0 < k := by
    refine Nat.pos_of_ne_zero fun hzero => ?_
    have hshorter := hway.length_lt
    rw [hzero] at hshorter
    exact Nat.lt_irrefl _ hshorter
  obtain rfl : k = k' :=
    Nat.le_antisymm (hquiet.le_of_violates hviolates) (hquiet'.le_of_running hcontrol hk)
  exact hviolates.ne_running _ hcontrol

end

/-! ### On the way -/

/-- The frame of the function that yields is off the others. -/
def withAside (core : Core H) (frame : Frame) (rest : Stack Frame) : Core H :=
  { core with proc := { core.proc with frames := rest, yielded? := some frame } }

theorem WellFramed.yielding (h : m.WellFramed) (hruns : m.RunsFunction) (v : Value) :
    (m.yielding v).WellFramed := by
  obtain ⟨⟨a, hcontrol⟩, -⟩ := hruns
  have hseated := h.seated
  unfold Seated at hseated
  rw [hcontrol] at hseated
  exact ⟨h.world, hseated⟩

theorem RunsFunction.inLoop (hruns : m.RunsFunction) (hm : m.WellNested) :
    InLoop m.activations := by
  obtain ⟨⟨a, hcontrol⟩, hne⟩ := hruns
  have hfits := hm.control
  rw [hcontrol] at hfits
  exact hfits.1.resolve_left hne

/-- A function that runs has a frame, and there is a loop it runs in. -/
theorem RunsFunction.processor [Host H] [LawfulHost H] (hruns : m.RunsFunction)
    (hm : m.Reachable) :
    0 < m.core.proc.nesting ∧
      ∃ frame, ∃ rest : Stack Frame, m.core.proc.frames = rest.push frame := by
  have hloop := hruns.inLoop hm.wellNested
  obtain ⟨⟨a, hcontrol⟩, -⟩ := hruns
  have hseated := hm.wellFramed.seated
  unfold Seated at hseated
  rw [hcontrol] at hseated
  obtain ⟨above, below, hframes, hworking, hbase⟩ := (standsOn_iff hloop).mp hseated
  have hrooted : Rooted (entries above) := hworking
  constructor
  · have hnesting : m.core.proc.nesting = loopsAt m.activations := hseated.loopsAt_eq
    rw [hnesting]
    generalize m.activations = activations at hloop
    cases hloop <;> exact Nat.succ_pos _
  · refine (Exec.frames_cases m.core).resolve_left fun hempty => ?_
    rw [hempty] at hframes
    rw [(List.append_eq_nil_iff.mp hframes.symm).1] at hrooted
    exact hrooted.elim

theorem checkYield_of_refused {core : Core H} (hcan : core.proc.isYieldable = false)
    (hnesting : 0 < core.proc.nesting) :
    Exec.checkYield core = .error (.contract core.proc.yieldViolation)
      ⟨core.world, { core.proc with yielded? := none }⟩ := by
  unfold Exec.checkYield
  rw [Exec.run_bind_of_ok (Exec.askProc_run _ core)]
  dsimp only [id]
  unfold Processor.yieldViolation
  by_cases hyield : core.proc.canYield = true
  · have hnot : core.proc.nesting ≠ 1 := fun hone =>
      Bool.eq_false_iff.mp hcan (Processor.isYieldable_iff.mpr ⟨hyield, hone⟩)
    have hdeep : 1 < core.proc.nesting := by omega
    rw [if_neg (by simp [hyield]), if_pos hdeep, if_pos hyield]
    rfl
  · rw [if_pos (by simp [hyield]), if_neg hyield]
    rfl

section

variable [Host H] {core : Core H} {activations : List (Activation H)}

theorem next_of_refused {core' : Core H} {error : RuntimeError}
    (h : Exec.checkYield core = .error error core') :
    next ⟨core, activations, .loop (.yield v)⟩ = ⟨core', activations, .failed error⟩ := by
  change afterOutcome core activations (.yield v) = _
  unfold afterOutcome
  rw [h]

variable {frame : Frame} {rest : Stack Frame}

theorem RunsFunction.after_one (hruns : m.RunsFunction)
    (hpush : m.core.proc.frames = rest.push frame) (v : Value) :
    (m.yielding v).after 1 =
      ⟨withAside m.core frame rest, m.activations, .loop (.yield v)⟩ := by
  obtain ⟨core, activations, control⟩ := m
  obtain ⟨loop, loops, rfl⟩ := List.exists_cons_of_ne_nil hruns.2
  exact next_yield hpush

theorem RunsFunction.uneventful_two (hruns : m.RunsFunction)
    (hpush : m.core.proc.frames = rest.push frame) (v : Value) :
    (m.yielding v).Uneventful 2 := by
  refine (uneventful_one ⟨_, rfl⟩).succ ?_
  rw [hruns.after_one hpush]
  rfl

/-- A processor that can yield and runs a single loop lets the yield pass. -/
theorem RunsFunction.after_two (hruns : m.RunsFunction)
    (hpush : m.core.proc.frames = rest.push frame) (hcan : m.core.proc.isYieldable = true)
    (v : Value) :
    (m.yielding v).after 2 =
      ⟨withAside m.core frame rest, m.activations, .leaving (.ok (.yielded v))⟩ := by
  obtain ⟨hcanYield, hnesting⟩ := Processor.isYieldable_iff.mp hcan
  have hchecked : Exec.checkYield (withAside m.core frame rest) =
      .ok () (withAside m.core frame rest) := checkYield_of_outermost hcanYield hnesting
  change ((m.yielding v).after 1).next = _
  rw [hruns.after_one hpush]
  exact next_of_checked hchecked

theorem RunsFunction.uneventful_three (hruns : m.RunsFunction)
    (hpush : m.core.proc.frames = rest.push frame) (hcan : m.core.proc.isYieldable = true)
    (v : Value) : (m.yielding v).Uneventful 3 := by
  refine (hruns.uneventful_two hpush v).succ ?_
  rw [hruns.after_two hpush hcan]
  rfl

end

/-! ### Loops and coroutines -/

theorem WellNested.current_of_switch (hm : m.WellNested) {loop : Activation H}
    (hloop : loop.coroutine? = none) {outer : Processor}
    {next : Except RuntimeError Value → Action H NativeOutcome}
    {activations : List (Activation H)}
    (h : m.activations = loop :: .switch r outer next :: activations) :
    m.core.world.current? = some r := by
  have hloops : ∀ a ∈ [loop], a.coroutine? = none := by simpa using hloop
  unfold World.current?
  rw [hm.inFlight, h]
  exact congrArg List.head? (switches_append hloops (.switch r outer next :: activations))

theorem WellNested.isScript_of_body (hm : m.WellNested) {outer : Processor}
    {next : Except RuntimeError Value → Action H NativeOutcome}
    {activations : List (Activation H)}
    (h : m.activations = .body :: .switch r outer next :: activations) :
    m.core.world.IsScript r := by
  have hnested := hm.nested
  rw [h] at hnested
  cases hnested with
  | body hscript _ => exact hscript

/-- A yield that the processor lets pass leaves either the loop of a coroutine over a script
or the nested call in which a host function runs for its coroutine. -/
theorem not_inScript_of_call [Host H] [LawfulHost H] (hm : m.Reachable) (hruns : m.RunsFunction)
    (hcan : m.core.proc.isYieldable = true) {mark : LoopMark} {waiter : Waiter H}
    {activations : List (Activation H)} (h : m.activations = .call mark waiter :: activations) :
    ¬m.InScript := by
  obtain ⟨⟨a, hcontrol⟩, -⟩ := hruns
  obtain ⟨hcanYield, hnesting⟩ := Processor.isYieldable_iff.mp hcan
  have hnested := hm.wellNested.nested
  have hlevels := hm.yieldedFits.yieldedFitsInFlight.levels
  have hcalls := hm.looplessResults.calls
  have hseated := hm.wellFramed.seated
  unfold Seated at hseated
  rw [hcontrol] at hseated
  rw [h] at hnested hlevels hcalls hseated
  have hwaiter : waiter.Fits activations := by
    cases hnested with
    | call _ hwaiter _ => exact hwaiter
  obtain rfl : waiter = .processor :=
    Waiter.Fits.eq_processor hwaiter hseated hlevels hcanYield
      (Nat.le_of_eq hnesting)
  obtain ⟨r, outer, next, rest, rfl, hloopless⟩ := hcalls.1
  rintro ⟨r', hcurrent, hscript⟩
  rw [hm.wellNested.current_of_switch rfl h] at hcurrent
  cases hcurrent
  exact hloopless.not_isScript hscript

/-! ### How it ends -/

section

variable [Host H] [LawfulHost H]

/-- The processor refuses the yield. -/
theorem violates_of_refused (hm : m.Reachable) (hruns : m.RunsFunction)
    (hcan : m.core.proc.isYieldable = false) (v : Value) :
    m.YieldViolates v m.core.proc.yieldViolation := by
  obtain ⟨hnesting, frame, rest, hpush⟩ := hruns.processor hm
  have hchecked : Exec.checkYield (withAside m.core frame rest) =
      .error (.contract m.core.proc.yieldViolation) _ := checkYield_of_refused hcan hnesting
  refine ⟨2, hruns.uneventful_two hpush v, Or.inl ?_⟩
  change ((m.yielding v).after 1).next.control = _
  rw [hruns.after_one hpush, next_of_refused hchecked]

/-- The processor lets the yield pass, but the nested call it ends is no loop of a script. -/
theorem violates_of_call (hm : m.Reachable) (hruns : m.RunsFunction)
    (hcan : m.core.proc.isYieldable = true) {mark : LoopMark} {waiter : Waiter H}
    {activations : List (Activation H)} (h : m.activations = .call mark waiter :: activations)
    (v : Value) : m.YieldViolates v m.core.proc.yieldViolation := by
  obtain ⟨-, frame, rest, hpush⟩ := hruns.processor hm
  have hviolation : m.core.proc.yieldViolation = .cannotYield :=
    if_pos (Processor.isYieldable_iff.mp hcan).1
  refine ⟨3, hruns.uneventful_three hpush hcan v, Or.inr ⟨waiter, ?_⟩⟩
  change ((m.yielding v).after 2).next.control = _
  rw [hruns.after_two hpush hcan, h, hviolation]
  rfl

/-- In the loop of a coroutine the yield suspends it. -/
theorem suspends_of_body (hm : m.Reachable) (hruns : m.RunsFunction)
    (hcan : m.core.proc.isYieldable = true) {r : CoroutineRef} {outer : Processor}
    {next : Except RuntimeError Value → Action H NativeOutcome}
    {activations : List (Activation H)}
    (h : m.activations = .body :: .switch r outer next :: activations) (v : Value) :
    m.YieldSuspends v := by
  obtain ⟨-, frame, rest, hpush⟩ := hruns.processor hm
  obtain ⟨hcanYield, -⟩ := Processor.isYieldable_iff.mp hcan
  have hyields : (m.yielding v).Yields r v :=
    ⟨yields?_eq_some_iff.mpr ⟨rfl, outer, next, activations, h⟩, hcanYield⟩
  have hwellFramed := hm.wellFramed.yielding hruns v
  have hthree := hyields.after_three hwellFramed hpush h
  have hfour := hyields.after_four hwellFramed hpush h
  have hwellNested := hm.wellNested
  have hcurrent := hwellNested.current_of_switch rfl h
  obtain ⟨c, hc, -, hstate⟩ := hwellNested.isScript_of_body h
  have hmain : r ≠ m.core.world.main := by
    rintro rfl
    exact hstate (hwellNested.scheduled.state_main hc)
  have hrunning := (hwellNested.scheduled.running r c hc hmain).mpr (List.mem_of_head? hcurrent)
  refine ⟨r, 4, hcurrent, (hruns.uneventful_three hpush hcan v).succ ?_, ?_, ?_⟩
  · rw [hthree]
    rfl
  · rw [hfour]
    exact ⟨[.body], next, by simp [Activation.coroutine?], h, rfl⟩
  · rw [hfour]
    exact ⟨_, World.coroutine?_release_self hc _ _, by rw [hrunning]; rfl⟩

omit [LawfulHost H] in
/-- One of the two has come about, so the other has not. -/
theorem yields_or_violates_of {p : Prop} {v : Value} {e₀ : ContractViolation}
    (h : p ∧ m.YieldSuspends v ∨ ¬p ∧ m.YieldViolates v e₀) :
    (m.YieldSuspends v ↔ p) ∧ ∀ e, m.YieldViolates v e ↔ ¬p ∧ e = e₀ := by
  rcases h with ⟨hp, hsuspends⟩ | ⟨hnot, hviolates⟩
  · refine ⟨⟨fun _ => hp, fun _ => hsuspends⟩, fun e => ⟨?_, ?_⟩⟩
    · exact fun h => absurd h hsuspends.not_violates
    · exact fun h => absurd hp h.1
  · refine ⟨⟨?_, fun h => absurd h hnot⟩, fun e => ⟨?_, ?_⟩⟩
    · exact fun h => absurd hviolates h.not_violates
    · exact fun h => ⟨hnot, h.unique hviolates⟩
    · exact fun h => h.2 ▸ hviolates

/-- The yield of any function that runs, wherever and for whatever it was called, suspends the
current coroutine exactly if the processor says that it can be left by a yield and the
coroutine is one over a script.  Otherwise the yield violates a contract; so it does, in spite
of what the processor says, if the coroutine is one over a host function. -/
theorem Reachable.yields_or_violates (hm : m.Reachable) (hruns : m.RunsFunction) (v : Value) :
    (m.YieldSuspends v ↔ m.core.proc.isYieldable = true ∧ m.InScript) ∧
      ∀ e, m.YieldViolates v e ↔
        ¬(m.core.proc.isYieldable = true ∧ m.InScript) ∧ e = m.core.proc.yieldViolation := by
  apply yields_or_violates_of
  cases hcan : m.core.proc.isYieldable with
  | false => exact Or.inr ⟨by simp, violates_of_refused hm hruns hcan v⟩
  | true =>
      have hloop := hruns.inLoop hm.wellNested
      have hnested := hm.wellNested.nested
      generalize hactivations : m.activations = activations at hloop hnested
      cases hnested with
      | nil => exact absurd hloop not_inLoop_nil
      | call mark hwaiter hrest =>
          have hnot := not_inScript_of_call hm hruns hcan hactivations
          exact Or.inr ⟨fun h => hnot h.2, violates_of_call hm hruns hcan hactivations v⟩
      | body hscript hrest =>
          have hcurrent := hm.wellNested.current_of_switch rfl hactivations
          exact Or.inl ⟨⟨rfl, _, hcurrent, hscript⟩,
            suspends_of_body hm hruns hcan hactivations v⟩
      | switch r outer hacts hnext hrest => exact absurd hloop InLoop.ne_switch

end

/-- The host makes a coroutine over the function that asks whether it can yield, and resumes
it. -/
def askingOn (kind : CoroutineKind) : Machine HostTypes.alone :=
  .start (.start { modules := ⟨false, false, false⟩ } ())
    (.write (fun w => (w.addLibrary "isyieldable" .coroutineIsYieldable).2)
      (.write (fun w => (w.addCoroutine kind (.native ⟨3⟩)).2)
        (.resume ⟨4⟩ [] fun r => (Action.ofResult r).bind Library.one)))

theorem reachable_askingOn (kind : CoroutineKind) (n : Nat) :
    ((askingOn kind).after n).Reachable := by
  refine (leads_after _ n).reachable (.start _ _ ?_)
  refine .write (fun w => .addNative w _) (.write (fun w => .addCoroutine w _ _) ?_)
  exact .resume _ _ fun r => Action.lawful_bind (Action.lawful_ofResult r) Library.lawful_one

/-- On a coroutine over a script the function is told that it can yield, and it can. -/
theorem yields_asking :
    ((askingOn .script).after 4).Reachable ∧ ((askingOn .script).after 4).RunsFunction ∧
      ((askingOn .script).after 4).control = .running (Library.one (.boolean true)) ∧
      ((askingOn .script).after 4).YieldSuspends (.number 7) := by
  have hreachable := reachable_askingOn .script 4
  have hruns : ((askingOn .script).after 4).RunsFunction := ⟨⟨_, rfl⟩, nofun⟩
  have hscript : ((askingOn .script).after 4).InScript := ⟨⟨4⟩, rfl, _, rfl, rfl, nofun⟩
  exact ⟨hreachable, hruns, rfl,
    (hreachable.yields_or_violates hruns (.number 7)).1.mpr ⟨rfl, hscript⟩⟩

/-- On a coroutine over a host function it is told the same, and it cannot. -/
theorem violates_asking :
    ((askingOn .native).after 5).Reachable ∧ ((askingOn .native).after 5).RunsFunction ∧
      ((askingOn .native).after 5).core.proc.isYieldable = true ∧
      ((askingOn .native).after 5).control = .running (Library.one (.boolean true)) ∧
      ((askingOn .native).after 5).YieldViolates (.number 7) .cannotYield ∧
      ¬((askingOn .native).after 5).YieldSuspends (.number 7) := by
  have hreachable := reachable_askingOn .native 5
  have hruns : ((askingOn .native).after 5).RunsFunction := ⟨⟨_, rfl⟩, nofun⟩
  have hviolates : ((askingOn .native).after 5).YieldViolates (.number 7) .cannotYield :=
    violates_of_call hreachable hruns rfl rfl (.number 7)
  exact ⟨hreachable, hruns, rfl, rfl, hviolates, fun h => h.not_violates hviolates⟩

/-! ## What a function is told -/

/-- Whether the processor can yield that waits below some activations. -/
def canYieldBelow : Bool → List (Activation H) → Bool
  | canYield, [] => canYield
  | _, .switch _ outer _ :: rest => canYieldBelow outer.canYield rest
  | canYield, .call _ _ :: rest => canYieldBelow canYield rest
  | canYield, .body :: rest => canYieldBelow canYield rest

theorem canYieldBelow_append {loops : List (Activation H)}
    (hloops : ∀ a ∈ loops, a.coroutine? = none) (canYield : Bool)
    (activations : List (Activation H)) :
    canYieldBelow canYield (loops ++ activations) = canYieldBelow canYield activations := by
  induction loops with
  | nil => rfl
  | cons a loops ih =>
      have hrest := ih fun b hb => hloops b (List.mem_cons_of_mem a hb)
      cases a with
      | call mark waiter => exact hrest
      | body => exact hrest
      | switch r outer next => cases hloops _ List.mem_cons_self

/-- A step leaves the processors that wait below alone. -/
theorem Turn.canYieldBelow_eq (h : Turn m m') {inner inner' below : List (Activation H)}
    (hbefore : m.activations = inner ++ below) (hafter : m'.activations = inner' ++ below) :
    canYieldBelow m'.core.proc.canYield inner' = canYieldBelow m.core.proc.canYield inner := by
  cases h with
  | stays hworld hsame hcan =>
      rw [hbefore, hafter] at hsame
      rw [List.append_cancel_right hsame, hcan]
  | enters hworld mark waiter henters hcan =>
      rw [hbefore, hafter] at henters
      obtain rfl : inner' = .call mark waiter :: inner := List.append_cancel_right henters
      exact congrArg (canYieldBelow · inner) hcan
  | leaves hworld a ha hleaves hcan hfrom =>
      rw [hbefore, hafter] at hleaves
      obtain rfl : inner = a :: inner' := List.append_cancel_right hleaves
      have hloops : ∀ b ∈ [a], b.coroutine? = none := by simpa using ha
      rw [hcan]
      exact (canYieldBelow_append hloops _ inner').symm
  | engages r c hready p hp hproc next hworld loops hloops hengages hfrom =>
      rw [hbefore, hafter] at hengages
      obtain rfl : inner' = loops ++ .switch r m.core.proc next :: inner :=
        List.append_cancel_right
          (hengages.trans (List.append_assoc loops (_ :: inner) below).symm)
      exact canYieldBelow_append hloops _ _
  | releases r next exit hexit hworld hreleases hcontrol =>
      rw [hbefore, hafter] at hreleases
      obtain rfl : inner = .switch r m'.core.proc next :: inner' :=
        List.append_cancel_right hreleases
      rfl

section

variable [Host H] [LawfulHost H]

theorem Reachable.canYieldBelow_eq (hm : m.Reachable) {below : List (Activation H)} {n : Nat}
    (hstays : ∀ j ≤ n, below <:+ (m.after j).activations) {inner inner' : List (Activation H)}
    (hbefore : m.activations = inner ++ below)
    (hafter : (m.after n).activations = inner' ++ below) :
    canYieldBelow (m.after n).core.proc.canYield inner' =
      canYieldBelow m.core.proc.canYield inner := by
  induction n generalizing inner' with
  | zero =>
      change m.activations = _ at hafter
      rw [List.append_cancel_right (hafter.symm.trans hbefore)]
      rfl
  | succ n ih =>
      obtain ⟨between, hbetween⟩ := hstays n (Nat.le_succ n)
      have hturn := turn_next (hm.after n).wellNested.control
      rw [← ih (fun j hj => hstays j (Nat.le_succ_of_le hj)) hbetween.symm]
      exact hturn.canYieldBelow_eq hbetween.symm hafter

/-- What a function was told as it was invoked is true for as long as it runs, whatever it
has called in the meantime. -/
theorem Reachable.told_truly (hm : m.Reachable) {f : NativeRef} {args : Arguments}
    (hinvoked : m.control = .loop (.invoke f args)) {n : Nat}
    (hstays : ∀ j ≤ n, m.activations <:+ (m.after j).activations)
    (hback : (m.after n).activations = m.activations) (hruns : (m.after n).RunsFunction) :
    (m.after n).core.proc.isYieldable = m.core.proc.isYieldable := by
  obtain ⟨⟨a, hcontrol⟩, -⟩ := hruns
  have hcan : canYieldBelow (m.after n).core.proc.canYield [] =
      canYieldBelow m.core.proc.canYield [] := hm.canYieldBelow_eq hstays rfl hback
  have hseated := hm.wellFramed.seated
  unfold Seated at hseated
  rw [hinvoked] at hseated
  have hseated' := (hm.after n).wellFramed.seated
  unfold Seated at hseated'
  rw [hcontrol, hback] at hseated'
  have hnesting : (m.after n).core.proc.nesting = m.core.proc.nesting :=
    (StandsOn.loopsAt_eq hseated').trans (StandsOn.loopsAt_eq hseated).symm
  unfold canYieldBelow at hcan
  unfold Processor.isYieldable
  rw [hcan, hnesting]

end

end Machine

end ScriptEngine
