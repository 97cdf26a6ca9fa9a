import ScriptEngine.Proofs.Frame.Protection

/-!
# Functions that have yielded

The frame of a function that yields is set aside until its coroutine is resumed.
At all other times no frame is: not when a call begins, not on a processor that
waits, and never on the main processor once it has been left.
-/

namespace ScriptEngine

variable {H : HostTypes}

/-- A processor at rest, as far as set-aside frames are concerned. -/
def CoroutineState.YieldedFits (p : Processor) : CoroutineState → Prop
  | .main => p.canYield = false ∧ p.yielded? = none
  | .notStarted => p.yielded? = none
  | .forceSuspended => p.yielded? = none
  | .suspended => True
  | .running => True
  | .dead => True

def World.YieldedFits (w : World H) : Prop :=
  ∀ r c p, w.coroutine? r = some c → c.processor? = some p → c.state.YieldedFits p

/-- The processors that wait have nothing set aside, and the one of the main
coroutine and that of the host cannot yield. -/
def YieldedFitsOn (main : CoroutineRef) : Bool → List (Activation H) → Prop
  | canYield, .switch r outer _ :: rest =>
      (r = main → canYield = false) ∧ outer.yielded? = none ∧
        YieldedFitsOn main outer.canYield rest
  | canYield, .call _ _ :: rest => YieldedFitsOn main canYield rest
  | canYield, .body :: rest => YieldedFitsOn main canYield rest
  | canYield, [] => canYield = false

/-- A frame is set aside only on the way of a yield. -/
def Control.YieldedFits (p : Processor) : Control H → Prop
  | .loop (.yield _) => True
  | .settling (.yield _) => True
  | .leaving (.ok (.yielded _)) => p.canYield = true ∧ p.nesting ≤ 1
  | .answering .processor _ => p.canYield = false → p.yielded? = none
  | .switching exit =>
      (p.canYield = false → p.yielded? = none) ∧
        (exit = .ok .forceYielded → p.yielded? = none)
  | _ => p.yielded? = none

namespace Exec

/-- The program sets nothing aside, unless it is a function that yields. -/
def ResultYieldedFits (p : Processor) :
    EStateM.Result RuntimeError (Core H) Outcome → Prop
  | .ok o c =>
      c.proc.canYield = p.canYield ∧
        (c.proc.yielded? = p.yielded? ∨ ∃ v, o = .yield v)
  | .error _ c =>
      c.proc.canYield = p.canYield ∧ c.proc.yielded? = p.yielded?

variable {c : Core H} {r : EStateM.Result RuntimeError (Core H) Outcome}

theorem Called.yieldedFits {flags : FrameFlags} {returnAddress : Nat}
    {handlers : Handlers} (h : Called c flags returnAddress handlers r) :
    ResultYieldedFits c.proc r := by
  cases h with
  | failed e h => exact ⟨rfl, rfl⟩
  | recovered e handler h => exact ⟨rfl, Or.inl rfl⟩
  | entered f args hdepth => exact ⟨rfl, Or.inl rfl⟩
  | invoked f args hdepth => exact ⟨rfl, Or.inl rfl⟩

theorem Delivered.yieldedFits {flags : FrameFlags} {returnAddress : Nat}
    {v? : Option Value} (h : Delivered c flags returnAddress v? r) :
    ResultYieldedFits c.proc r := by
  cases h <;> exact ⟨rfl, Or.inl rfl⟩

theorem Finished.yieldedFits {frame : Frame} {v : Value} (h : Finished c frame v r) :
    ResultYieldedFits c.proc r := by
  cases h with
  | delivered v? hpost h => exact h.yieldedFits
  | continued f h => exact ⟨rfl, Or.inl rfl⟩
  | notNumber h hv => exact ⟨rfl, rfl⟩

theorem Carried.yieldedFits (h : Carried c r) : ResultYieldedFits c.proc r := by
  cases h with
  | stepMatches => exact ⟨rfl, Or.inl rfl⟩
  | calls flags hentry handlers hhandlers h => exact h.yieldedFits
  | replaces caller rest hpush hcan flags hentry h => exact h.yieldedFits
  | returns frame rest hpush v h => exact h.yieldedFits
  | lost reason => exact ⟨rfl, rfl⟩

theorem Completed.yieldedFits {outcome : NativeOutcome} (h : Completed c outcome r) :
    ResultYieldedFits c.proc r := by
  cases h with
  | lost outcome h => exact ⟨rfl, rfl⟩
  | returns frame rest hpush v h => exact h.yieldedFits
  | yields frame rest hpush v => exact ⟨rfl, Or.inr ⟨v, rfl⟩⟩
  | replaced frame rest hpush hhandlers request => exact ⟨rfl, Or.inl rfl⟩
  | waits frame rest hpush hhandlers request => exact ⟨rfl, Or.inl rfl⟩

theorem ResultYieldedFits.trans {p q : Processor} (h : ResultYieldedFits q r)
    (hcan : q.canYield = p.canYield) (hyielded : q.yielded? = p.yielded?) :
    ResultYieldedFits p r := by
  cases r with
  | ok o c => exact ⟨h.1.trans hcan, h.2.imp_left fun h => h.trans hyielded⟩
  | error e c => exact ⟨h.1.trans hcan, h.2.trans hyielded⟩

theorem step_yieldedFits [HostObjects H] (c : Core H) : ResultYieldedFits c.proc (step c) := by
  rcases step_cases c with ⟨e, c', hrun, hplain⟩ | ⟨c', hplain, hcarried⟩
  · rw [hrun]
    exact ⟨hplain.canYield, hplain.yielded⟩
  · exact hcarried.yieldedFits.trans hplain.canYield hplain.yielded

end Exec

/-! ## The processors at rest -/

theorem CoroutineState.YieldedFits.of_alike {s : CoroutineState} {p p' : Processor}
    (h : s.YieldedFits p) (halike : p.Alike p') : s.YieldedFits p' := by
  cases s with
  | main => exact ⟨halike.canYield.trans h.1, halike.yielded.trans h.2⟩
  | notStarted => exact halike.yielded.trans h
  | forceSuspended => exact halike.yielded.trans h
  | suspended => trivial
  | running => trivial
  | dead => trivial

theorem World.YieldedFits.of_extends {w w' : World H} (hw : w.YieldedFits)
    (h : w.Extends w') : w'.YieldedFits :=
  World.Resting.of_extends (Q := fun s p => s.YieldedFits p) hw h
    (fun halike hyieldedFits => hyieldedFits.of_alike halike)
    (·.yielded)

theorem World.YieldedFits.engage {w : World H} (hw : w.YieldedFits) {r : CoroutineRef}
    {c : Coroutine} (hc : w.coroutine? r = some c) : (w.engage r).YieldedFits :=
  World.Resting.engage (Q := fun s p => s.YieldedFits p) hw hc id

/-- The state of a coroutine that gives way. -/
theorem CoroutineState.YieldedFits.after {s : CoroutineState} {p : Processor}
    {exit : Except RuntimeError LoopExit}
    (hmain : s = .main → p.canYield = false ∧ p.yielded? = none)
    (hforced : exit = .ok .forceYielded → p.yielded? = none) :
    (s.after exit).YieldedFits p := by
  unfold CoroutineState.after
  split
  · exact hmain rfl
  · trivial
  · trivial
  · exact hforced rfl
  · trivial

theorem World.YieldedFits.release {w : World H} (hscheduled : w.Scheduled)
    (hw : w.YieldedFits) {r : CoroutineRef} (hr : r ∈ w.inFlight) {p : Processor}
    {exit : Except RuntimeError LoopExit}
    (hmain : r = w.main → p.canYield = false)
    (hcontrol : (Control.switching exit : Control H).YieldedFits p) :
    (w.release r p exit).YieldedFits := by
  obtain ⟨c, hc⟩ := hscheduled.present r hr
  refine World.Resting.release (Q := fun s p => s.YieldedFits p) hw hc id
    (CoroutineState.YieldedFits.after ?_ hcontrol.2)
  intro hstate
  have hcan := hmain (hscheduled.mainOnly r c hc hstate)
  exact ⟨hcan, hcontrol.1 hcan⟩

namespace Machine

/-- The machine as far as the processor at hand is concerned. -/
structure YieldedFitsInFlight (main : CoroutineRef) (m : Machine H) : Prop where
  levels : YieldedFitsOn main m.core.proc.canYield m.activations
  control : m.control.YieldedFits m.core.proc

/-- Frames are set aside by yields alone. -/
structure YieldedFits (m : Machine H) : Prop where
  world : m.core.world.YieldedFits
  yieldedFitsInFlight : m.YieldedFitsInFlight m.core.world.main

variable {core : Core H} {activations : List (Activation H)}
  {main : CoroutineRef}

/-! ## Loops -/

theorem yieldedFitsInFlight_exec {route : Route} {x : Exec H Outcome} {p : Processor}
    (h : YieldedFitsOn main p.canYield activations) (hnone : p.yielded? = none)
    (hyieldedFits : Exec.ResultYieldedFits p (x core)) :
    (exec route x core activations).YieldedFitsInFlight main := by
  unfold exec
  cases hx : x core with
  | ok o core' =>
      rw [hx] at hyieldedFits
      obtain ⟨hcan, hyielded | ⟨v, rfl⟩⟩ := hyieldedFits
      · rw [hnone] at hyielded
        refine ⟨hcan ▸ h, ?_⟩
        cases route <;> cases o <;> first | exact hyielded | trivial
      · cases route <;> exact ⟨hcan ▸ h, trivial⟩
  | error e core' =>
      rw [hx] at hyieldedFits
      cases route <;> exact ⟨hyieldedFits.1 ▸ h, hyieldedFits.2.trans hnone⟩

theorem poll_yieldedFits [Host H] (core : Core H) :
    Exec.ResultYieldedFits core.proc (Exec.poll core) := by
  have hcounted : (counted core).proc.canYield = core.proc.canYield ∧
      (counted core).proc.yielded? = core.proc.yielded? := by
    unfold counted
    rw [countInstruction_eq]
    exact ⟨rfl, rfl⟩
  rcases poll_cases core with h | h | h
  · rw [h]
    exact ⟨rfl, rfl⟩
  · rw [h]
    exact ⟨hcounted.1, Or.inl hcounted.2⟩
  · rw [h]
    exact (Exec.step_yieldedFits _).trans hcounted.1 hcounted.2

/-- Only the outermost loop of a coroutine can be left by a yield. -/
theorem yieldable_of_checkYield {core' : Core H}
    (h : Exec.checkYield core = .ok () core') :
    core.proc.canYield = true ∧ core.proc.nesting ≤ 1 := by
  unfold Exec.checkYield at h
  rw [Exec.run_bind_of_ok (Exec.askProc_run _ core)] at h
  split at h
  · cases h
  · next hcan =>
      split at h
      · cases h
      · next hnesting =>
          simp only [id, Bool.not_eq_true', Bool.not_eq_false] at hcan
          exact ⟨hcan, Nat.not_lt.mp hnesting⟩

theorem yieldedFitsInFlight_afterOutcome [Host H] {o : Outcome}
    (h : YieldedFitsOn main core.proc.canYield activations)
    (hcontrol : (Control.loop o : Control H).YieldedFits core.proc) :
    (afterOutcome core activations o).YieldedFitsInFlight main := by
  cases o with
  | proceed => exact yieldedFitsInFlight_exec h hcontrol (poll_yieldedFits core)
  | finish frame v =>
      exact yieldedFitsInFlight_exec h hcontrol (Exec.finished_finish frame v core).yieldedFits
  | invoke f args => exact ⟨h, hcontrol⟩
  | recover e decorator? handler flags returnAddress =>
      cases decorator? with
      | none => exact ⟨h, hcontrol⟩
      | some decorator => exact ⟨h, hcontrol⟩
  | tailCall request flags returnAddress =>
      exact yieldedFitsInFlight_exec h hcontrol (Exec.called_call _ _ _ _ _ core).yieldedFits
  | yield v =>
      unfold afterOutcome
      rcases checkYield_cases core with hrun | ⟨violation, hrun⟩
      · rw [hrun]
        exact ⟨h, yieldable_of_checkYield hrun⟩
      · rw [hrun]
        exact ⟨h, rfl⟩
  | forceYield => exact ⟨h, hcontrol⟩
  | «return» v => exact ⟨h, hcontrol⟩

theorem yieldedFitsInFlight_beginCall [Host H] (function : Value) (args : List Value)
    {waiter : Waiter H} (h : YieldedFitsOn main core.proc.canYield activations)
    (hnone : core.proc.yielded? = none) :
    (beginCall core activations function args waiter).YieldedFitsInFlight main := by
  rcases beginCall_cases core activations function args waiter with hbegin | ⟨-, hbegin⟩
  all_goals rw [hbegin]
  · refine ⟨h, ?_⟩
    cases waiter <;> first | exact hnone | exact fun _ => hnone
  · refine yieldedFitsInFlight_exec (p := core.proc) h hnone ?_
    exact (Exec.called_call function args { entryPoint := true } core.proc.ip {}
      core.nested).yieldedFits

theorem yieldedFitsInFlight_afterFailure (e : RuntimeError)
    (h : YieldedFitsOn main core.proc.canYield activations)
    (hnone : core.proc.yielded? = none) :
    (afterFailure core activations e).YieldedFitsInFlight main := by
  cases e <;> exact ⟨h, hnone⟩

theorem yieldedFitsInFlight_catchError (e : ScriptError)
    (h : YieldedFitsOn main core.proc.canYield activations)
    (hnone : core.proc.yielded? = none) :
    (catchError core activations e).YieldedFitsInFlight main := by
  rcases catchError_cases core activations e with
    ⟨frame, handler, n, -, hcaught⟩ | ⟨n, -, hcaught⟩
  all_goals rw [hcaught]; exact ⟨h, hnone⟩

/-- Only a coroutine's own loop can be left by a yield. -/
theorem Waiter.Fits.eq_processor {mark : LoopMark} {waiter : Waiter H}
    {rest : List (Activation H)} {s : LoopPhase} {canYield : Bool} {nesting : Nat}
    {frames : List Frame} (hwaiter : waiter.Fits rest)
    (hstands : StandsOn s (.call mark waiter :: rest) nesting frames)
    (h : YieldedFitsOn main canYield rest) (hcan : canYield = true)
    (hnesting : nesting ≤ 1) : waiter = .processor := by
  obtain ⟨outer, above, below, houter, -, -, -, hrest⟩ := hstands
  have hnot : ¬InLoop rest := by
    intro hloop
    obtain ⟨_, _, _, _, hbase⟩ := (standsOn_iff hloop).mp hrest
    cases hbase <;> omega
  cases waiter with
  | processor => rfl
  | action next =>
      rcases hwaiter.1 with rfl | hloop
      · rw [show canYield = false from h] at hcan
        cases hcan
      · exact absurd hloop hnot
  | decorated e rest => exact absurd hwaiter hnot
  | refused e handler flags returnAddress => exact absurd hwaiter hnot
  | recovered flags returnAddress => exact absurd hwaiter hnot
  | caught flags returnAddress => exact absurd hwaiter hnot

theorem yieldedFitsInFlight_leave {w : World H} (exit : Except RuntimeError LoopExit)
    (hnested : Nested w activations) (hloop : InLoop activations)
    (hstands : StandsOn (LoopExit.phase core.proc exit) activations
      core.proc.nesting core.proc.frames.items)
    (h : YieldedFitsOn main core.proc.canYield activations)
    (hcontrol : (Control.leaving exit : Control H).YieldedFits core.proc) :
    (leave core activations exit).YieldedFitsInFlight main := by
  cases hnested with
  | nil => exact absurd hloop not_inLoop_nil
  | @call mark waiter rest hwaiter hrest =>
      change (endCall core rest mark waiter exit).YieldedFitsInFlight main
      unfold endCall
      have hanswer {p : Processor} (hnone : p.yielded? = none)
          (result : Except RuntimeError Value) :
          (Control.answering waiter result).YieldedFits p := by
        cases waiter <;> first | exact hnone | exact fun _ => hnone
      rcases exit with e | exit
      · refine ⟨h, hanswer ?_ _⟩
        exact hcontrol
      · cases exit with
        | returned v =>
            refine ⟨h, hanswer ?_ _⟩
            exact hcontrol
        | forceYielded =>
            refine ⟨h, hanswer ?_ _⟩
            exact hcontrol
        | yielded v =>
            obtain ⟨hcan, hnesting⟩ := hcontrol
            obtain rfl := Waiter.Fits.eq_processor hwaiter hstands h hcan hnesting
            refine ⟨h, ?_⟩
            intro hcannot
            rw [show core.proc.canYield = false from hcannot] at hcan
            cases hcan
  | @body r outer next rest hscript hrest =>
      change (endBody core (.switch r outer next :: rest) exit).YieldedFitsInFlight main
      unfold endBody
      rcases exit with e | exit
      · exact ⟨h, fun _ => rfl, nofun⟩
      · refine ⟨h, ?_⟩
        cases exit with
        | returned v => exact ⟨fun _ => hcontrol, nofun⟩
        | forceYielded => exact ⟨fun _ => hcontrol, fun _ => hcontrol⟩
        | yielded v =>
            obtain ⟨hcan, -⟩ := hcontrol
            refine ⟨?_, nofun⟩
            intro hcannot
            rw [show core.proc.canYield = false from hcannot] at hcan
            cases hcan
  | switch r outer hacts hnext hrest => exact absurd hloop InLoop.ne_switch

theorem yieldedFitsInFlight_answer {waiter : Waiter H} (result : Except RuntimeError Value)
    (h : YieldedFitsOn main core.proc.canYield activations)
    (hcontrol : (Control.answering waiter result).YieldedFits core.proc) :
    (answer core activations result waiter).YieldedFitsInFlight main := by
  cases waiter with
  | action next => exact ⟨h, hcontrol⟩
  | decorated e rest => exact ⟨h, hcontrol⟩
  | refused e handler flags returnAddress => exact ⟨h, hcontrol⟩
  | recovered flags returnAddress =>
      cases result with
      | ok v =>
          exact yieldedFitsInFlight_exec h hcontrol
            (Exec.delivered_deliver flags returnAddress (some v) core).yieldedFits
      | error e => exact ⟨h, hcontrol⟩
  | caught flags returnAddress =>
      cases result with
      | ok v =>
          exact yieldedFitsInFlight_exec h hcontrol
            (Exec.delivered_deliver flags returnAddress (some v) core).yieldedFits
      | error e => exact ⟨h, hcontrol⟩
  | processor =>
      refine ⟨h, hcontrol, ?_⟩
      cases result <;> nofun

theorem yieldedFitsInFlight_settle {o : Outcome}
    (h : YieldedFitsOn main core.proc.canYield activations)
    (hcontrol : (Control.settling o : Control H).YieldedFits core.proc) :
    (settle core activations o).YieldedFitsInFlight main := by
  cases o with
  | finish frame v =>
      exact yieldedFitsInFlight_exec h hcontrol (Exec.finished_finish frame v core).yieldedFits
  | yield v => exact ⟨h, trivial⟩
  | _ => exact ⟨h, hcontrol⟩

/-! ## Switches -/

theorem yieldedFitsInFlight_runCoroutine [Host H] {w world : World H} {r : CoroutineRef}
    {c : Coroutine} {p outer : Processor} (args : List Value)
    {next : Except RuntimeError Value → Action H NativeOutcome}
    (hscheduled : w.Scheduled) (hc : w.coroutine? r = some c)
    (hsuspended : c.state.isSuspended = true) (hyieldedFits : c.state.YieldedFits p)
    (hnone : outer.yielded? = none)
    (h : YieldedFitsOn w.main outer.canYield activations) :
    (runCoroutine world (.switch r outer next :: activations) c p args).YieldedFitsInFlight
      w.main := by
  have hlevels : YieldedFitsOn w.main p.canYield
      (.switch r outer next :: activations) := by
    exact ⟨fun hmain => absurd hmain (hscheduled.ne_main_of_isSuspended hc hsuspended), hnone, h⟩
  have hroused := roused_runCoroutine world (.switch r outer next :: activations) c p args
  generalize runCoroutine world _ c p args = m at hroused ⊢
  cases hroused with
  | native hkind =>
      refine ⟨hlevels, ?_⟩
      rw [hscheduled.notStarted_of_native hc hkind hsuspended] at hyieldedFits
      exact hyieldedFits
  | first hkind hstate =>
      rw [hstate] at hyieldedFits
      refine yieldedFitsInFlight_exec (p := p) hlevels hyieldedFits ?_
      exact (Exec.called_call c.entry args { entryPoint := true } 0 {}
        (⟨world, p.enterOutermost⟩ : Core H)).yieldedFits
  | lost hkind hstate hyielded => exact ⟨hlevels, fun _ => hyielded, fun _ => hyielded⟩
  | yielded frame hkind hstate hyielded => exact ⟨hlevels, rfl⟩
  | forced hkind hfirst hyielded =>
      refine ⟨hlevels, ?_⟩
      rw [CoroutineState.eq_forceSuspended hsuspended hfirst hyielded] at hyieldedFits
      exact hyieldedFits

theorem yieldedFitsInFlight_resume [Host H] (r : CoroutineRef) (args : List Value)
    (next : Except RuntimeError Value → Action H NativeOutcome)
    (hscheduled : core.world.Scheduled) (hworld : core.world.YieldedFits)
    (h : YieldedFitsOn core.world.main core.proc.canYield activations)
    (hnone : core.proc.yielded? = none) :
    (resume core activations r args next).YieldedFitsInFlight core.world.main := by
  rcases resume_cases core activations r args next with
    ⟨e, -, hresume⟩ | ⟨c, p, hc, hp, hstate, -, hresume⟩
  all_goals rw [hresume]
  · exact ⟨h, hnone⟩
  · exact yieldedFitsInFlight_runCoroutine args hscheduled hc hstate (hworld r c p hc hp) hnone h

theorem yieldedFitsInFlight_enterMain (function : Value) (args : List Value)
    (next : Except RuntimeError Value → Action H NativeOutcome)
    (hscheduled : core.world.Scheduled) (hworld : core.world.YieldedFits)
    (h : YieldedFitsOn core.world.main core.proc.canYield activations)
    (hnone : core.proc.yielded? = none) :
    (enterMain core activations function args next).YieldedFitsInFlight core.world.main := by
  rcases enterMain_cases core activations function args next with
    henter | ⟨c, p, hc, hp, henter⟩
  all_goals rw [henter]
  · exact ⟨h, hnone⟩
  · have hyieldedFits := hworld _ c p hc hp
    rw [hscheduled.state_main hc] at hyieldedFits
    exact ⟨⟨fun _ => hyieldedFits.1, hnone, h⟩, hyieldedFits.2⟩

theorem yieldedFitsInFlight_act [Host H] (a : Action H NativeOutcome)
    (hacts : ActsIn activations)
    (hscheduled : core.world.Scheduled) (hworld : core.world.YieldedFits)
    (h : YieldedFitsOn core.world.main core.proc.canYield activations)
    (hnone : core.proc.yielded? = none) :
    (act core activations a).YieldedFitsInFlight core.world.main := by
  cases a with
  | done outcome =>
      rcases hacts with rfl | hloop
      · exact ⟨h, hnone⟩
      · rw [act_done hloop]
        exact yieldedFitsInFlight_exec h hnone
          (Exec.completed_completeNative outcome core).yieldedFits
  | fail e =>
      rcases hacts with rfl | hloop
      · exact ⟨h, hnone⟩
      · rw [act_fail hloop]
        exact ⟨h, hnone⟩
  | read next => exact ⟨h, hnone⟩
  | write change next => exact ⟨h, hnone⟩
  | call function args next => exact ⟨h, hnone⟩
  | resume r args next => exact yieldedFitsInFlight_resume r args next hscheduled hworld h hnone
  | enterMain function args next =>
      exact yieldedFitsInFlight_enterMain function args next hscheduled hworld h hnone

/-! ## Steps -/

variable {m m' : Machine H}

theorem yieldedFitsInFlight_next [Host H] (hm : m.WellNested) (hg : m.WellFramed)
    (h : m.YieldedFits) :
    m.next.YieldedFitsInFlight m.core.world.main := by
  obtain ⟨core, activations, control⟩ := m
  have hfits := hm.control
  have hseated := hg.seated
  obtain ⟨hlevels, hcontrol⟩ := h.yieldedFitsInFlight
  cases control with
  | loop o => exact yieldedFitsInFlight_afterOutcome hlevels hcontrol
  | failed e => exact yieldedFitsInFlight_afterFailure e hlevels hcontrol
  | unwinding e decorators =>
      cases decorators with
      | nil => exact yieldedFitsInFlight_catchError e hlevels hcontrol
      | cons d rest => exact ⟨hlevels, hcontrol⟩
  | calling function args waiter =>
      exact yieldedFitsInFlight_beginCall function args hlevels hcontrol
  | leaving exit =>
      exact yieldedFitsInFlight_leave exit hm.nested hfits hseated hlevels hcontrol
  | answering waiter result => exact yieldedFitsInFlight_answer result hlevels hcontrol
  | switching exit =>
      obtain ⟨r, outer, next, rest, rfl, -⟩ := hfits
      exact ⟨hlevels.2.2, hlevels.2.1⟩
  | running a => exact yieldedFitsInFlight_act a hfits.1 hm.scheduled h.world hlevels hcontrol
  | settling o => exact yieldedFitsInFlight_settle hlevels hcontrol
  | finished result => exact ⟨hlevels, hcontrol⟩

theorem Turn.yieldedFits (h : Turn m m') (hm : m.WellNested) (hyieldedFits : m.YieldedFits) :
    m'.core.world.YieldedFits := by
  cases h with
  | stays hworld h => exact hyieldedFits.world.of_extends hworld
  | enters hworld mark waiter h => exact hyieldedFits.world.of_extends hworld
  | leaves hworld a ha h =>
      rw [hworld]
      exact hyieldedFits.world
  | engages r c hready p hp hproc next hworld loops hloops h hfrom =>
      rw [hworld]
      exact hyieldedFits.world.engage hready.found
  | releases r next exit hexit hworld h hcontrol =>
      have hlevels := hyieldedFits.yieldedFitsInFlight.levels
      have hswitching := hyieldedFits.yieldedFitsInFlight.control
      rw [h] at hlevels
      rw [hexit] at hswitching
      rw [hworld]
      refine World.YieldedFits.release hm.scheduled hyieldedFits.world ?_ hlevels.1 hswitching
      rw [hm.inFlight, h]
      exact List.mem_cons_self

theorem YieldedFits.next [Host H] (h : m.YieldedFits) (hm : m.WellNested) (hg : m.WellFramed) :
    m.next.YieldedFits := by
  have hturn := turn_next hm.control
  refine ⟨hturn.yieldedFits hm h, ?_⟩
  rw [hturn.main_eq]
  exact yieldedFitsInFlight_next hm hg h

theorem yieldedFits_start {w : World H} (hw : w.YieldedFits) (a : Action H NativeOutcome) :
    (start w a).YieldedFits :=
  ⟨hw, rfl, rfl⟩

theorem yieldedFits_startWorld (settings : Settings) (host : H.State) :
    (World.start settings host).YieldedFits := by
  refine World.resting_start (Q := fun s p => s.YieldedFits p) ⟨rfl, rfl⟩
    (fun halike hfits => ?_) (·.yielded) settings host
  exact hfits.of_alike halike

theorem Reachable.yieldedFits [Host H] [LawfulHost H] (h : m.Reachable) : m.YieldedFits := by
  induction h with
  | start settings host ha => exact yieldedFits_start (yieldedFits_startWorld _ _) _
  | next h ih => exact ih.next h.wellNested h.wellFramed
  | again h hfinished hw ha ih => exact yieldedFits_start (ih.world.of_extends hw) _

/-- When a nested call has a result nothing is set aside, but for a coroutine
over a host function. -/
theorem YieldedFits.yielded_none {waiter : Waiter H} {result : Except RuntimeError Value}
    (h : m.YieldedFits) (hcontrol : m.control = .answering waiter result)
    (hwaiter : waiter = .processor → m.core.proc.canYield = false) :
    m.core.proc.yielded? = none := by
  have hyieldedFits := h.yieldedFitsInFlight.control
  rw [hcontrol] at hyieldedFits
  cases waiter with
  | processor => exact hyieldedFits (hwaiter rfl)
  | _ => exact hyieldedFits

end Machine

end ScriptEngine
