import ScriptEngine.Proofs.Budget.IgnoredMeters
import ScriptEngine.Proofs.Frame.LoopFrames

/-!
# Machines and the budget of one coroutine

The processor of a coroutine in flight is at hand, or it waits for another
coroutine.  A machine and the same machine with another meter on that processor
do the same from step to step, except that the meter counts the instructions of
the coroutine and suspends it when its budget is used up.
-/

namespace ScriptEngine

variable {H : HostTypes} {r : CoroutineRef} {k : Meter}

/-- The coroutine runs; the others in flight wait for it. -/
def IsWorking (r : CoroutineRef) (activations : List (Activation H)) : Prop :=
  (switches activations).head? = some r

instance (activations : List (Activation H)) : Decidable (IsWorking r activations) :=
  inferInstanceAs (Decidable ((switches activations).head? = some r))

/-- The meter for the processor at hand, if it is that of the coroutine. -/
def meterFor (r : CoroutineRef) (k : Meter) (activations : List (Activation H)) :
    Option Meter :=
  if IsWorking r activations then some k else none

def meteredOn (r : CoroutineRef) (k : Meter) :
    List (Activation H) → List (Activation H)
  | [] => []
  | .switch c outer next :: rest =>
      .switch c (outer.metered (meterFor r k rest)) next :: meteredOn r k rest
  | .call mark waiter :: rest => .call mark waiter :: meteredOn r k rest
  | .body :: rest => .body :: meteredOn r k rest

theorem Exec.ignoresMeter_checkYield : IgnoresMeter (checkYield : Exec H Unit) := by
  have hrefuse (violation : ContractViolation) : IgnoresMeter (do
      modifyProc fun p => { p with yielded? := none }
      throw (.contract violation) : Exec H Unit) :=
    (ignoresMeter_modifyProc fun _ _ => rfl).bind fun _ => ignoresMeter_throw _
  have hcheck (canYield : Bool) (nesting : Nat) : IgnoresMeter (
      if !canYield then do
        modifyProc fun p => { p with yielded? := none }
        throw (.contract .yieldFromMain)
      else if 1 < nesting then do
        modifyProc fun p => { p with yielded? := none }
        throw (.contract .cannotYield)
      else pure () : Exec H Unit) := by
    split
    · exact hrefuse _
    · split
      · exact hrefuse _
      · exact ignoresMeter_pure ()
  intro k? c
  unfold checkYield
  rw [run_bind_of_ok (askProc_run _ c), run_bind_of_ok (askProc_run _ _)]
  exact hcheck c.proc.canYield c.proc.nesting k? c

namespace Machine

/-- The machine with another meter on the processor of a coroutine in flight. -/
def metered (m : Machine H) (r : CoroutineRef) (k : Meter) : Machine H :=
  ⟨m.core.metered (meterFor r k m.activations), meteredOn r k m.activations, m.control⟩

theorem meterFor_of_ne {c : CoroutineRef} (hc : c ≠ r) (outer : Processor)
    (next : Except RuntimeError Value → Action H NativeOutcome)
    (rest : List (Activation H)) : meterFor r k (.switch c outer next :: rest) = none := by
  refine if_neg fun h => ?_
  exact hc (Option.some.inj h)

theorem frameFloor_meteredOn (activations : List (Activation H)) :
    frameFloor (meteredOn r k activations) = frameFloor activations := by
  cases activations with
  | nil => rfl
  | cons a rest => cases a <;> rfl

theorem exec_metered (route : Route) {x : Exec H Outcome} (hx : Exec.IgnoresMeter x) (core : Core H)
    (activations : List (Activation H)) :
    exec route x (core.metered (meterFor r k activations)) (meteredOn r k activations) =
      (exec route x core activations).metered r k := by
  unfold exec
  rw [hx]
  cases x core <;> cases route <;> rfl

/-! ## Loops -/

variable [Host H]

theorem beginCall_metered (core : Core H) (activations : List (Activation H))
    (function : Value) (args : List Value) (waiter : Waiter H) :
    beginCall (core.metered (meterFor r k activations)) (meteredOn r k activations)
        function args waiter =
      (beginCall core activations function args waiter).metered r k := by
  rcases Nat.lt_or_ge core.proc.nesting core.world.settings.maxNativeNesting with hroom | hfull
  · rw [beginCall_of_room core hroom]
    refine (beginCall_of_room (core.metered _) hroom).trans ?_
    exact exec_metered _
      (Exec.ignoresMeter_call function args { entryPoint := true } core.proc.ip {})
      core.nested (.call core.proc.mark waiter :: activations)
  · rw [beginCall_of_crowded core hfull]
    exact beginCall_of_crowded (core.metered _) hfull

omit [Host H] in
theorem leave_metered (core : Core H) (activations : List (Activation H))
    (exit : Except RuntimeError LoopExit) :
    leave (core.metered (meterFor r k activations)) (meteredOn r k activations) exit =
      (leave core activations exit).metered r k := by
  cases activations with
  | nil => rfl
  | cons a rest =>
      cases a with
      | call mark waiter =>
          rcases exit with e | exit
          · rfl
          · cases exit <;> rfl
      | body => cases exit <;> rfl
      | switch c outer next => rfl

omit [Host H] in
theorem answer_metered (core : Core H) (activations : List (Activation H))
    (result : Except RuntimeError Value) (waiter : Waiter H) :
    answer (core.metered (meterFor r k activations)) (meteredOn r k activations)
        result waiter =
      (answer core activations result waiter).metered r k := by
  cases waiter with
  | recovered flags returnAddress =>
      cases result with
      | error e => rfl
      | ok v => exact exec_metered _ (Exec.ignoresMeter_deliver flags returnAddress (some v)) _ _
  | caught flags returnAddress =>
      cases result with
      | error e => rfl
      | ok v =>
          exact exec_metered _ (Exec.ignoresMeter_deliver flags returnAddress (some v)) _ _
  | _ => rfl

omit [Host H] in
theorem settle_metered (core : Core H) (activations : List (Activation H)) (o : Outcome) :
    settle (core.metered (meterFor r k activations)) (meteredOn r k activations) o =
      (settle core activations o).metered r k := by
  cases o with
  | finish frame v =>
      exact exec_metered _ (Exec.ignoresMeter_finish frame v) _ _
  | _ => rfl

omit [Host H] in
theorem afterFailure_metered (core : Core H) (activations : List (Activation H))
    (e : RuntimeError) :
    afterFailure (core.metered (meterFor r k activations)) (meteredOn r k activations) e =
      (afterFailure core activations e).metered r k := by
  unfold afterFailure
  rw [frameFloor_meteredOn]
  cases e <;> rfl

omit [Host H] in
theorem catchError_metered (core : Core H) (activations : List (Activation H))
    (e : ScriptError) :
    catchError (core.metered (meterFor r k activations)) (meteredOn r k activations) e =
      (catchError core activations e).metered r k := by
  have hdrop (p : Processor) (k? : Option Meter) (floor : Nat) :
      (p.metered k?).dropErrorPath floor =
        ((p.dropErrorPath floor).1, (p.dropErrorPath floor).2.metered k?) := rfl
  unfold catchError
  rw [frameFloor_meteredOn]
  dsimp only [Core.metered]
  rw [hdrop]
  cases (core.proc.dropErrorPath (frameFloor activations)).1 <;> rfl

theorem afterOutcome_metered (core : Core H) (activations : List (Activation H))
    {o : Outcome} (ho : o ≠ .proceed) :
    afterOutcome (core.metered (meterFor r k activations)) (meteredOn r k activations) o =
      (afterOutcome core activations o).metered r k := by
  cases o with
  | proceed => exact absurd rfl ho
  | finish frame v => exact exec_metered _ (Exec.ignoresMeter_finish frame v) _ _
  | invoke f args => rfl
  | recover e decorator? handler flags returnAddress => cases decorator? <;> rfl
  | tailCall request flags returnAddress =>
      exact exec_metered _ (Exec.ignoresMeter_call _ _ flags returnAddress _) _ _
  | yield v =>
      unfold afterOutcome
      dsimp only
      rw [Exec.ignoresMeter_checkYield]
      cases Exec.checkYield core <;> rfl
  | forceYield => rfl
  | «return» v => rfl

/-! ## Counting -/

/-- The machine is about to count an instruction of the coroutine. -/
structure Ticks (m : Machine H) (r : CoroutineRef) : Prop where
  control : m.control = .loop .proceed
  working : IsWorking r m.activations
  going : m.core.world.cancelled = false
  yieldable : m.core.proc.isYieldable = true

omit [Host H] in
theorem Ticks.nesting {m : Machine H} (h : m.Ticks r) : m.core.proc.nesting = 1 := by
  exact (Processor.isYieldable_iff.mp h.yieldable).2

omit [Host H] in
theorem countInstruction_of_idle {p : Processor}
    (h : p.autoYield? = none ∨ p.isYieldable = false) : p.countInstruction = (false, p) := by
  unfold Processor.countInstruction
  rcases h with h | h
  · rw [h]
  · cases p.autoYield? with
    | none => rfl
    | some budget => simp [h]

theorem poll_of_idle {core : Core H} (hgoing : core.world.cancelled = false)
    (h : core.proc.autoYield? = none ∨ core.proc.isYieldable = false) :
    Exec.poll core = Exec.step core := by
  have hcount := countInstruction_of_idle h
  have hcounted : counted core = core := by
    unfold counted
    rw [hcount]
  rw [poll_run, if_neg (by simp [hgoing]), if_neg (by simp [hcount]), hcounted]

omit [Host H] in
theorem meteredOn_of_not_mem {activations : List (Activation H)}
    (h : r ∉ switches activations) : meteredOn r k activations = activations := by
  induction activations with
  | nil => rfl
  | cons a rest ih =>
      cases a with
      | call mark waiter => exact congrArg (_ :: ·) (ih h)
      | body => exact congrArg (_ :: ·) (ih h)
      | switch c outer next =>
          have hrest : r ∉ switches rest := fun hr => h (List.mem_cons_of_mem c hr)
          have hnone : meterFor r k rest = none :=
            if_neg fun hworking => hrest (List.mem_of_head? hworking)
          change .switch c (outer.metered (meterFor r k rest)) next :: meteredOn r k rest = _
          rw [hnone, ih hrest]
          rfl

omit [Host H] in
/-- Nobody waits for the coroutine that runs with its own processor. -/
theorem meteredOn_of_working {activations : List (Activation H)}
    (h : IsWorking r activations) (hdistinct : (switches activations).Nodup) :
    meteredOn r k activations = activations := by
  induction activations with
  | nil => rfl
  | cons a rest ih =>
      cases a with
      | call mark waiter => exact congrArg (_ :: ·) (ih h hdistinct)
      | body => exact congrArg (_ :: ·) (ih h hdistinct)
      | switch c outer next =>
          obtain rfl : c = r := Option.some.inj h
          have hrest : c ∉ switches rest := (List.nodup_cons.mp hdistinct).1
          have hnone : meterFor c k rest = none :=
            if_neg fun hworking => hrest (List.mem_of_head? hworking)
          change .switch c (outer.metered (meterFor c k rest)) next :: meteredOn c k rest = _
          rw [hnone, meteredOn_of_not_mem hrest]
          rfl

variable {m : Machine H}

omit [Host H] in
theorem countInstruction_metered {p : Processor} (hyieldable : p.isYieldable = true)
    (hk : ∀ n, k.budget? = some n → k.executed < n) :
    (p.metered (some k)).countInstruction = (false, p.metered (some k.tick)) := by
  obtain ⟨budget?, executed⟩ := k
  cases budget? with
  | none => rfl
  | some n =>
      have hroom : ¬n < executed + 1 := Nat.not_lt.mpr (hk n rfl)
      unfold Processor.countInstruction
      change (if p.isYieldable = true then
        if n < executed + 1 then _ else _ else _) = _
      rw [if_pos hyieldable, if_neg hroom]
      rfl

omit [Host H] in
theorem countInstruction_of_due {p : Processor} (hyieldable : p.isYieldable = true)
    {n : Nat} (hbudget : k.budget? = some n) (hused : n ≤ k.executed) :
    (p.metered (some k)).countInstruction =
      (true, p.metered (some { k with executed := 0 })) := by
  obtain ⟨budget?, executed⟩ := k
  obtain rfl : budget? = some n := hbudget
  unfold Processor.countInstruction
  change (if p.isYieldable = true then
    if n < executed + 1 then _ else _ else _) = _
  rw [if_pos hyieldable, if_pos (Nat.lt_succ_of_le hused)]
  rfl

theorem next_metered_of_ticks (h : m.Ticks r) (hfree : m.core.proc.autoYield? = none)
    (hdistinct : (switches m.activations).Nodup)
    (hk : ∀ n, k.budget? = some n → k.executed < n) :
    (m.metered r k).next = m.next.metered r k.tick := by
  obtain ⟨core, activations, control⟩ := m
  obtain ⟨rfl, hworking, hgoing, hyieldable⟩ := h
  have hmeter : meterFor r k activations = some k := if_pos hworking
  have hmeter' : meterFor r k.tick activations = some k.tick := if_pos hworking
  have hcount := countInstruction_metered hyieldable hk
  have hpoll : Exec.poll (core.metered (some k)) =
      Exec.step (core.metered (some k.tick)) := by
    have hcounted : counted (core.metered (some k)) = core.metered (some k.tick) :=
      congrArg (fun x : Bool × Processor => Core.mk core.world x.2) hcount
    have hdue : (core.metered (some k)).proc.countInstruction.1 = false :=
      congrArg (·.1) hcount
    have hcancelled : (core.metered (some k)).world.cancelled = false := hgoing
    rw [poll_run, if_neg (by simp [hcancelled]), if_neg (by simp [hdue]), hcounted]
  have hfreely : exec .loop Exec.poll core activations = exec .loop Exec.step core activations :=
    exec_congr (poll_of_idle hgoing (Or.inl hfree)) activations
  have hstep := exec_metered (r := r) (k := k.tick) .loop Exec.ignoresMeter_step core activations
  rw [hmeter', meteredOn_of_working hworking hdistinct] at hstep
  change exec .loop Exec.poll (core.metered (meterFor r k activations))
    (meteredOn r k activations) = (exec .loop Exec.poll core activations).metered r k.tick
  rw [hmeter, meteredOn_of_working hworking hdistinct, hfreely, ← hstep]
  exact exec_congr hpoll activations

/-- The budget is used up: the coroutine is suspended before the instruction. -/
theorem next_metered_of_due (h : m.Ticks r)
    (hdistinct : (switches m.activations).Nodup) {n : Nat} (hbudget : k.budget? = some n)
    (hused : n ≤ k.executed) :
    (m.metered r k).next =
      ⟨m.core.metered (some { k with executed := 0 }), m.activations, .loop .forceYield⟩ := by
  obtain ⟨core, activations, control⟩ := m
  obtain ⟨rfl, hworking, hgoing, hyieldable⟩ := h
  have hmeter : meterFor r k activations = some k := if_pos hworking
  have hcount : (core.metered (some k)).proc.countInstruction =
      (true, core.proc.metered (some { k with executed := 0 })) :=
    countInstruction_of_due hyieldable hbudget hused
  have hcounted : counted (core.metered (some k)) =
      core.metered (some { k with executed := 0 }) :=
    congrArg (fun x : Bool × Processor => Core.mk core.world x.2) hcount
  have hdue : (core.metered (some k)).proc.countInstruction.1 = true :=
    congrArg (·.1) hcount
  have hcancelled : (core.metered (some k)).world.cancelled = false := hgoing
  change exec .loop Exec.poll (core.metered (meterFor r k activations))
    (meteredOn r k activations) = _
  rw [hmeter, meteredOn_of_working hworking hdistinct]
  refine exec_ok ?_ activations
  rw [poll_run, if_neg (by simp [hcancelled]), if_pos hdue, hcounted]

omit [Host H] in
theorem metered_of_none {activations : List (Activation H)}
    (h : meterFor r k activations = none) (core : Core H) (control : Control H) :
    metered ⟨core, activations, control⟩ r k =
      ⟨core, meteredOn r k activations, control⟩ := by
  unfold metered
  rw [h]
  rfl

theorem exec_poll_metered (core : Core H) (activations : List (Activation H))
    (hidle : IsWorking r activations → core.world.cancelled = false →
      core.proc.isYieldable = false) :
    exec .loop Exec.poll (core.metered (meterFor r k activations)) (meteredOn r k activations) =
      (exec .loop Exec.poll core activations).metered r k := by
  by_cases hworking : IsWorking r activations
  · have hmeter : meterFor r k activations = some k := if_pos hworking
    cases hcancelled : core.world.cancelled with
    | true =>
        have hends (c : Core H) (h : c.world.cancelled = true) :
            Exec.poll c = .error .terminated c := by
          rw [poll_run, if_pos h]
        unfold exec
        rw [hends core hcancelled, hends (core.metered _) hcancelled]
        rfl
    | false =>
        have hyieldable := hidle hworking hcancelled
        have hmetered : Exec.poll (core.metered (meterFor r k activations)) =
            Exec.step (core.metered (meterFor r k activations)) :=
          poll_of_idle hcancelled (Or.inr hyieldable)
        have hstep := exec_metered (r := r) (k := k) .loop Exec.ignoresMeter_step core activations
        unfold exec at hstep ⊢
        rw [hmetered, poll_of_idle hcancelled (Or.inr hyieldable), hstep]
  · have hnone : meterFor r k activations = none := if_neg hworking
    rw [hnone]
    change exec .loop Exec.poll core (meteredOn r k activations) = _
    unfold exec
    cases Exec.poll core <;> exact (metered_of_none hnone _ _).symm

/-! ## Switches -/

theorem runCoroutine_metered {activations : List (Activation H)}
    (h : meterFor r k activations = none) (w : World H) (c : Coroutine) (p : Processor)
    (args : List Value) :
    runCoroutine w (meteredOn r k activations) c p args =
      (runCoroutine w activations c p args).metered r k := by
  have hbody : meterFor r k (.body :: activations) = none := h
  unfold runCoroutine
  split
  · exact (metered_of_none h _ _).symm
  · have hexec := exec_metered (r := r) (k := k) .loop
      (Exec.ignoresMeter_call c.entry args { entryPoint := true } 0 {})
      ⟨w, p.enterOutermost⟩ (.body :: activations)
    rw [hbody] at hexec
    exact hexec
  · split
    · exact (metered_of_none h _ _).symm
    · exact (metered_of_none hbody _ _).symm
  · exact (metered_of_none hbody _ _).symm

/-- The coroutine is in flight. -/
def InFlight (r : CoroutineRef) (w : World H) : Prop :=
  ∀ c, w.coroutine? r = some c → c.processor? = none

theorem resume_metered {core : Core H} (hinFlight : InFlight r core.world)
    (activations : List (Activation H)) (c : CoroutineRef) (args : List Value)
    (next : Except RuntimeError Value → Action H NativeOutcome) :
    resume (core.metered (meterFor r k activations)) (meteredOn r k activations) c args next =
      (resume core activations c args next).metered r k := by
  rcases resume_cases core activations c args next with
    ⟨e, hrefused, hresume⟩ | ⟨co, p, hc, hp, -, haccepted, hresume⟩
  all_goals rw [hresume]
  · exact resume_of_refused (core.metered _) hrefused
  · have hother : c ≠ r := by
      rintro rfl
      rw [hinFlight co hc] at hp
      cases hp
    have hnone := meterFor_of_ne (k := k) hother core.proc next activations
    exact (resume_of_accepted (core.metered _) haccepted hc hp).trans
      (runCoroutine_metered hnone _ co p args)

omit [Host H] in
theorem enterMain_metered {core : Core H} (hinFlight : InFlight r core.world)
    (activations : List (Activation H)) (function : Value) (args : List Value)
    (next : Except RuntimeError Value → Action H NativeOutcome) :
    enterMain (core.metered (meterFor r k activations)) (meteredOn r k activations)
        function args next =
      (enterMain core activations function args next).metered r k := by
  obtain ⟨world, outer⟩ := core
  dsimp only [enterMain, Core.metered]
  cases hp : (world.coroutine world.main).processor? with
  | none => rfl
  | some proc =>
      have hother : world.main ≠ r := by
        rintro rfl
        rw [hinFlight _ (World.coroutine?_of_processor? hp)] at hp
        cases hp
      have hnone := meterFor_of_ne (k := k) hother outer next activations
      exact (metered_of_none hnone _ _).symm

theorem act_metered {core : Core H} (hinFlight : InFlight r core.world)
    (activations : List (Activation H)) (a : Action H NativeOutcome) :
    act (core.metered (meterFor r k activations)) (meteredOn r k activations) a =
      (act core activations a).metered r k := by
  cases a with
  | done outcome =>
      cases activations with
      | nil => rfl
      | cons top rest =>
          have hexec := exec_metered (r := r) (k := k) .loop
            (Exec.ignoresMeter_completeNative outcome)
            core (top :: rest)
          cases top <;> exact hexec
  | fail e =>
      cases activations with
      | nil => rfl
      | cons top rest => cases top <;> rfl
  | read next => rfl
  | write change next => rfl
  | call function args next => rfl
  | resume c args next => exact resume_metered hinFlight activations c args next
  | enterMain function args next => exact enterMain_metered hinFlight activations _ args next

/-- The coroutine is about to give way to the one that resumed it. -/
def Departs (m : Machine H) (r : CoroutineRef) : Prop :=
  (∃ exit, m.control = .switching exit) ∧
    ∃ outer next rest, m.activations = .switch r outer next :: rest

/-- A step that counts nothing of the coroutine. -/
theorem next_metered (hinFlight : InFlight r m.core.world) (hstays : ¬m.Departs r)
    (hticks : ¬m.Ticks r) : (m.metered r k).next = m.next.metered r k := by
  obtain ⟨core, activations, control⟩ := m
  cases control with
  | loop o =>
      by_cases ho : o = .proceed
      · subst ho
        exact exec_poll_metered core activations fun hworking hgoing => by
          cases hyieldable : core.proc.isYieldable with
          | false => rfl
          | true => exact absurd ⟨rfl, hworking, hgoing, hyieldable⟩ hticks
      · exact afterOutcome_metered core activations ho
  | failed e => exact afterFailure_metered core activations e
  | unwinding e decorators =>
      cases decorators with
      | nil => exact catchError_metered core activations e
      | cons d rest => rfl
  | calling function args waiter =>
      exact beginCall_metered core activations function args waiter
  | leaving exit => exact leave_metered core activations exit
  | answering waiter result => exact answer_metered core activations result waiter
  | switching exit =>
      cases activations with
      | nil => rfl
      | cons a rest =>
          cases a with
          | call mark waiter => rfl
          | body => rfl
          | switch c outer next =>
              have hother : c ≠ r := by
                rintro rfl
                exact hstays ⟨⟨exit, rfl⟩, outer, next, rest, rfl⟩
              have hnone := meterFor_of_ne (k := k) hother outer next rest
              rw [metered_of_none hnone]
              rfl
  | running a => exact act_metered hinFlight activations a
  | settling o => exact settle_metered core activations o
  | finished result => rfl

end Machine

end ScriptEngine
