import ScriptEngine.Proofs.Budget.ForcedSuspension
import ScriptEngine.Proofs.Budget.Serving
import ScriptEngine.Proofs.Coroutine.Yielding

/-!
# Between a resume and the coroutine's giving way

As long as a coroutine that has been resumed has not given way, its processor shows on its
meter what has been executed, and nothing suspends it by force before the budget is used up.
Instructions are counted in the outermost loop of the coroutine only, which stands on the
switch that its resumer made.
-/

namespace ScriptEngine

variable {H : HostTypes} {r : CoroutineRef} {k : Meter}

/-- The processor when its outermost loop has ended. -/
def Processor.idle (p : Processor) : Processor := { p with nesting := 0 }

/-! ## Reading the meter -/

theorem Processor.metered_metered (p : Processor) (k k' : Meter) (b : Prop) [Decidable b] :
    (p.metered (if b then some k else none)).metered (if b then some k' else none) =
      p.metered (if b then some k' else none) := by
  split <;> rfl

theorem switches_meteredOn (activations : List (Activation H)) :
    switches (meteredOn r k activations) = switches activations := by
  induction activations with
  | nil => rfl
  | cons a rest ih =>
    cases a with
    | call mark waiter => exact ih
    | body => exact ih
    | switch c outer next => exact congrArg (c :: ·) ih

theorem isWorking_meteredOn {activations : List (Activation H)} :
    IsWorking r (meteredOn r k activations) ↔ IsWorking r activations := by
  unfold IsWorking
  rw [switches_meteredOn]

theorem meterFor_meteredOn (k' : Meter) (activations : List (Activation H)) :
    meterFor r k' (meteredOn r k activations) = meterFor r k' activations := by
  unfold meterFor
  simp only [isWorking_meteredOn]

theorem meteredOn_meteredOn (k' : Meter) (activations : List (Activation H)) :
    meteredOn r k' (meteredOn r k activations) = meteredOn r k' activations := by
  induction activations with
  | nil => rfl
  | cons a rest ih =>
    cases a with
    | call mark waiter => exact congrArg (_ :: ·) ih
    | body => exact congrArg (_ :: ·) ih
    | switch c outer next =>
      have houter : (outer.metered (meterFor r k rest)).metered (meterFor r k' rest) =
          outer.metered (meterFor r k' rest) := Processor.metered_metered outer k k' _
      change .switch c ((outer.metered (meterFor r k rest)).metered
        (meterFor r k' (meteredOn r k rest))) next :: meteredOn r k' (meteredOn r k rest) = _
      rw [meterFor_meteredOn, houter, ih]
      rfl

namespace Machine

variable {m : Machine H}

theorem metered_metered (m : Machine H) (k k' : Meter) :
    (m.metered r k).metered r k' = m.metered r k' := by
  have hproc : (m.core.proc.metered (meterFor r k m.activations)).metered
      (meterFor r k' m.activations) = m.core.proc.metered (meterFor r k' m.activations) :=
    Processor.metered_metered m.core.proc k k' _
  change (⟨⟨m.core.world, (m.core.proc.metered (meterFor r k m.activations)).metered
    (meterFor r k' (meteredOn r k m.activations))⟩,
    meteredOn r k' (meteredOn r k m.activations), m.control⟩ : Machine H) = _
  rw [meterFor_meteredOn, hproc, meteredOn_meteredOn]
  rfl

/-- The coroutine's processor has this meter, where it runs and where it waits. -/
def Reads (m : Machine H) (r : CoroutineRef) (k : Meter) : Prop :=
  m.metered r k = m

theorem Reads.proc (h : m.Reads r k) (hworking : IsWorking r m.activations) :
    m.core.proc.metered (some k) = m.core.proc := by
  have hmeter : meterFor r k m.activations = some k := if_pos hworking
  have hproc := congrArg (·.core.proc) h
  unfold metered at hproc
  rw [hmeter] at hproc
  exact hproc

theorem Ticks.metered (h : m.Ticks r) (k : Meter) : (m.metered r k).Ticks r :=
  ⟨h.control, isWorking_meteredOn.mpr h.working, h.going, h.yieldable⟩

variable [Host H]

theorem Reads.next (h : m.Reads r k) (hinFlight : InFlight r m.core.world)
    (hstays : ¬m.Departs r) (hticks : ¬m.Ticks r) : m.next.Reads r k := by
  have hnext := next_metered (k := k) hinFlight hstays hticks
  rw [h] at hnext
  exact hnext.symm

theorem Reads.next_of_ticks (h : m.Reads r k) (hticks : m.Ticks r)
    (hdistinct : (switches m.activations).Nodup)
    (hroom : ∀ n, k.budget? = some n → k.executed < n) : m.next.Reads r k.tick := by
  have hmeter : meterFor r {} m.activations = some {} := if_pos hticks.working
  have hsame : (m.metered r {}).metered r k = m := (metered_metered m {} k).trans h
  have hfree : (m.metered r {}).core.proc.autoYield? = none := by
    change (m.core.proc.metered (meterFor r {} m.activations)).autoYield? = none
    rw [hmeter]
    rfl
  have hdistinct' : (switches (m.metered r {}).activations).Nodup := by
    change (switches (meteredOn r {} m.activations)).Nodup
    rw [switches_meteredOn]
    exact hdistinct
  have hnext := next_metered_of_ticks (hticks.metered {}) hfree hdistinct' hroom
  rw [hsame] at hnext
  rw [hnext]
  exact metered_metered _ _ _

/-- A coroutine whose budget is used up is suspended before the instruction. -/
theorem Reads.next_of_due (h : m.Reads r k) (hticks : m.Ticks r)
    (hdistinct : (switches m.activations).Nodup) {n : Nat} (hbudget : k.budget? = some n)
    (hused : n ≤ k.executed) :
    m.next = ⟨m.core.metered (some { k with executed := 0 }), m.activations,
      .loop .forceYield⟩ := by
  have hnext := next_metered_of_due hticks hdistinct hbudget hused
  rwa [h] at hnext

/-! ## Counting instructions -/

/-- The next step executes an instruction in the outermost loop of the coroutine. -/
def executes (m : Machine H) (r : CoroutineRef) : Bool :=
  match m.control with
  | .loop .proceed =>
      m.core.world.current? = some r && m.core.proc.nesting = 1 &&
        !m.core.world.cancelled && !m.core.proc.countInstruction.1
  | _ => false

/-- The instructions executed in the outermost loop of the coroutine. -/
def executions (m : Machine H) (r : CoroutineRef) : Nat → Nat
  | 0 => 0
  | n + 1 => m.executions r n + ((m.after n).executes r).toNat

theorem executions_add (m : Machine H) (r : CoroutineRef) (a b : Nat) :
    m.executions r (a + b) = m.executions r a + (m.after a).executions r b := by
  induction b with
  | zero => rfl
  | succ b ih =>
      change m.executions r (a + b) + ((m.after (a + b)).executes r).toNat = _
      rw [ih, after_add]
      exact Nat.add_assoc _ _ _

theorem executions_of_not_executes {k : Nat}
    (h : ∀ i < k, (m.after i).executes r = false) : m.executions r k = 0 := by
  induction k with
  | zero => rfl
  | succ k ih =>
      change m.executions r k + ((m.after k).executes r).toNat = 0
      rw [ih fun i hi => h i (Nat.lt_succ_of_lt hi), h k (Nat.lt_succ_self k)]
      rfl

omit [Host H] in
theorem executes_of_control (h : m.control ≠ .loop .proceed) : m.executes r = false := by
  unfold executes
  split
  · next hcontrol => exact absurd hcontrol h
  · rfl

omit [Host H] in
theorem WellNested.isWorking_iff (h : m.WellNested) :
    m.core.world.current? = some r ↔ IsWorking r m.activations := by
  unfold World.current?
  rw [h.inFlight]
  exact Iff.rfl

omit [Host H] in
theorem Ticks.executes (hticks : m.Ticks r) (hcurrent : m.core.world.current? = some r)
    (hcount : m.core.proc.countInstruction.1 = false) : m.executes r = true := by
  unfold Machine.executes
  rw [hticks.control]
  simp [hcurrent, hticks.nesting, hticks.going, hcount]

omit [Host H] in
/-- What counts is the outermost loop of the coroutine. -/
theorem Ticks.loop (hticks : m.Ticks r) (hwellNested : m.WellNested) (hwellFramed : m.WellFramed) :
    ∃ a outer next rest, m.activations = a :: .switch r outer next :: rest := by
  have hnesting := hticks.nesting
  obtain ⟨core, activations, control⟩ := m
  obtain ⟨rfl, hworking, -, -⟩ := hticks
  have hloop : InLoop activations := hwellNested.control
  have hnested := hwellNested.nested
  have hseated : StandsOn .working activations core.proc.nesting core.proc.frames.items :=
    hwellFramed.seated
  rw [show core.proc.nesting = 1 from hnesting] at hseated
  cases hloop with
  | call mark waiter rest =>
      obtain ⟨outer, above, below, hone, -, -, -, hrest⟩ := hseated
      obtain rfl : outer = 0 := (Nat.succ.inj hone).symm
      cases rest with
      | nil => cases hworking
      | cons b rest =>
          cases b with
          | call mark' waiter' =>
              obtain ⟨_, _, _, hzero, -⟩ := hrest
              cases hzero
          | body => cases hrest.1
          | switch c outer next =>
              obtain rfl : c = r := Option.some.inj hworking
              exact ⟨_, outer, next, rest, rfl⟩
  | body rest =>
      cases hnested with
      | @body c outer next rest hscript h =>
          obtain rfl : c = r := Option.some.inj hworking
          exact ⟨_, outer, next, rest, rfl⟩

/-! ## When the budget is used up -/

/-- What comes next is an instruction of the coroutine, and its budget is used up. -/
structure UsedUp (m : Machine H) (r : CoroutineRef) (n : Nat) (below : List (Activation H)) :
    Prop where
  ticks : m.Ticks r
  reads : m.Reads r ⟨some n, n⟩
  distinct : (switches m.activations).Nodup
  loops : m.activations = .body :: below

section

variable {n : Nat} {below : List (Activation H)}

theorem UsedUp.next (h : m.UsedUp r n below) :
    m.next = ⟨m.core.metered (some ⟨some n, 0⟩), .body :: below, .loop .forceYield⟩ := by
  have hnext := h.reads.next_of_due h.ticks h.distinct rfl (Nat.le_refl n)
  rw [h.loops] at hnext
  exact hnext

/-- The coroutine gives way with everything it has. -/
theorem UsedUp.after_three (h : m.UsedUp r n below) :
    m.after 3 = ⟨⟨m.core.world, m.core.proc.idle.metered (some ⟨some n, 0⟩)⟩, below,
      .switching (.ok .forceYielded)⟩ := by
  change m.next.next.next = _
  rw [h.next]
  rfl

/-- Nothing is executed until the coroutine gives way. -/
theorem UsedUp.not_executes (h : m.UsedUp r n below) {j : Nat} (hj : j < 4) :
    (m.after j).executes r = false := by
  match j, hj with
  | 0, _ =>
    have hcount := congrArg Prod.fst
      (countInstruction_of_due h.ticks.yieldable (k := ⟨some n, n⟩) rfl (Nat.le_refl n))
    rw [h.reads.proc h.ticks.working] at hcount
    change m.executes r = false
    unfold executes
    rw [h.ticks.control]
    simp [hcount]
  | 1, _ =>
    change m.next.executes r = false
    rw [h.next]
    rfl
  | 2, _ =>
    change m.next.next.executes r = false
    rw [h.next]
    rfl
  | 3, _ =>
    rw [h.after_three]
    rfl

end

/-! ## The invariant -/

variable {s : Resumer H} {b : Bool}

/-- The coroutine has been resumed and has not given way; its processor has this meter and
can yield or not, and nothing suspends it by force. -/
structure InResume (m : Machine H) (r : CoroutineRef) (s : Resumer H) (b : Bool) (k : Meter) :
    Prop where
  reachable : m.Reachable
  serves : m.Serves r s
  reads : m.Reads r k
  canYield : CanYieldIs r b m.core.proc.canYield m.activations
  unforced : IsWorking r m.activations → ¬m.control.IsForced

namespace InResume

variable [LawfulHost H]

theorem inFlight (h : m.InResume r s b k) : InFlight r m.core.world := by
  exact h.serves.inFlight h.reachable.wellNested

theorem distinct (h : m.InResume r s b k) : (switches m.activations).Nodup := by
  exact h.reachable.wellNested.distinct

theorem isWorking_iff (h : m.InResume r s b k) :
    m.core.world.current? = some r ↔ IsWorking r m.activations := by
  exact h.reachable.wellNested.isWorking_iff

/-- A machine on which a coroutine has been resumed has not finished. -/
theorem going (h : m.InResume r s b k) (result : Except RuntimeError Value) :
    m.control ≠ .finished result := by
  intro hfinished
  have hcontrol := h.reachable.wellNested.control
  rw [hfinished] at hcontrol
  have hnone : m.activations = [] := hcontrol
  have hmem := h.serves.mem_switches
  rw [hnone] at hmem
  cases hmem

/-! ### Where the loops of the coroutine stand -/

/-- Nothing else switched to the coroutine. -/
theorem not_mem_inner (h : m.InResume r s b k) {inner : List (Activation H)}
    (hinner : m.activations = inner ++ .body :: s.below r) : r ∉ switches inner := by
  intro hr
  have hdistinct := h.distinct
  unfold switches at hdistinct
  rw [hinner, List.filterMap_append] at hdistinct
  exact (List.nodup_append.mp hdistinct).2.2 r hr r List.mem_cons_self rfl

/-- The outermost loop of the coroutine stands on the switch that its resumer made. -/
theorem activations_eq (h : m.InResume r s b k) {a : Activation H} {outer : Processor}
    {next : Except RuntimeError Value → Action H NativeOutcome} {rest : List (Activation H)}
    (hactivations : m.activations = a :: .switch r outer next :: rest)
    (hcontrol : ∀ exit, m.control ≠ .switching exit) :
    m.activations = .body :: s.below r := by
  cases h.serves with
  | departs exit hswitching _ => exact absurd hswitching (hcontrol exit)
  | runs inner hinner =>
    match inner with
    | [] => exact hinner
    | [x] =>
      rw [hinner] at hactivations
      cases hactivations
    | x :: y :: inner =>
      have hother := h.not_mem_inner hinner
      rw [hinner] at hactivations
      obtain rfl : y = .switch r outer next :=
        (List.cons.inj (List.cons.inj hactivations).2).1
      refine absurd ?_ hother
      unfold switches
      exact List.mem_filterMap.mpr ⟨_, List.mem_cons_of_mem x List.mem_cons_self, rfl⟩

theorem activations_of_ticks (h : m.InResume r s b k) (hticks : m.Ticks r) :
    m.activations = .body :: s.below r := by
  obtain ⟨a, outer, next, rest, hactivations⟩ :=
    hticks.loop h.reachable.wellNested h.reachable.wellFramed
  refine h.activations_eq hactivations fun exit hswitching => ?_
  rw [hticks.control] at hswitching
  cases hswitching

/-- A coroutine gives way to its resumer, and not by force. -/
theorem departing (h : m.InResume r s b k) (hdeparts : m.Departs r) :
    ∃ exit, exit ≠ .ok .forceYielded ∧ m = ⟨m.core, s.below r, .switching exit⟩ := by
  obtain ⟨⟨exit, hexit⟩, outer, next, rest, hactivations⟩ := hdeparts
  have hworking : IsWorking r m.activations := by
    rw [hactivations]
    rfl
  have hbelow : m.activations = s.below r := by
    cases h.serves with
    | departs _ _ hbelow => exact hbelow
    | runs inner hinner =>
      cases inner with
      | nil =>
        rw [hinner] at hactivations
        cases hactivations
      | cons a inner =>
        have hother := h.not_mem_inner hinner
        rw [hinner] at hactivations
        obtain rfl : a = .switch r outer next := (List.cons.inj hactivations).1
        exact absurd List.mem_cons_self hother
  refine ⟨exit, ?_, ?_⟩
  · rintro rfl
    have hforced := h.unforced hworking
    rw [hexit] at hforced
    exact hforced trivial
  · obtain ⟨core, activations, control⟩ := m
    obtain rfl : activations = _ := hbelow
    obtain rfl : control = _ := hexit
    rfl

/-! ### What is counted -/

omit [LawfulHost H] in
theorem canYield_of_ticks (h : m.InResume r s b k) (hticks : m.Ticks r) : b = true := by
  rw [← h.canYield.of_isWorking hticks.working]
  exact (Processor.isYieldable_iff.mp hticks.yieldable).1

omit [LawfulHost H] in
theorem countInstruction (h : m.InResume r s b k) (hticks : m.Ticks r)
    (hroom : ∀ n, k.budget? = some n → k.executed < n) :
    m.core.proc.countInstruction.1 = false := by
  have hcount := countInstruction_metered hticks.yieldable hroom
  rw [h.reads.proc hticks.working] at hcount
  exact congrArg Prod.fst hcount

/-- Whatever its meter, a coroutine that can yield executes what is counted. -/
theorem ticks_of_executes (h : m.InResume r s true k) {k' : Meter}
    (hexecutes : (m.metered r k').executes r = true) : m.Ticks r := by
  have hcontrol : m.control = .loop .proceed := by
    by_cases hcontrol : m.control = .loop .proceed
    · exact hcontrol
    · have hnot : (m.metered r k').executes r = false := executes_of_control hcontrol
      rw [hnot] at hexecutes
      cases hexecutes
  unfold executes at hexecutes
  rw [show (m.metered r k').control = .loop .proceed from hcontrol] at hexecutes
  simp only [Bool.and_eq_true, decide_eq_true_eq, Bool.not_eq_true'] at hexecutes
  obtain ⟨⟨⟨hcurrent, hnesting⟩, hgoing⟩, -⟩ := hexecutes
  have hworking : IsWorking r m.activations := h.isWorking_iff.mp hcurrent
  have hone : m.core.proc.nesting = 1 := hnesting
  exact ⟨hcontrol, hworking, hgoing,
    Processor.isYieldable_iff.mpr ⟨h.canYield.of_isWorking hworking, hone⟩⟩

/-! ### The step -/

omit [LawfulHost H] in
/-- As long as the budget is not used up nothing is suspended by force. -/
theorem unforced_next (h : m.InResume r s b k)
    (hroom : m.Ticks r → ∀ n, k.budget? = some n → k.executed < n)
    (hworking : IsWorking r m.next.activations) : ¬m.next.control.IsForced := by
  refine Machine.unforced_next (fun hworking hcontrol hgoing => ?_) h.unforced hworking
  cases hyieldable : m.core.proc.isYieldable with
  | false => exact congrArg Prod.fst (countInstruction_of_idle (Or.inr hyieldable))
  | true =>
    have hticks : m.Ticks r := ⟨hcontrol, hworking, hgoing, hyieldable⟩
    exact h.countInstruction hticks (hroom hticks)

theorem turn (h : m.InResume r s b k) : Turn m m.next := by
  exact turn_next h.reachable.wellNested.control

/-- A step that counts nothing leaves the meter as it is. -/
theorem next (h : m.InResume r s b k) (hstays : ¬m.Departs r) (hticks : ¬m.Ticks r) :
    m.next.InResume r s b k where
  reachable := .next h.reachable
  serves := h.serves.next h.turn hstays
  reads := h.reads.next h.inFlight hstays hticks
  canYield := canYieldIs_next h.turn h.inFlight h.canYield
  unforced := h.unforced_next fun hyes => absurd hyes hticks

theorem next_of_ticks (h : m.InResume r s b k) (hstays : ¬m.Departs r) (hticks : m.Ticks r)
    (hroom : ∀ n, k.budget? = some n → k.executed < n) : m.next.InResume r s b k.tick where
  reachable := .next h.reachable
  serves := h.serves.next h.turn hstays
  reads := h.reads.next_of_ticks hticks h.distinct hroom
  canYield := canYieldIs_next h.turn h.inFlight h.canYield
  unforced := h.unforced_next fun _ => hroom

end InResume

/-! ## The beginning -/

/-- The outermost loop of a coroutine begins with nothing executed. -/
theorem runCoroutine_script (w : World H) (activations : List (Activation H)) (args : List Value)
    {c : Coroutine} {p : Processor} (hkind : c.kind = .script)
    (hframe : c.state = .suspended → ∃ frame, p.yielded? = some frame) :
    (runCoroutine w activations c p args).activations = .body :: activations ∧
      (runCoroutine w activations c p args).core.proc.canYield = p.canYield ∧
      (runCoroutine w activations c p args).core.metered (some ⟨p.autoYield?, 0⟩) =
        (runCoroutine w activations c p args).core := by
  have hroused := roused_runCoroutine w activations c p args
  generalize runCoroutine w activations c p args = m at hroused ⊢
  cases hroused with
  | native hnative =>
    rw [hkind] at hnative
    cases hnative
  | first _ hstate =>
    have hcall := Exec.called_call c.entry args { entryPoint := true } 0 {}
      (⟨w, p.enterOutermost⟩ : Core H)
    refine ⟨exec_activations _ _ _, ?_, ?_⟩
    · rw [exec_core]
      exact hcall.keeps.canYield
    · have hignores := Exec.ignoresMeter_call c.entry args { entryPoint := true } 0 {}
        (some ⟨p.autoYield?, 0⟩) (⟨w, p.enterOutermost⟩ : Core H)
      change Exec.call _ _ _ _ _ ⟨w, p.enterOutermost⟩ = _ at hignores
      rw [exec_core]
      generalize Exec.call c.entry args { entryPoint := true } 0 {}
        (⟨w, p.enterOutermost⟩ : Core H) = result at hignores
      cases result with
      | ok o core => exact (EStateM.Result.ok.inj hignores).2.symm
      | error e core => exact (EStateM.Result.error.inj hignores).2.symm
  | lost _ hstate hyielded =>
    obtain ⟨frame, hsome⟩ := hframe hstate
    rw [hsome] at hyielded
    cases hyielded
  | yielded frame _ hstate hyielded => exact ⟨rfl, rfl, rfl⟩
  | forced _ hfirst hyielded => exact ⟨rfl, rfl, rfl⟩

variable {args : List Value} {next : Except RuntimeError Value → Action H NativeOutcome}
  {c : Coroutine} {p : Processor}

theorem Resumes.next_eq (h : m.Resumes r args next) (hc : m.core.world.coroutine? r = some c)
    (hp : c.processor? = some p) :
    m.next = runCoroutine (m.core.world.engage r)
      (.switch r m.core.proc next :: m.activations) c p args := by
  obtain ⟨hcontrol, haccepted⟩ := h
  rw [next_of_running hcontrol]
  exact resume_of_accepted m.core haccepted hc hp

theorem Resumes.inResume [LawfulHost H] (h : m.Resumes r args next) (hm : m.Reachable)
    (hc : m.core.world.coroutine? r = some c) (hscript : c.kind = .script)
    (hp : c.processor? = some p) :
    m.next.InResume r ⟨m.core.proc, next, m.activations⟩ p.canYield ⟨p.autoYield?, 0⟩ := by
  have hframe : c.state = .suspended → ∃ frame, p.yielded? = some frame := by
    intro hstate
    have hrests := hm.wellFramed.world r c p hc hp
    rw [hstate] at hrests
    obtain ⟨frame, hframe, -⟩ := hrests
    exact ⟨frame, hframe⟩
  obtain ⟨hactivations, hcan, hmeter⟩ := runCoroutine_script (m.core.world.engage r)
    (.switch r m.core.proc next :: m.activations) args hscript hframe
  have hunforced : ¬m.next.control.IsForced := by
    rw [h.next_eq hc hp]
    exact (steady_runCoroutine _ _ _ _).1
  have hnext : m.next.Reachable := .next hm
  rw [← h.next_eq hc hp] at hactivations hcan hmeter
  have hworking : IsWorking r m.next.activations := by
    rw [hactivations]
    rfl
  have hdistinct := hnext.wellNested.distinct
  refine ⟨hnext, .runs [] hactivations, ?_, ?_, fun _ => hunforced⟩
  · have hfor : meterFor r ⟨p.autoYield?, 0⟩ m.next.activations = some ⟨p.autoYield?, 0⟩ :=
      if_pos hworking
    unfold Reads metered
    rw [hfor, meteredOn_of_working hworking hdistinct, hmeter]
  · rw [hactivations] at hdistinct ⊢
    exact ⟨fun _ => hcan, .of_not_mem (List.nodup_cons.mp hdistinct).1⟩

end Machine

end ScriptEngine
