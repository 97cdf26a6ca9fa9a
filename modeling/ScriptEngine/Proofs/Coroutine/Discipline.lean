import ScriptEngine.Proofs.Coroutine.NestingSteps

/-!
# Coroutines in every run

A host starts an engine, has it run actions to their end and changes the world
in between as the interface lets it.  In every state such a history comes
through, the coroutines are where the stack of those in flight says, and every
resume and every call into the main coroutine ends with that stack as it was.
-/

namespace ScriptEngine

variable {H : HostTypes}

namespace Machine

/-- The machine some steps later. -/
def after [Host H] (m : Machine H) : Nat → Machine H
  | 0 => m
  | n + 1 => (m.after n).next

/-- The states of an engine on which a host runs lawful actions. -/
inductive Reachable [Host H] : Machine H → Prop where
  | start (settings : Settings) (host : H.State)
      {a : Action H NativeOutcome} (ha : a.Lawful) :
      Reachable (.start (World.start settings host) a)
  | next {m : Machine H} (h : Reachable m) : Reachable m.next
  | again {m : Machine H} (h : Reachable m)
      {result : Except RuntimeError Value}
      (hfinished : m.control = .finished result) {w : World H}
      (hw : m.core.world.Extends w) {a : Action H NativeOutcome}
      (ha : a.Lawful) : Reachable (.start w a)

theorem Reachable.wellNested [Host H] [LawfulHost H] {m : Machine H}
    (h : m.Reachable) : m.WellNested := by
  induction h with
  | start settings host ha =>
      refine wellNested_start (World.scheduled_start settings host) ?_ ha
      exact (World.Extends.installModules _ settings.modules).inFlight
  | next h ih => exact ih.next
  | @again m h result hfinished w hw a ha ih =>
      have hactivations : m.activations = [] := by
        have hcontrol := ih.control
        rw [hfinished] at hcontrol
        exact hcontrol
      refine wellNested_start (ih.scheduled.of_extends hw) ?_ ha
      rw [hw.inFlight, ih.inFlight, hactivations]
      rfl

/-! ## Whose processor runs -/

/-- The coroutines in flight with their processors, the innermost first. -/
def processorsAt (p : Processor) :
    List (Activation H) → List (CoroutineRef × Processor)
  | [] => []
  | .switch r outer _ :: rest => (r, p) :: processorsAt outer rest
  | .call _ _ :: rest => processorsAt p rest
  | .body :: rest => processorsAt p rest

def processors (m : Machine H) : List (CoroutineRef × Processor) :=
  processorsAt m.core.proc m.activations

/-- The coroutine whose processor is at hand. -/
def executing? (m : Machine H) : Option CoroutineRef :=
  m.processors.head?.map (·.1)

theorem map_processorsAt (p : Processor) (activations : List (Activation H)) :
    (processorsAt p activations).map (·.1) = switches activations := by
  induction activations generalizing p with
  | nil => rfl
  | cons a rest ih =>
      cases a with
      | call mark waiter => exact ih p
      | body => exact ih p
      | switch r outer next => exact congrArg (r :: ·) (ih outer)

theorem processorsAt_append {loops : List (Activation H)}
    (hloops : ∀ a ∈ loops, a.coroutine? = none) (p : Processor)
    (activations : List (Activation H)) :
    processorsAt p (loops ++ activations) = processorsAt p activations := by
  induction loops with
  | nil => rfl
  | cons a rest ih =>
      have hrest := ih fun b hb => hloops b (List.mem_cons_of_mem a hb)
      cases a with
      | call mark waiter => exact hrest
      | body => exact hrest
      | switch r outer next =>
          have hswitch := hloops _ List.mem_cons_self
          cases hswitch

/-- Only the innermost coroutine's processor is at hand. -/
theorem tail_processorsAt (p q : Processor) (activations : List (Activation H)) :
    (processorsAt p activations).tail = (processorsAt q activations).tail := by
  induction activations with
  | nil => rfl
  | cons a rest ih =>
      cases a with
      | call mark waiter => exact ih
      | body => exact ih
      | switch r outer next => rfl

theorem WellNested.current {m : Machine H} (hm : m.WellNested) :
    m.core.world.current? = m.executing? := by
  have hmap := map_processorsAt m.core.proc m.activations
  unfold World.current? executing? processors
  rw [hm.inFlight, ← hmap, List.head?_map]

variable {m m' : Machine H}

/-- Coroutines that wait for others keep their processors. -/
theorem Turn.waiting (h : Turn m m') {x : CoroutineRef × Processor}
    (hx : x ∈ m.processors.tail) : x ∈ m'.processors := by
  unfold processors at hx ⊢
  cases h with
  | stays hworld h =>
      rw [h]
      rw [tail_processorsAt m.core.proc m'.core.proc] at hx
      exact List.mem_of_mem_tail hx
  | enters hworld mark waiter h =>
      rw [h]
      rw [tail_processorsAt m.core.proc m'.core.proc] at hx
      exact List.mem_of_mem_tail hx
  | leaves hworld a ha h =>
      have hloops : ∀ b ∈ [a], b.coroutine? = none := by simpa using ha
      have hsame : processorsAt m'.core.proc (a :: m'.activations) =
          processorsAt m'.core.proc m'.activations :=
        processorsAt_append hloops _ _
      rw [h, tail_processorsAt m.core.proc m'.core.proc, hsame] at hx
      exact List.mem_of_mem_tail hx
  | engages r c hready p hp hproc next hworld loops hloops h hfrom =>
      rw [h, processorsAt_append hloops]
      exact List.mem_cons_of_mem _ (List.mem_of_mem_tail hx)
  | releases r next exit hexit hworld h hcontrol =>
      rw [h] at hx
      exact hx

/-- A coroutine at rest stays as it is or is engaged. -/
theorem Turn.rests_or_engaged (h : Turn m m') (hm : m.WellNested) {r : CoroutineRef}
    {c : Coroutine} {p : Processor} (hc : m.core.world.coroutine? r = some c)
    (hp : c.processor? = some p) :
    (∃ c' p', m'.core.world.coroutine? r = some c' ∧ c'.processor? = some p' ∧
      p.Alike p' ∧ c'.state = c.state) ∨
    ∃ next loops, (∀ a ∈ loops, a.coroutine? = none) ∧
      m'.activations = loops ++ .switch r m.core.proc next :: m.activations ∧
      ((∃ args, m.control = .running (.resume r args next)) ∨
        r = m.core.world.main) := by
  cases h with
  | stays hworld => exact Or.inl (hworld.rests hc hp)
  | enters hworld => exact Or.inl (hworld.rests hc hp)
  | leaves hworld =>
      rw [hworld]
      exact Or.inl ⟨c, p, hc, hp, .refl p, rfl⟩
  | engages s d hready q hq hproc next hworld loops hloops h hfrom =>
      by_cases hsr : s = r
      · subst hsr
        exact Or.inr ⟨next, loops, hloops, h, hfrom⟩
      · rw [hworld, World.coroutine?_engage_of_ne _ hsr]
        exact Or.inl ⟨c, p, hc, hp, .refl p, rfl⟩
  | releases s next exit hexit hworld h hcontrol =>
      -- The one that gives way has its processor in use.
      have hsr : s ≠ r := by
        rintro rfl
        have hs : s ∈ m.core.world.inFlight := by
          rw [hm.inFlight, h]
          exact List.mem_cons_self
        rw [(hm.scheduled.working s c hc).mpr hs] at hp
        cases hp
      rw [hworld, World.coroutine?_release_of_ne _ _ _ hsr]
      exact Or.inl ⟨c, p, hc, hp, .refl p, rfl⟩

/-- Coroutines at rest keep theirs until they are resumed. -/
theorem Turn.resting (h : Turn m m') (hm : m.WellNested) {r : CoroutineRef}
    {c : Coroutine} {p : Processor} (hc : m.core.world.coroutine? r = some c)
    (hp : c.processor? = some p) (hr : m'.executing? ≠ some r) :
    ∃ c' p', m'.core.world.coroutine? r = some c' ∧
      c'.processor? = some p' ∧ p.Alike p' := by
  rcases h.rests_or_engaged hm hc hp with
    ⟨c', p', hc', hp', halike, -⟩ | ⟨next, loops, hloops, hactivations, -⟩
  · exact ⟨c', p', hc', hp', halike⟩
  · refine absurd ?_ hr
    unfold executing? processors
    rw [hactivations, processorsAt_append hloops]
    rfl

/-- A coroutine that is resumed goes on with its own processor. -/
theorem Turn.takesUp (h : Turn m m') {r : CoroutineRef}
    (hbefore : r ∉ m.core.world.inFlight) (hafter : r ∈ m'.core.world.inFlight) :
    ∃ c p, m.core.world.coroutine? r = some c ∧ c.processor? = some p ∧
      TakesUp p m'.core.proc := by
  cases h with
  | stays hworld h =>
      rw [hworld.inFlight] at hafter
      exact absurd hafter hbefore
  | enters hworld mark waiter h =>
      rw [hworld.inFlight] at hafter
      exact absurd hafter hbefore
  | leaves hworld a ha h =>
      rw [hworld] at hafter
      exact absurd hafter hbefore
  | engages s d hready q hq hproc next hworld loops hloops h hfrom =>
      rw [hworld, World.inFlight_engage] at hafter
      rcases List.mem_cons.mp hafter with hsame | hafter
      · rw [hsame]
        exact ⟨d, q, hready.found, hq, hproc⟩
      · exact absurd hafter hbefore
  | releases s next exit hexit hworld h hcontrol =>
      rw [hworld, World.inFlight_release] at hafter
      exact absurd (List.mem_of_mem_tail hafter) hbefore

/-- A coroutine that gives way has the processor that ran until then. -/
theorem Turn.givesWay (h : Turn m m') (hm : m.WellNested) {r : CoroutineRef}
    (hbefore : r ∈ m.core.world.inFlight) (hafter : r ∉ m'.core.world.inFlight) :
    ∃ c, m'.core.world.coroutine? r = some c ∧
      c.processor? = some m.core.proc := by
  cases h with
  | stays hworld h =>
      rw [hworld.inFlight] at hafter
      exact absurd hbefore hafter
  | enters hworld mark waiter h =>
      rw [hworld.inFlight] at hafter
      exact absurd hbefore hafter
  | leaves hworld a ha h =>
      rw [hworld] at hafter
      exact absurd hbefore hafter
  | engages s d hready q hq hproc next hworld loops hloops h hfrom =>
      rw [hworld, World.inFlight_engage] at hafter
      exact absurd (List.mem_cons_of_mem s hbefore) hafter
  | releases s next exit hexit hworld h hcontrol =>
      obtain ⟨c, hc⟩ := hm.scheduled.present r hbefore
      rw [hm.inFlight, h] at hbefore
      rw [hworld, World.inFlight_release, hm.inFlight, h] at hafter
      have hsame : r = s := (List.mem_cons.mp hbefore).resolve_right hafter
      rw [hworld, hsame]
      rw [hsame] at hc
      exact ⟨_, World.coroutine?_release_self hc _ exit, rfl⟩

/-! ## Resumes and calls into the main coroutine -/

/-- The machine has begun something on top of a state and is not done with it. -/
def IsAbove (m m' : Machine H) : Prop :=
  ∃ r next above,
    m'.activations = above ++ .switch r m.core.proc next :: m.activations

/-- The machine is back where a resume or a call was made, with a result. -/
structure IsBack (m : Machine H)
    (next : Except RuntimeError Value → Action H NativeOutcome)
    (m' : Machine H) : Prop where
  activations : m'.activations = m.activations
  processor : m'.core.proc = m.core.proc
  control : ∃ result, m'.control = .running (next result)
  inFlight : m'.core.world.inFlight = m.core.world.inFlight

/-- The machine is above the state, or it has come back to it once. -/
def ComesBack [Host H] (m : Machine H)
    (next : Except RuntimeError Value → Action H NativeOutcome) : Prop :=
  ∀ n, (∀ i ≤ n, m.IsAbove (m.after (i + 1))) ∨
    ∃ j ≤ n, m.IsBack next (m.after (j + 1)) ∧
      ∀ i < j, m.IsAbove (m.after (i + 1))

/-- A step above a switch stays there or undoes it. -/
theorem Turn.above {outer : Processor} {r : CoroutineRef}
    {next : Except RuntimeError Value → Action H NativeOutcome}
    {above rest : List (Activation H)} (h : Turn m m')
    (hm : m.activations = above ++ .switch r outer next :: rest) :
    (∃ above', m'.activations = above' ++ .switch r outer next :: rest) ∨
      m'.activations = rest ∧ m'.core.proc = outer ∧
        ∃ result, m'.control = .running (next result) := by
  cases h with
  | stays hworld h => exact Or.inl ⟨above, h.trans hm⟩
  | enters hworld mark waiter h =>
      refine Or.inl ⟨.call mark waiter :: above, ?_⟩
      rw [h, hm]
      rfl
  | leaves hworld a ha h =>
      rw [h] at hm
      cases above with
      | nil =>
          cases hm
          cases ha
      | cons b above =>
          obtain ⟨-, hrest⟩ := List.cons.inj hm
          exact Or.inl ⟨above, hrest⟩
  | engages s d hready q hq hproc next' hworld loops hloops h hfrom =>
      refine Or.inl ⟨loops ++ .switch s m.core.proc next' :: above, ?_⟩
      rw [h, hm, List.append_assoc]
      rfl
  | releases s next' exit hexit hworld h hcontrol =>
      rw [h] at hm
      cases above with
      | nil =>
          obtain ⟨hswitch, hrest⟩ := List.cons.inj hm
          obtain ⟨-, hproc, hnext⟩ := Activation.switch.inj hswitch
          refine Or.inr ⟨hrest, hproc, exit.map LoopExit.value, ?_⟩
          rw [hcontrol, hnext]
      | cons b above =>
          obtain ⟨-, hrest⟩ := List.cons.inj hm
          exact Or.inl ⟨above, hrest⟩

section

variable [Host H] [LawfulHost H]

theorem WellNested.after (hm : m.WellNested) (n : Nat) : (m.after n).WellNested := by
  induction n with
  | zero => exact hm
  | succ n ih => exact ih.next

omit [Host H] [LawfulHost H] in
/-- What every step keeps or ends is kept all the way, or up to the step that ends it. -/
theorem keeps_or_ends {P Q : Nat → Prop} (h : P 0) (n : Nat)
    (hstep : ∀ i < n, P i → P (i + 1) ∨ Q (i + 1)) :
    (∀ i ≤ n, P i) ∨ ∃ j < n, Q (j + 1) ∧ ∀ i ≤ j, P i := by
  induction n with
  | zero =>
      refine Or.inl fun i hi => ?_
      rw [Nat.le_zero.mp hi]
      exact h
  | succ n ih =>
      rcases ih fun i hi => hstep i (Nat.lt_succ_of_lt hi) with hkept | ⟨j, hj, hends, hkept⟩
      · rcases hstep n (Nat.lt_succ_self n) (hkept n (Nat.le_refl n)) with hstill | hends
        · refine Or.inl fun i hi => ?_
          rcases Nat.lt_or_eq_of_le hi with hlt | rfl
          · exact hkept i (Nat.le_of_lt_succ hlt)
          · exact hstill
        · exact Or.inr ⟨n, Nat.lt_succ_self n, hends, hkept⟩
      · exact Or.inr ⟨j, Nat.lt_succ_of_lt hj, hends, hkept⟩

/-- What begins by a switch comes back from it. -/
theorem WellNested.comesBack_of_switch (hm : m.WellNested) (r : CoroutineRef)
    {next : Except RuntimeError Value → Action H NativeOutcome}
    (above : List (Activation H))
    (h : m.next.activations = above ++ .switch r m.core.proc next :: m.activations) :
    m.ComesBack next := by
  intro n
  let Above (i : Nat) : Prop := ∃ above, (m.after (i + 1)).activations =
    above ++ .switch r m.core.proc next :: m.activations
  -- The switch stays below what is done above it until the machine is back: no turn takes
  -- it away with anything left above.
  have hstep (i : Nat) (habove : Above i) :
      Above (i + 1) ∨ m.IsBack next (m.after (i + 2)) := by
    obtain ⟨above, habove⟩ := habove
    refine ((turn_next (hm.after (i + 1)).control).above habove).imp_right ?_
    rintro ⟨hactivations, hproc, hcontrol⟩
    refine ⟨hactivations, hproc, hcontrol, ?_⟩
    rw [(hm.after (i + 2)).inFlight, hm.inFlight]
    exact congrArg switches hactivations
  rcases keeps_or_ends (P := Above) (Q := fun i => m.IsBack next (m.after (i + 1)))
    ⟨above, h⟩ n fun i _ => hstep i with habove | ⟨j, hj, hback, hbefore⟩
  · exact Or.inl fun i hi => ⟨r, next, habove i hi⟩
  · exact Or.inr ⟨j + 1, hj, hback,
      fun i hi => ⟨r, next, hbefore i (Nat.le_of_lt_succ hi)⟩⟩

omit [LawfulHost H] in
/-- What is refused is back at once. -/
theorem comesBack_of_refusal
    {next : Except RuntimeError Value → Action H NativeOutcome}
    (result : Except RuntimeError Value)
    (h : m.next = ⟨m.core, m.activations, .running (next result)⟩) :
    m.ComesBack next := by
  have hback : m.IsBack next (m.after 1) := by
    change m.IsBack next m.next
    rw [h]
    exact ⟨rfl, rfl, ⟨result, rfl⟩, rfl⟩
  intro n
  right
  exact ⟨0, Nat.zero_le n, hback, fun i hi => absurd hi (Nat.not_lt_zero i)⟩

omit [LawfulHost H] in
theorem next_of_refusal {r : CoroutineRef} {args : List Value}
    {next : Except RuntimeError Value → Action H NativeOutcome} {e : RuntimeError}
    (hcontrol : m.control = .running (.resume r args next))
    (h : m.core.world.resumeRefusal? r args = some e) :
    m.next = ⟨m.core, m.activations, .running (next (.error e))⟩ := by
  rw [next_of_running hcontrol]
  exact resume_of_refused m.core h

omit [LawfulHost H] in
theorem activations_runCoroutine (w : World H)
    (activations : List (Activation H)) (c : Coroutine) (p : Processor)
    (args : List Value) :
    ∃ above, (runCoroutine w activations c p args).activations =
      above ++ activations := by
  have hroused := roused_runCoroutine w activations c p args
  generalize runCoroutine w activations c p args = m at hroused ⊢
  cases hroused with
  | native hkind => exact ⟨[], rfl⟩
  | first hkind hstate => exact ⟨[.body], exec_activations _ _ _⟩
  | lost hkind hstate hyielded => exact ⟨[], rfl⟩
  | yielded frame hkind hstate hyielded => exact ⟨[.body], rfl⟩
  | forced hkind hfirst hyielded => exact ⟨[.body], rfl⟩

omit [LawfulHost H] in
theorem resume_stays_or_switches (core : Core H) (activations : List (Activation H))
    (r : CoroutineRef) (args : List Value)
    (next : Except RuntimeError Value → Action H NativeOutcome) :
    (∃ e, resume core activations r args next =
      ⟨core, activations, .running (next (.error e))⟩) ∨
    ∃ above, (resume core activations r args next).activations =
      above ++ .switch r core.proc next :: activations := by
  rcases resume_cases core activations r args next with
    ⟨e, -, hresume⟩ | ⟨c, p, -, -, -, -, hresume⟩
  · exact Or.inl ⟨e, hresume⟩
  · rw [hresume]
    exact Or.inr (activations_runCoroutine _ _ c p args)

theorem WellNested.comesBack_of_resume (hm : m.WellNested) {r : CoroutineRef}
    {args : List Value}
    {next : Except RuntimeError Value → Action H NativeOutcome}
    (h : m.control = .running (.resume r args next)) : m.ComesBack next := by
  obtain ⟨core, activations, control⟩ := m
  cases h
  rcases resume_stays_or_switches core activations r args next with
    ⟨e, hresume⟩ | ⟨above, habove⟩
  · exact comesBack_of_refusal (.error e) hresume
  · exact hm.comesBack_of_switch r above habove

theorem WellNested.comesBack_of_enterMain (hm : m.WellNested) {function : Value}
    {args : List Value}
    {next : Except RuntimeError Value → Action H NativeOutcome}
    (h : m.control = .running (.enterMain function args next)) :
    m.ComesBack next := by
  obtain ⟨core, activations, control⟩ := m
  cases h
  rcases enterMain_cases core activations function args next with
    henter | ⟨c, p, -, -, henter⟩
  · exact comesBack_of_refusal (.error (.contract .reentrancy)) henter
  · exact hm.comesBack_of_switch core.world.main [] (congrArg Machine.activations henter)

end

end Machine

/-! ## Refusals -/

/-- The four reasons for which a coroutine is not resumed. -/
inductive World.Refuses (w : World H) (r : CoroutineRef) (args : List Value) :
    Prop where
  | dead (h : (w.coroutine r).state = .dead)
  | notSuspended (h : (w.coroutine r).state.isSuspended = false)
  | forced (h : (w.coroutine r).state = .forceSuspended) (hargs : args ≠ [])
  | tooMany (h : w.settings.maxNativeNesting ≤ w.inFlight.length)

/-- A coroutine that may be resumed as to its state has its processor. -/
theorem World.Scheduled.isSome_of_isSuspended {w : World H} (hw : w.Scheduled)
    {r : CoroutineRef} (h : (w.coroutine r).state.isSuspended = true) :
    (w.coroutine r).processor?.isNone = false := by
  cases hc : w.coroutine? r with
  | none =>
      exfalso
      unfold World.coroutine at h
      unfold World.coroutine? at hc
      split at h
      · next c hobject =>
          rw [hobject] at hc
          cases hc
      · cases h
  | some c =>
      rw [World.coroutine_of_coroutine? hc] at h ⊢
      cases hp : c.processor? with
      | some p => rfl
      | none =>
          exfalso
          have hinFlight := (hw.working r c hc).mp hp
          by_cases hmain : r = w.main
          · rw [hmain] at hc
            rw [hw.state_main hc] at h
            cases h
          · rw [(hw.running r c hc hmain).mpr hinFlight] at h
            cases h

theorem World.Scheduled.resumeRefusal?_eq_none_iff {w : World H}
    (hw : w.Scheduled) (r : CoroutineRef) (args : List Value) :
    w.resumeRefusal? r args = none ↔ ¬w.Refuses r args := by
  unfold World.resumeRefusal?
  dsimp only
  by_cases hdead : (w.coroutine r).state = .dead
  · rw [if_pos hdead]
    exact iff_of_false (by simp) fun h => h (.dead hdead)
  rw [if_neg hdead]
  by_cases hsuspended : (w.coroutine r).state.isSuspended = true
  · rw [hw.isSome_of_isSuspended hsuspended, hsuspended]
    by_cases hforced : (w.coroutine r).state = .forceSuspended ∧ args ≠ []
    · have hargs : args.isEmpty = false := by simpa using hforced.2
      rw [hforced.1, hargs]
      exact iff_of_false (by simp) fun h => h (.forced hforced.1 hforced.2)
    · have hguard : (decide ((w.coroutine r).state = .forceSuspended) &&
          !args.isEmpty) = false := by
        rw [Bool.and_eq_false_iff]
        by_cases hstate : (w.coroutine r).state = .forceSuspended
        · right
          have hargs : args = [] := Classical.byContradiction fun hargs =>
            hforced ⟨hstate, hargs⟩
          rw [hargs]
          rfl
        · exact Or.inl (decide_eq_false hstate)
      rw [hguard]
      by_cases hmany : w.settings.maxNativeNesting ≤ w.inFlight.length
      · rw [if_pos hmany]
        exact iff_of_false (by simp) fun h => h (.tooMany hmany)
      · rw [if_neg hmany]
        refine iff_of_true (by simp) ?_
        intro h
        cases h with
        | dead h => exact hdead h
        | notSuspended h =>
            rw [hsuspended] at h
            cases h
        | forced h hargs => exact hforced ⟨h, hargs⟩
        | tooMany h => exact hmany h
  · have hnot : (w.coroutine r).state.isSuspended = false :=
      Bool.eq_false_iff.mpr hsuspended
    rw [hnot]
    exact iff_of_false (by simp) fun h => h (.notSuspended hnot)

/-! ## The discipline -/

namespace Machine

/-- What holds of the coroutines of a machine and of its next step. -/
structure Disciplined [Host H] (m : Machine H) : Prop where
  /-- There is a main coroutine, it is always in its own state, and no other
  is. -/
  main : ∃ c, m.core.world.coroutine? m.core.world.main = some c ∧
    c.state = .main
  mainOnly : ∀ r c, m.core.world.coroutine? r = some c → c.state = .main →
    r = m.core.world.main
  running : ∀ r, r ≠ m.core.world.main →
    ((∃ c, m.core.world.coroutine? r = some c ∧ c.state = .running) ↔
      r ∈ m.core.world.inFlight)
  distinct : m.core.world.inFlight.Nodup
  /-- A coroutine over a host function that has run is dead. -/
  native : ∀ r c, m.core.world.coroutine? r = some c → c.kind = .native →
    c.state = .notStarted ∨ c.state = .running ∨ c.state = .dead
  moves : m.core.world.Advances m.next.core.world
  dead : ∀ r c, m.core.world.coroutine? r = some c → c.state = .dead →
    ∀ n, ∃ c', (m.after n).core.world.coroutine? r = some c' ∧ c'.state = .dead
  current : m.core.world.current? = m.executing?
  /-- A step leaves the processors of all coroutines alone but the one that runs
  before it and the one that runs after it. -/
  waiting : ∀ x ∈ m.processors.tail, x ∈ m.next.processors
  resting : ∀ r c p, m.core.world.coroutine? r = some c →
    c.processor? = some p → m.next.executing? ≠ some r →
    ∃ c' p', m.next.core.world.coroutine? r = some c' ∧
      c'.processor? = some p' ∧ p.Alike p'
  takesUp : ∀ r, r ∉ m.core.world.inFlight → r ∈ m.next.core.world.inFlight →
    ∃ c p, m.core.world.coroutine? r = some c ∧ c.processor? = some p ∧
      TakesUp p m.next.core.proc
  givesWay : ∀ r, r ∈ m.core.world.inFlight → r ∉ m.next.core.world.inFlight →
    ∃ c, m.next.core.world.coroutine? r = some c ∧
      c.processor? = some m.core.proc
  /-- Whoever resumes in vain gets the error and finds all as it was. -/
  refused : ∀ r args next, m.control = .running (.resume r args next) →
    m.core.world.Refuses r args →
    ∃ e, m.next = ⟨m.core, m.activations, .running (next (.error e))⟩
  accepted : ∀ r args next, m.control = .running (.resume r args next) →
    ¬m.core.world.Refuses r args →
    m.next.core.world.inFlight = r :: m.core.world.inFlight
  resumes : ∀ r args next, m.control = .running (.resume r args next) →
    m.ComesBack next
  calls : ∀ function args next,
    m.control = .running (.enterMain function args next) → m.ComesBack next

section

variable [Host H] [LawfulHost H] {m : Machine H}

theorem WellNested.dead (hm : m.WellNested) {r : CoroutineRef} {c : Coroutine}
    (hc : m.core.world.coroutine? r = some c) (hdead : c.state = .dead)
    (n : Nat) :
    ∃ c', (m.after n).core.world.coroutine? r = some c' ∧ c'.state = .dead := by
  induction n with
  | zero => exact ⟨c, hc, hdead⟩
  | succ n ih =>
      obtain ⟨c', hc', hdead'⟩ := ih
      have hwellNested := hm.after n
      have hmoves := (turn_next hwellNested.control).advances hwellNested
      obtain ⟨c'', hc'', hmove, -⟩ := hmoves.moves r c' hc'
      refine ⟨c'', hc'', ?_⟩
      rw [hdead'] at hmove
      generalize c''.state = state at hmove
      cases hmove with
      | stays => rfl
      | engages h => cases h

theorem WellNested.accepted (hm : m.WellNested) {r : CoroutineRef} {args : List Value}
    {next : Except RuntimeError Value → Action H NativeOutcome}
    (hcontrol : m.control = .running (.resume r args next))
    (h : ¬m.core.world.Refuses r args) :
    m.next.core.world.inFlight = r :: m.core.world.inFlight := by
  have hnone := (hm.scheduled.resumeRefusal?_eq_none_iff r args).mpr h
  have hwellNested := hm.next
  rw [hwellNested.inFlight, hm.inFlight]
  obtain ⟨core, activations, control⟩ := m
  cases hcontrol
  change switches (resume core activations r args next).activations = _
  obtain ⟨c, p, hc, hp, -⟩ := World.atRest_of_accepted hnone
  rw [resume_of_accepted core hnone hc hp]
  have hroused := roused_runCoroutine (core.world.engage r)
    (.switch r core.proc next :: activations) c p args
  generalize runCoroutine (core.world.engage r) _ c p args = m at hroused ⊢
  cases hroused with
  | first hkind hstate =>
      rw [exec_activations]
      rfl
  | _ => rfl

/-- Coroutines keep to their discipline in every state of every history. -/
theorem Reachable.disciplined (h : m.Reachable) : m.Disciplined := by
  have hm := h.wellNested
  have hturn := turn_next hm.control
  refine
    { main := hm.scheduled.main
      mainOnly := hm.scheduled.mainOnly
      running := ?_
      distinct := hm.scheduled.distinct
      native := hm.scheduled.native
      moves := hturn.advances hm
      dead := fun r c hc hdead => hm.dead hc hdead
      current := hm.current
      waiting := fun x hx => hturn.waiting hx
      resting := fun r c p hc hp hr => hturn.resting hm hc hp hr
      takesUp := fun r hbefore hafter => hturn.takesUp hbefore hafter
      givesWay := fun r hbefore hafter => hturn.givesWay hm hbefore hafter
      refused := ?_
      accepted := fun r args next hcontrol => hm.accepted hcontrol
      resumes := fun r args next hcontrol => hm.comesBack_of_resume hcontrol
      calls := fun function args next hcontrol =>
        hm.comesBack_of_enterMain hcontrol }
  · intro r hmain
    constructor
    · rintro ⟨c, hc, hstate⟩
      exact (hm.scheduled.running r c hc hmain).mp hstate
    · intro hr
      obtain ⟨c, hc⟩ := hm.scheduled.present r hr
      exact ⟨c, hc, (hm.scheduled.running r c hc hmain).mpr hr⟩
  · intro r args next hcontrol hrefuses
    cases hrefusal : m.core.world.resumeRefusal? r args with
    | some e => exact ⟨e, next_of_refusal hcontrol hrefusal⟩
    | none =>
        exact absurd hrefuses
          ((hm.scheduled.resumeRefusal?_eq_none_iff r args).mp hrefusal)

end

/-- A host makes a coroutine over a function of the library and resumes it. -/
theorem disciplined_workbench :
    Disciplined (H := Workbench.types)
      (next (next (start (World.start {} {})
        (.write (fun w => (w.addCoroutine .native (.native ⟨3⟩)).2)
          (.resume ⟨40⟩ [] fun r => (Action.ofResult r).bind Library.one))))) := by
  have haction : Action.Lawful (H := Workbench.types)
      (.write (fun w => (w.addCoroutine .native (.native ⟨3⟩)).2)
        (.resume ⟨40⟩ [] fun r => (Action.ofResult r).bind Library.one)) := by
    refine .write (fun w => .addCoroutine w .native _) (.resume _ _ fun r => ?_)
    exact Action.lawful_bind (Action.lawful_ofResult r) Library.lawful_one
  have hstart := Reachable.start (H := Workbench.types) {} {} haction
  exact Reachable.disciplined (.next (.next hstart))

end Machine

end ScriptEngine
