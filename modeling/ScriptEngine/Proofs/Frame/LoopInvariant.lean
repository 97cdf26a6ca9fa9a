import ScriptEngine.Proofs.Coroutine.History
import ScriptEngine.Proofs.Frame.LoopFrames

/-!
# What stays in force over a loop

A call that has begun in a loop, or the instruction that a loop has fetched last,
outlasts what runs in between.  The loop may be at work.  Its processor may wait for
a coroutine that a host function has resumed.  Its own coroutine may give way and be
at rest until it is resumed.  A `LoopInvariant` says what is to hold at each of these
places; how a machine gets from one to the next is the same for all of them.
-/

namespace ScriptEngine

variable {H : HostTypes}

/-- The loop that a call is made in. -/
inductive Loop (H : HostTypes) where
  | nested (mark : LoopMark) (waiter : Waiter H) (rest : List (Activation H))
  /-- The outermost loop of a coroutine. -/
  | body (r : CoroutineRef)

inductive Loop.At : Loop H → List (Activation H) → Prop where
  | nested (mark : LoopMark) (waiter : Waiter H) (rest : List (Activation H)) :
      At (.nested mark waiter rest) (.call mark waiter :: rest)
  | body (r : CoroutineRef) (outer : Processor)
      (next : Except RuntimeError Value → Action H NativeOutcome)
      (rest : List (Activation H)) :
      At (.body r) (.body :: .switch r outer next :: rest)

/-- The height the frames of the loop stand on. -/
def Loop.floor : Loop H → Nat
  | .nested mark _ _ => mark.frames
  | .body _ => 0

namespace Loop.At

variable {loop : Loop H} {activations : List (Activation H)}

theorem inLoop (h : loop.At activations) : InLoop activations := by
  cases h with
  | nested mark waiter rest => exact .call mark waiter rest
  | body r outer next rest => exact .body _

theorem frameFloor (h : loop.At activations) :
    ScriptEngine.frameFloor activations = loop.floor := by
  cases h with
  | nested mark waiter rest => rfl
  | body r outer next rest => rfl

end Loop.At

namespace Machine

variable {m : Machine H}

/-- No loop is in two places: a coroutine has one body. -/
theorem Loop.At.not_above {loop : Loop H} {activations : List (Activation H)}
    (h : loop.At activations) (hm : m.WellNested)
    (inner : List (Activation H)) (hm' : m.activations = inner ++ activations)
    (hne : inner ≠ []) :
    ¬loop.At m.activations := by
  have hdistinct := hm.scheduled.distinct
  rw [hm.inFlight] at hdistinct
  rw [hm'] at hdistinct ⊢
  intro htwice
  obtain ⟨a, inner, rfl⟩ := List.exists_cons_of_ne_nil hne
  cases h with
  | nested mark waiter rest =>
      generalize hall : a :: inner ++ .call mark waiter :: rest = all at htwice
      cases htwice
      have hlength := congrArg List.length hall
      simp at hlength
      omega
  | body r outer next rest =>
      generalize hall : a :: inner ++ .body :: .switch r outer next :: rest = all
        at htwice hdistinct
      cases htwice with
      | body r outer' next' rest' =>
          have hmem : r ∈ switches rest' := by
            cases inner with
            | nil => simp at hall
            | cons b inner =>
                have hrest : inner ++ .body :: .switch r outer next :: rest = rest' :=
                  (List.cons.inj (List.cons.inj hall).2).2
                rw [← hrest]
                simp [switches, Activation.coroutine?]
          exact absurd hmem (List.nodup_cons.mp hdistinct).1

/-! ## Coroutines at rest -/

/-- A resume that begins a switch is one that is accepted. -/
theorem resume_of_lt [Host H] {core : Core H} {activations : List (Activation H)}
    {r : CoroutineRef} {c : Coroutine} {p : Processor} {args : List Value}
    {next : Except RuntimeError Value → Action H NativeOutcome}
    (hc : core.world.coroutine? r = some c) (hp : c.processor? = some p)
    (h : activations.length < (resume core activations r args next).activations.length) :
    core.world.resumeRefusal? r args = none ∧
      resume core activations r args next =
        runCoroutine (core.world.engage r) (.switch r core.proc next :: activations) c p args := by
  cases hrefusal : core.world.resumeRefusal? r args with
  | some e =>
      rw [resume_of_refused core hrefusal] at h
      exact absurd h (Nat.lt_irrefl _)
  | none => exact ⟨rfl, resume_of_accepted core hrefusal hc hp⟩

/-- A coroutine at rest stays at rest until a resume of it is accepted. -/
theorem rests_or_resumed [Host H] (hm : m.WellNested) {r : CoroutineRef} {c : Coroutine}
    {p : Processor} (hc : m.core.world.coroutine? r = some c)
    (hp : c.processor? = some p) (hstate : c.state ≠ .main) :
    (∃ c' p', m.next.core.world.coroutine? r = some c' ∧ c'.processor? = some p' ∧
      p.Alike p' ∧ c'.state = c.state) ∨
    ∃ args next, m.control = .running (.resume r args next) ∧
      m.core.world.resumeRefusal? r args = none ∧
      m.next = runCoroutine (m.core.world.engage r)
        (.switch r m.core.proc next :: m.activations) c p args := by
  refine ((turn_next hm.control).rests_or_engaged hm hc hp).imp_right ?_
  rintro ⟨next, loops, -, hactivations, hfrom⟩
  have hmain : r ≠ m.core.world.main := by
    rintro rfl
    exact hstate (hm.scheduled.state_main hc)
  obtain ⟨args, hcontrol⟩ := hfrom.resolve_right hmain
  obtain ⟨core, activations, control⟩ := m
  dsimp only at hcontrol hc hactivations
  subst hcontrol
  change (resume core activations r args next).activations = _ at hactivations
  refine ⟨args, next, rfl, resume_of_lt hc hp ?_⟩
  rw [hactivations, List.length_append, List.length_cons]
  omega

/-- A suspended coroutine is one of a script. -/
theorem kind_of_suspended (hm : m.WellNested) {r : CoroutineRef} {c : Coroutine}
    (hc : m.core.world.coroutine? r = some c)
    (hstate : c.state = .suspended ∨ c.state = .forceSuspended) : c.kind = .script := by
  cases hkind : c.kind with
  | script => rfl
  | native =>
      have hnative := hm.scheduled.native r c hc hkind
      rcases hstate with hstate | hstate
      all_goals
        rw [hstate] at hnative
        rcases hnative with h | h | h <;> cases h

/-- A coroutine at rest has no loop that runs. -/
theorem not_at_of_resting {r : CoroutineRef} {c : Coroutine} {p : Processor}
    (hm : m.WellNested) (hc : m.core.world.coroutine? r = some c)
    (hp : c.processor? = some p) : ¬Loop.At (.body r) m.activations := by
  intro hloop
  have hinFlight : r ∈ m.core.world.inFlight := by
    rw [hm.inFlight]
    generalize m.activations = activations at hloop
    cases hloop
    exact List.mem_cons_self
  rw [(hm.scheduled.working r c hc).mpr hinFlight] at hp
  cases hp

/-- A coroutine that gives way for the time being rests with its processor. -/
theorem rests_of_departing [Host H] (hm : m.WellNested) {r : CoroutineRef} {outer : Processor}
    {next : Except RuntimeError Value → Action H NativeOutcome}
    {rest : List (Activation H)} {exit : LoopExit}
    (h : m.activations = .switch r outer next :: rest)
    (hcontrol : m.control = .switching (.ok exit)) (hexit : ¬LoopExit.IsFinal (.ok exit)) :
    ∃ c, m.next.core.world.coroutine? r = some c ∧ c.processor? = some m.core.proc ∧
      c.state = CoroutineState.after .running (.ok exit) := by
  have hinFlight : r ∈ m.core.world.inFlight := by
    rw [hm.inFlight, h]
    exact List.mem_cons_self
  have hfits := hm.control
  rw [hcontrol] at hfits
  obtain ⟨r', outer', next', rest', hsame, hscript⟩ := hfits
  rw [h] at hsame
  cases hsame
  obtain ⟨c, hc, -, hstate⟩ := hscript hexit
  have hmain : r ≠ m.core.world.main := by
    intro hmain
    rw [hmain] at hc
    exact hstate (hm.scheduled.state_main hc)
  have hrunning := (hm.scheduled.running r c hc hmain).mpr hinFlight
  obtain ⟨core, activations, control⟩ := m
  dsimp only at h hcontrol hc
  subst h hcontrol
  exact ⟨_, World.coroutine?_release_self hc core.proc (.ok exit), rfl,
    congrArg (CoroutineState.after · (.ok exit)) hrunning⟩

end Machine

/-- What is to hold of a loop, by where its processor is. -/
structure LoopInvariant (H : HostTypes) where
  loop : Loop H
  /-- The loop, or a loop within it, is the innermost one. -/
  Active : Machine H → Prop
  /-- The loop's processor waits for another coroutine under these activations. -/
  Waits : List (Activation H) → Processor → Prop
  /-- The loop's processor is at rest with its coroutine. -/
  Parked : Processor → CoroutineState → Prop

namespace LoopInvariant

inductive InForce (I : LoopInvariant H) (m : Machine H) : Prop where
  | active (h : I.Active m)
  /-- A host function in the loop has resumed a coroutine. -/
  | waiting (inner : List (Activation H)) (r : CoroutineRef) (outer : Processor)
      (next : Except RuntimeError Value → Action H NativeOutcome)
      (activations : List (Activation H))
      (h : m.activations = inner ++ .switch r outer next :: activations)
      (hwaits : I.Waits activations outer)
  /-- The loop's own coroutine gives way. -/
  | departing (r : CoroutineRef) (outer : Processor)
      (next : Except RuntimeError Value → Action H NativeOutcome)
      (rest : List (Activation H)) (exit : LoopExit) (hloop : I.loop = .body r)
      (h : m.activations = .switch r outer next :: rest)
      (hcontrol : m.control = .switching (.ok exit))
      (hparked : I.Parked m.core.proc (CoroutineState.after .running (.ok exit)))
  | resting (r : CoroutineRef) (c : Coroutine) (p : Processor) (hloop : I.loop = .body r)
      (hc : m.core.world.coroutine? r = some c) (hp : c.processor? = some p)
      (hparked : I.Parked p c.state)

/-- The invariant gets from place to place unless this happens. -/
structure Persists [Host H] (I : LoopInvariant H) (Ends : Machine H → Prop) : Prop where
  ne_nil : ∀ {m : Machine H}, I.Active m → m.activations ≠ []
  back : ∀ {activations : List (Activation H)} {p : Processor}, I.Waits activations p →
    ∀ (w : World H) (a : Action H NativeOutcome), I.Active ⟨⟨w, p⟩, activations, .running a⟩
  of_alike : ∀ {p p' : Processor} {state : CoroutineState}, I.Parked p state →
    p.Alike p' → I.Parked p' state
  suspended : ∀ {p : Processor} {state : CoroutineState}, I.Parked p state →
    state = .suspended ∨ state = .forceSuspended
  resumed : ∀ {r : CoroutineRef} {c : Coroutine} {p outer : Processor}
    {next : Except RuntimeError Value → Action H NativeOutcome}
    {activations : List (Activation H)} (w : World H) (args : List Value),
    I.loop = .body r → c.kind = .script → I.Parked p c.state → c.state.Rests p →
      I.InForce (Machine.runCoroutine w (.switch r outer next :: activations) c p args) ∨
        Ends (Machine.runCoroutine w (.switch r outer next :: activations) c p args)

variable {I : LoopInvariant H} {m : Machine H}

/-! ## From the loop -/

section

variable {core : Core H} {activations : List (Activation H)}
  {next : Except RuntimeError Value → Action H NativeOutcome}

theorem inForce_resume [Host H] (r : CoroutineRef) (args : List Value)
    (hactive : ∀ a, I.Active ⟨core, activations, .running a⟩)
    (hwaits : I.Waits activations core.proc) :
    I.InForce (Machine.resume core activations r args next) := by
  rcases Machine.resume_stays_or_switches core activations r args next with
    ⟨e, hresume⟩ | ⟨inner, hinner⟩
  · rw [hresume]
    exact .active (hactive _)
  · exact .waiting inner r core.proc next activations hinner hwaits

theorem inForce_enterMain (function : Value) (args : List Value)
    (hactive : ∀ a, I.Active ⟨core, activations, .running a⟩)
    (hwaits : I.Waits activations core.proc) :
    I.InForce (Machine.enterMain core activations function args next) := by
  rcases Machine.enterMain_cases core activations function args next with
    henter | ⟨c, p, -, -, henter⟩
  all_goals rw [henter]
  · exact .active (hactive _)
  · exact .waiting [] core.world.main core.proc next activations rfl hwaits

end

/-- With the loop innermost nothing else is in the way. -/
theorem InForce.active_of_at (h : I.InForce m)
    (hat : ∀ {activations p}, I.Waits activations p → I.loop.At activations) (hm : m.WellNested)
    (hloop : I.loop.At m.activations) : I.Active m := by
  cases h with
  | active h => exact h
  | waiting inner r outer next activations h hwaits =>
      refine absurd hloop (Machine.Loop.At.not_above (hat hwaits) hm
        (inner ++ [.switch r outer next]) ?_ (by simp))
      rw [h, List.append_assoc]
      rfl
  | departing r outer next rest exit hown h hcontrol hparked =>
      have hin := hloop.inLoop
      rw [h] at hin
      exact absurd hin InLoop.ne_switch
  | resting r c p hown hc hp hparked =>
      rw [hown] at hloop
      exact absurd hloop (Machine.not_at_of_resting hm hc hp)

/-! ## From place to place -/

variable [Host H] {Ends : Machine H → Prop}

theorem Persists.mono {Ends' : Machine H → Prop} (hI : I.Persists Ends)
    (h : ∀ m, Ends m → Ends' m) : I.Persists Ends' := by
  refine { hI with resumed := fun w args hloop hkind hparked hrests => ?_ }
  exact (hI.resumed w args hloop hkind hparked hrests).imp_right (h _)

theorem waiting_next (hI : I.Persists Ends) (hm : m.WellNested) {inner : List (Activation H)}
    {r : CoroutineRef} {outer : Processor}
    {next : Except RuntimeError Value → Action H NativeOutcome}
    {activations : List (Activation H)}
    (h : m.activations = inner ++ .switch r outer next :: activations)
    (hwaits : I.Waits activations outer) : I.InForce m.next := by
  rcases (Machine.turn_next hm.control).above h with
    ⟨inner', hinner⟩ | ⟨hback, hproc, result, hcontrol⟩
  · exact .waiting inner' r outer next activations hinner hwaits
  · have hnext : m.next =
        ⟨⟨m.next.core.world, outer⟩, activations, .running (next result)⟩ := by
      rw [← hback, ← hproc, ← hcontrol]
    rw [hnext]
    exact .active (hI.back hwaits _ _)

theorem departing_next (hI : I.Persists Ends) (hm : m.WellNested) {r : CoroutineRef}
    {outer : Processor} {next : Except RuntimeError Value → Action H NativeOutcome}
    {rest : List (Activation H)} {exit : LoopExit} (hloop : I.loop = .body r)
    (h : m.activations = .switch r outer next :: rest)
    (hcontrol : m.control = .switching (.ok exit))
    (hparked : I.Parked m.core.proc (CoroutineState.after .running (.ok exit))) :
    I.InForce m.next := by
  have hexit : ¬LoopExit.IsFinal (.ok exit) := by
    intro hfinal
    have hsuspended := hI.suspended hparked
    rw [CoroutineState.after_of_isFinal hfinal] at hsuspended
    rcases hsuspended with h | h <;> cases h
  obtain ⟨c, hc, hp, hstate⟩ := Machine.rests_of_departing hm h hcontrol hexit
  refine .resting r c m.core.proc hloop hc hp ?_
  rw [hstate]
  exact hparked

theorem resting_next (hI : I.Persists Ends) (hm : m.WellNested) (hg : m.WellFramed)
    {r : CoroutineRef} {c : Coroutine} {p : Processor} (hloop : I.loop = .body r)
    (hc : m.core.world.coroutine? r = some c) (hp : c.processor? = some p)
    (hparked : I.Parked p c.state) : I.InForce m.next ∨ Ends m.next := by
  have hsuspended := hI.suspended hparked
  have hmain : c.state ≠ .main := by
    rcases hsuspended with h | h <;> rw [h] <;> simp
  rcases Machine.rests_or_resumed hm hc hp hmain with
    ⟨c', p', hc', hp', halike, hstate⟩ | ⟨args, next, -, -, hnext⟩
  · refine Or.inl (.resting r c' p' hloop hc' hp' ?_)
    rw [hstate]
    exact hI.of_alike hparked halike
  · rw [hnext]
    exact hI.resumed _ args hloop (Machine.kind_of_suspended hm hc hsuspended) hparked
      (hg.world r c p hc hp)

/-- What is in force stays so in a step if it does where the loop is at work. -/
theorem InForce.next (h : I.InForce m) (hI : I.Persists Ends) (hm : m.WellNested)
    (hg : m.WellFramed) (hactive : I.Active m → I.InForce m.next ∨ Ends m.next) :
    I.InForce m.next ∨ Ends m.next := by
  cases h with
  | active h => exact hactive h
  | waiting inner r outer next activations h hwaits =>
      exact Or.inl (waiting_next hI hm h hwaits)
  | departing r outer next rest exit hloop h hcontrol hparked =>
      exact Or.inl (departing_next hI hm hloop h hcontrol hparked)
  | resting r c p hloop hc hp hparked => exact resting_next hI hm hg hloop hc hp hparked

/-- A host that is through with the machine leaves coroutines at rest as they are. -/
theorem InForce.again (h : I.InForce m) (hI : I.Persists Ends) (hm : m.WellNested)
    {result : Except RuntimeError Value} (hfinished : m.control = .finished result)
    {w : World H} (hw : m.core.world.Extends w) (a : Action H NativeOutcome) :
    I.InForce (.start w a) := by
  have hnil := hm.activations_eq_nil hfinished
  cases h with
  | active h => exact absurd hnil (hI.ne_nil h)
  | waiting inner r outer next activations h hwaits =>
      rw [hnil] at h
      exact absurd h.symm (by simp)
  | departing r outer next rest exit hloop h hcontrol hparked =>
      rw [hnil] at h
      cases h
  | resting r c p hloop hc hp hparked =>
      obtain ⟨c', p', hc', hp', halike, hstate⟩ := hw.rests hc hp
      refine .resting r c' p' hloop hc' hp' ?_
      rw [hstate]
      exact hI.of_alike hparked halike

/-- All the while it is in force, until it ends. -/
theorem lasts_until [LawfulHost H] (hI : I.Persists Ends) {m₁ : Machine H}
    (hreach : m₁.Reachable) (hstart : I.InForce m₁ ∨ Ends m₁)
    (hactive : ∀ m : Machine H, m.Reachable → Machine.Until Ends m₁ m → I.Active m → ¬Ends m →
      I.InForce m.next ∨ Ends m.next)
    (h : Machine.Until Ends m₁ m) : I.InForce m ∨ Ends m := by
  induction h with
  | start => exact hstart
  | @next m h hends ih =>
      have hm := h.leads.reachable hreach
      exact (ih.resolve_right hends).next hI hm.wellNested hm.wellFramed
        fun hwork => hactive m hm h hwork hends
  | again h hends hfinished hw ha ih =>
      have hm := h.leads.reachable hreach
      exact Or.inl ((ih.resolve_right hends).again hI hm.wellNested hfinished hw _)

end LoopInvariant

end ScriptEngine
