import ScriptEngine.Proofs.Coroutine.Nesting

/-!
# Steps keep the nesting

Each part of a step leaves the machine in a shape that fits, whatever world the
shape is seen in; with what the step does to the coroutines this makes every
step lead from a well nested machine to a well nested one.
-/

namespace ScriptEngine.Machine

variable {H : HostTypes}

/-- The control goes with the activations. -/
structure Shaped (w : World H) (m : Machine H) : Prop where
  nested : Nested w m.activations
  control : m.control.Fits w m.activations

theorem Shaped.of_advances {w w' : World H} {m : Machine H} (h : m.Shaped w)
    (hw : w.Advances w') : m.Shaped w' := by
  refine ⟨h.nested.of_advances hw, ?_⟩
  have hcontrol := h.control
  revert hcontrol
  cases m.control with
  | switching exit =>
      rintro ⟨r, outer, next, rest, hactivations, hscript⟩
      exact ⟨r, outer, next, rest, hactivations,
        fun hexit => hw.isScript (hscript hexit)⟩
  | _ => exact id

section

variable {w : World H} {activations : List (Activation H)}

theorem shaped_exec {route : Route} (x : Exec H Outcome) (core : Core H)
    (hnested : Nested w activations) (hloop : InLoop activations) :
    (exec route x core activations).Shaped w := by
  unfold exec
  cases x core <;> cases route <;> exact ⟨hnested, hloop⟩

/-! ## Loops -/

theorem shaped_leave (core : Core H) (exit : Except RuntimeError LoopExit)
    (hnested : Nested w activations) (hloop : InLoop activations) :
    (leave core activations exit).Shaped w := by
  cases hnested with
  | nil => exact absurd hloop not_inLoop_nil
  | @call mark waiter rest hwaiter h =>
      change (endCall core rest mark waiter exit).Shaped w
      unfold endCall
      rcases exit with e | exit
      · exact ⟨h, hwaiter⟩
      · cases exit <;> exact ⟨h, hwaiter⟩
  | @body r outer next rest hscript h =>
      change (endBody core (.switch r outer next :: rest) exit).Shaped w
      unfold endBody
      cases exit <;> exact ⟨h, r, outer, next, rest, rfl, fun _ => hscript⟩
  | switch r outer hacts hnext h => exact absurd hloop InLoop.ne_switch

theorem shaped_answer (core : Core H) {waiter : Waiter H}
    (result : Except RuntimeError Value) (hnested : Nested w activations)
    (hwaiter : waiter.Fits activations) :
    (answer core activations result waiter).Shaped w := by
  cases waiter with
  | action next => exact ⟨hnested, hwaiter.1, hwaiter.2 result⟩
  | decorated e rest => exact ⟨hnested, hwaiter⟩
  | refused e handler flags returnAddress => exact ⟨hnested, hwaiter⟩
  | recovered flags returnAddress =>
      cases result with
      | ok v => exact shaped_exec _ core hnested hwaiter
      | error e => exact ⟨hnested, hwaiter⟩
  | caught flags returnAddress =>
      cases result with
      | ok v =>
          exact shaped_exec _ core hnested hwaiter
      | error e => exact ⟨hnested, hwaiter⟩
  | processor =>
      cases hwaiter with
      | switch r outer next rest =>
          refine ⟨hnested, r, outer, next, rest, rfl, ?_⟩
          intro hexit
          exfalso
          apply hexit
          cases result <;> trivial

theorem shaped_settle (core : Core H) (o : Outcome)
    (hnested : Nested w activations) (hloop : InLoop activations) :
    (settle core activations o).Shaped w := by
  cases o with
  | finish frame v =>
      exact shaped_exec _ core hnested hloop
  | _ => exact ⟨hnested, hloop⟩

theorem shaped_afterFailure (core : Core H) (e : RuntimeError)
    (hnested : Nested w activations) (hloop : InLoop activations) :
    (afterFailure core activations e).Shaped w := by
  cases e <;> exact ⟨hnested, hloop⟩

theorem shaped_catchError (core : Core H) (e : ScriptError)
    (hnested : Nested w activations) (hloop : InLoop activations) :
    (catchError core activations e).Shaped w := by
  rcases catchError_cases core activations e with
    ⟨frame, handler, n, -, hcaught⟩ | ⟨n, -, hcaught⟩
  all_goals rw [hcaught]; exact ⟨hnested, hloop⟩

end

section

variable [Host H] {w : World H} {activations : List (Activation H)}

theorem shaped_beginCall (core : Core H) (function : Value)
    (args : List Value) {waiter : Waiter H} (hnested : Nested w activations)
    (hwaiter : waiter.Fits activations) :
    (beginCall core activations function args waiter).Shaped w := by
  rcases beginCall_cases core activations function args waiter with hbegin | ⟨-, hbegin⟩
  all_goals rw [hbegin]
  · exact ⟨hnested, hwaiter⟩
  · exact shaped_exec _ _ (.call _ hwaiter hnested) (.call _ waiter activations)

theorem lawful_invoke [LawfulHost H] (core : Core H) (f : NativeRef)
    (args : Arguments) : (core.invoke f args).Lawful := by
  rcases core.invoke_cases f args with
    hinvoke | ⟨native, g, -, -, hinvoke⟩ | ⟨native, g, -, -, hinvoke⟩
  all_goals rw [hinvoke]
  · exact .fail _
  · exact LibraryFunction.lawful _ _ args
  · exact LawfulHost.lawful _ _ args

theorem shaped_afterOutcome [LawfulHost H] (core : Core H) (o : Outcome)
    (hnested : Nested w activations) (hloop : InLoop activations) :
    (afterOutcome core activations o).Shaped w := by
  cases o with
  | proceed => exact shaped_exec _ core hnested hloop
  | finish frame v => exact shaped_exec _ core hnested hloop
  | invoke f args => exact ⟨hnested, Or.inr hloop, lawful_invoke core f args⟩
  | recover e decorator? handler flags returnAddress =>
      cases decorator? with
      | none => exact ⟨hnested, hloop⟩
      | some decorator => exact ⟨hnested, hloop⟩
  | tailCall request flags returnAddress => exact shaped_exec _ core hnested hloop
  | yield v =>
      unfold afterOutcome
      cases Exec.checkYield core <;> exact ⟨hnested, hloop⟩
  | forceYield => exact ⟨hnested, hloop⟩
  | «return» v => exact ⟨hnested, hloop⟩

/-! ## Switches -/

theorem shaped_runCoroutine (world : World H) {r : CoroutineRef} {c : Coroutine}
    {outer : Processor}
    {next : Except RuntimeError Value → Action H NativeOutcome}
    (hc : w.coroutine? r = some c) (hstate : c.state.isSuspended = true)
    (proc : Processor) (args : List Value)
    (hnested : Nested w (.switch r outer next :: activations)) :
    (runCoroutine world (.switch r outer next :: activations) c proc
      args).Shaped w := by
  have hbody : c.kind = .script →
      Nested w (.body :: .switch r outer next :: activations) := by
    intro hkind
    refine .body ⟨c, hc, hkind, ?_⟩ hnested
    intro hmain
    rw [hmain] at hstate
    cases hstate
  have hroused := roused_runCoroutine world (.switch r outer next :: activations) c proc args
  generalize runCoroutine world _ c proc args = m at hroused ⊢
  cases hroused with
  | native hkind => exact ⟨hnested, .switch r outer next activations⟩
  | first hkind hstate => exact shaped_exec _ _ (hbody hkind) (.body _)
  | lost hkind hstate hyielded =>
      exact ⟨hnested, r, outer, next, activations, rfl,
        fun hexit => absurd trivial hexit⟩
  | yielded frame hkind hstate hyielded => exact ⟨hbody hkind, .body _⟩
  | forced hkind hfirst hyielded => exact ⟨hbody hkind, .body _⟩

theorem shaped_resume (core : Core H) (r : CoroutineRef) (args : List Value)
    {next : Except RuntimeError Value → Action H NativeOutcome}
    (hnested : Nested core.world activations) (hacts : ActsIn activations)
    (hnext : ∀ x, (next x).Lawful) :
    (resume core activations r args next).Shaped core.world := by
  rcases resume_cases core activations r args next with
    ⟨e, -, hresume⟩ | ⟨c, p, hc, -, hstate, -, hresume⟩
  all_goals rw [hresume]
  · exact ⟨hnested, hacts, hnext (.error e)⟩
  · exact shaped_runCoroutine _ hc hstate p args (.switch r core.proc hacts hnext hnested)

omit [Host H] in
theorem shaped_enterMain (core : Core H) (function : Value) (args : List Value)
    {next : Except RuntimeError Value → Action H NativeOutcome}
    (hnested : Nested core.world activations) (hacts : ActsIn activations)
    (hnext : ∀ x, (next x).Lawful) :
    (enterMain core activations function args next).Shaped core.world := by
  rcases enterMain_cases core activations function args next with
    henter | ⟨c, p, -, -, henter⟩
  all_goals rw [henter]
  · exact ⟨hnested, hacts, hnext _⟩
  · exact ⟨.switch _ core.proc hacts hnext hnested, .switch _ _ _ _⟩

theorem shaped_act (core : Core H) {a : Action H NativeOutcome}
    (hnested : Nested core.world activations) (hacts : ActsIn activations)
    (ha : a.Lawful) : (act core activations a).Shaped core.world := by
  cases ha with
  | done outcome =>
      cases activations with
      | nil => exact ⟨hnested, rfl⟩
      | cons top rest =>
          exact shaped_exec _ core hnested (hacts.resolve_left (List.cons_ne_nil _ _))
  | fail e =>
      cases activations with
      | nil => exact ⟨hnested, rfl⟩
      | cons top rest =>
          exact ⟨hnested, hacts.resolve_left (List.cons_ne_nil _ _)⟩
  | read h => exact ⟨hnested, hacts, h core.world⟩
  | write hchange h => exact ⟨hnested, hacts, h⟩
  | call function args h => exact ⟨hnested, hacts, h⟩
  | resume r args h => exact shaped_resume core r args hnested hacts h
  | enterMain function args h =>
      exact shaped_enterMain core function args hnested hacts h

theorem shaped_next [LawfulHost H] {m : Machine H} (h : m.Shaped m.core.world) :
    m.next.Shaped m.core.world := by
  obtain ⟨core, activations, control⟩ := m
  have hnested := h.nested
  have hcontrol := h.control
  cases control with
  | loop o => exact shaped_afterOutcome core o hnested hcontrol
  | failed e => exact shaped_afterFailure core e hnested hcontrol
  | unwinding e decorators =>
      cases decorators with
      | nil => exact shaped_catchError core e hnested hcontrol
      | cons d rest => exact ⟨hnested, hcontrol⟩
  | calling function args waiter =>
      exact shaped_beginCall core function args hnested hcontrol
  | leaving exit => exact shaped_leave core exit hnested hcontrol
  | answering waiter result => exact shaped_answer core result hnested hcontrol
  | switching exit =>
      obtain ⟨r, outer, next, rest, rfl, -⟩ := hcontrol
      cases hnested with
      | switch _ _ hacts hnext hrest =>
          exact ⟨hrest, hacts, hnext (exit.map LoopExit.value)⟩
  | running a => exact shaped_act core hnested hcontrol.1 hcontrol.2
  | settling o => exact shaped_settle core o hnested hcontrol
  | finished result => exact ⟨hnested, hcontrol⟩

end

/-! ## Steps -/

variable {m m' : Machine H}

theorem switches_append {loops : List (Activation H)}
    (hloops : ∀ a ∈ loops, a.coroutine? = none)
    (activations : List (Activation H)) :
    switches (loops ++ activations) = switches activations := by
  unfold switches
  rw [List.filterMap_append, List.filterMap_eq_nil_iff.mpr hloops]
  rfl

theorem WellNested.leaves (hm : m.WellNested) {exit : Except RuntimeError LoopExit}
    {r : CoroutineRef} {outer : Processor}
    {next : Except RuntimeError Value → Action H NativeOutcome}
    {rest : List (Activation H)} (hcontrol : m.control = .switching exit)
    (h : m.activations = .switch r outer next :: rest) :
    m.core.world.Leaves r exit := by
  refine ⟨?_, ?_⟩
  · rw [hm.inFlight, h]
    rfl
  · intro c hc hkind
    apply Classical.byContradiction
    intro hfinal
    have hfits := hm.control
    rw [hcontrol] at hfits
    obtain ⟨r', outer', next', rest', hactivations, hscript⟩ := hfits
    rw [h] at hactivations
    cases hactivations
    obtain ⟨c', hc', hkind', -⟩ := hscript hfinal
    rw [hc] at hc'
    cases hc'
    rw [hkind] at hkind'
    cases hkind'

theorem Turn.advances (h : Turn m m') (hm : m.WellNested) :
    m.core.world.Advances m'.core.world := by
  cases h with
  | stays hworld h => exact hworld.advances
  | enters hworld mark waiter h => exact hworld.advances
  | leaves hworld a ha h =>
      rw [hworld]
      exact (World.Extends.refl _).advances
  | engages r c hready p hp hproc next hworld loops hloops h hfrom =>
      rw [hworld]
      exact hm.scheduled.engage_advances hready
  | releases r next exit hexit hworld h hcontrol =>
      rw [hworld]
      exact hm.scheduled.release_advances (hm.leaves hexit h) m.core.proc

theorem Turn.scheduled (h : Turn m m') (hm : m.WellNested) :
    m'.core.world.Scheduled := by
  cases h with
  | stays hworld h => exact hm.scheduled.of_extends hworld
  | enters hworld mark waiter h => exact hm.scheduled.of_extends hworld
  | leaves hworld a ha h =>
      rw [hworld]
      exact hm.scheduled
  | engages r c hready p hp hproc next hworld loops hloops h hfrom =>
      rw [hworld]
      exact hm.scheduled.engage hready
  | releases r next exit hexit hworld h hcontrol =>
      rw [hworld]
      exact hm.scheduled.release (hm.leaves hexit h) m.core.proc

theorem Turn.inFlight (h : Turn m m') (hm : m.WellNested) :
    m'.core.world.inFlight = switches m'.activations := by
  cases h with
  | stays hworld h => rw [hworld.inFlight, hm.inFlight, h]
  | enters hworld mark waiter h =>
      rw [hworld.inFlight, hm.inFlight, h]
      rfl
  | leaves hworld a ha h =>
      have hloops : ∀ b ∈ [a], b.coroutine? = none := by simpa using ha
      rw [hworld, hm.inFlight, h]
      exact switches_append hloops _
  | engages r c hready p hp hproc next hworld loops hloops h hfrom =>
      rw [hworld, World.inFlight_engage, hm.inFlight, h, switches_append hloops]
      rfl
  | releases r next exit hexit hworld h hcontrol =>
      rw [hworld, World.inFlight_release, hm.inFlight, h]
      rfl

theorem WellNested.next [Host H] [LawfulHost H] (hm : m.WellNested) : m.next.WellNested := by
  have hturn := turn_next hm.control
  have hshaped : m.next.Shaped m.core.world :=
    shaped_next ⟨hm.nested, hm.control⟩
  have hshaped' := hshaped.of_advances (hturn.advances hm)
  exact ⟨hturn.scheduled hm, hturn.inFlight hm, hshaped'.nested,
    hshaped'.control⟩

theorem wellNested_start {w : World H} (hw : w.Scheduled) (hidle : w.inFlight = [])
    {a : Action H NativeOutcome} (ha : a.Lawful) : (start w a).WellNested :=
  ⟨hw, hidle, .nil, Or.inl rfl, ha⟩

end ScriptEngine.Machine
