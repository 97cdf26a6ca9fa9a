import ScriptEngine.Proofs.Frame.Protection

/-!
# Protected calls and coroutines

A coroutine may be suspended in the middle of a protected call and resumed
later, by whomever.  The guard rests with its processor.
-/

namespace ScriptEngine

variable {H : HostTypes}

theorem Guard.SetAside.of_same {g : Guard} {p p' : Processor}
    (h : g.SetAside p) (hframes : p'.frames = p.frames)
    (hstack : p'.stack = p.stack) (hyielded : p'.yielded? = p.yielded?) :
    g.SetAside p' := by
  obtain ⟨f, hf, hsome, hover⟩ := h
  exact ⟨f, hf, hyielded.trans hsome, hover.of_same hframes hstack⟩

theorem Guard.Parked.of_alike {g : Guard} {p p' : Processor}
    {s : CoroutineState} (h : g.Parked p s) (halike : p.Alike p') :
    g.Parked p' s := by
  cases h with
  | suspended h => exact .suspended (h.of_same halike.frames halike.stack)
  | forced h => exact .forced (h.of_same halike.frames halike.stack)
  | aside h =>
      exact .aside (h.of_same halike.frames halike.stack halike.yielded)

theorem Guard.Parked.suspended_or {g : Guard} {p : Processor} {state : CoroutineState}
    (h : g.Parked p state) : state = .suspended ∨ state = .forceSuspended := by
  cases h with
  | suspended h => exact Or.inl rfl
  | forced h => exact Or.inr rfl
  | aside h => exact Or.inl rfl

namespace Machine

variable {g : Guard} {loop : Loop H} {m m' : Machine H}

/-- A coroutine is back with the frame that waits for it, or still at rest. -/
theorem lasts_resumed [Host H] {r : CoroutineRef} {c : Coroutine} {p : Processor}
    {world : World H} {outer : Processor} {activations : List (Activation H)}
    {next : Except RuntimeError Value → Action H NativeOutcome}
    (args : List Value) (hloop : loop = .body r) (hkind : c.kind = .script)
    (hparked : g.Parked p c.state) (hrests : c.state.Rests p) :
    Lasts g loop
      (runCoroutine world (.switch r outer next :: activations) c p args) := by
  have hat : loop.At (.body :: .switch r outer next :: activations) := by
    rw [hloop]
    exact .body r outer next activations
  have hspans : g.Spans ([] : List (Activation H)) := by
    intro a ha
    cases ha
  generalize hstate : c.state = state at hparked hrests
  cases hparked with
  | suspended h =>
      obtain ⟨f, hyielded, -⟩ := hrests
      rw [runCoroutine_of_yielded hkind hstate hyielded]
      exact Or.inl
        (.active (.executing [] _ hspans hat rfl (h.of_same rfl rfl) (by simp)))
  | forced h =>
      rw [runCoroutine_of_forced hkind hstate]
      exact Or.inl
        (.active (.executing [] _ hspans hat rfl (h.of_same rfl rfl) (by simp)))
  | aside h =>
      obtain ⟨f, hf, hyielded, hover⟩ := h
      rw [runCoroutine_of_yielded hkind hstate hyielded]
      exact Or.inr (.returned _ _ (.finish f hf) hat (Or.inl rfl)
        (hover.of_same rfl rfl))

theorem persists_over [Host H] (g : Guard) (loop : Loop H) :
    (g.invariant loop).Persists (Ends g loop) where
  ne_nil := by
    rintro m (⟨calls, activations, hcalls, hloop, h, -, -⟩ | ⟨activations, v, hloop, h, -, -⟩)
      hnil
    · have hin := inLoop_of_spans hcalls hloop
      rw [← h, hnil] at hin
      exact not_inLoop_nil hin
    · have hin := hloop.inLoop
      rw [← h, hnil] at hin
      exact not_inLoop_nil hin
  back := by
    rintro above p ⟨calls, activations, rfl, hcalls, hloop, hholds⟩ w a
    exact .executing calls activations hcalls hloop rfl hholds (by simp)
  of_alike := fun hparked halike => hparked.of_alike halike
  suspended := fun hparked => hparked.suspended_or
  resumed := fun _ args hloop hkind hparked hrests =>
    lasts_resumed args hloop hkind hparked hrests

theorem lasts_yielding_next [Host H] {activations : List (Activation H)}
    {v : Value} (hloop : loop.At activations) (h : m.activations = activations)
    (hcontrol : m.control = .loop (.yield v) ∨
      m.control = .leaving (.ok (.yielded v)))
    (haside : g.SetAside m.core.proc) (hends : ¬Ends g loop m) :
    Lasts g loop m.next := by
  obtain ⟨core, activations', control⟩ := m
  dsimp only at h
  subst h
  rcases hcontrol with rfl | rfl
  · change Lasts g loop (afterOutcome core activations' (.yield v))
    unfold afterOutcome
    rcases checkYield_cases core with hrun | ⟨violation, hrun⟩
    · rw [hrun]
      exact Or.inl (.active (.yielding activations' v hloop rfl (Or.inr rfl) haside))
    · rw [hrun]
      exact Or.inr (.stopped _ (by simp) hloop rfl)
  · cases hloop with
    | nested mark waiter rest =>
        exact absurd (.refused _ mark waiter rest (by simp) rfl rfl rfl) hends
    | body r outer next rest =>
        exact Or.inl (.departing r outer next rest (.yielded v) rfl rfl rfl
          (.aside (haside.of_same rfl rfl rfl)))

theorem lasts_active_next [Host H] (hm : m.WellNested) (hg : m.WellFramed)
    (hcontained : m.SelfContained) (hfloor : loop.floor ≤ g.below.length)
    (h : g.Active loop m) (hends : ¬Ends g loop m) : Lasts g loop m.next := by
  cases h with
  | executing calls activations hcalls hloop h hholds hstays =>
      exact lasts_executing_next hm hg hcontained hfloor hcalls hloop h hholds
        hstays hends
  | yielding activations v hloop h hcontrol haside =>
      exact lasts_yielding_next hloop h hcontrol haside hends

end Machine

end ScriptEngine
