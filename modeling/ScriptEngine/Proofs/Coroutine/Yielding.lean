import ScriptEngine.Proofs.Coroutine.History
import ScriptEngine.Proofs.Frame.YieldedFrames
import ScriptEngine.Proofs.Frame.Suspension

/-!
# A yield is a call that returns the values of the resume

A function that yields has its frame set aside until its coroutine is resumed.
Whoever resumes it, the machine is then where it would have come to from the
yielding function if that had returned the arguments of the resume.
-/

namespace ScriptEngine

variable {H : HostTypes}

/-- The processor of a coroutine whose topmost function has yielded. -/
def Processor.setAside (p : Processor) (frame : Frame) (rest : Stack Frame) : Processor :=
  { p with frames := rest, yielded? := some frame, nesting := 0 }

/-- The processor as it was, with the budget that it has by now; its instructions begin to
count anew. -/
def Processor.awoken (before now : Processor) : Processor :=
  { before with
    autoYield? := now.autoYield?
    executed := 0
    peakFrames := now.peakFrames }

theorem Processor.awoken_eq {before now : Processor} {frame : Frame} {rest : Stack Frame}
    (halike : (before.setAside frame rest).Alike now) (hnesting : before.nesting = 1)
    (hyielded : before.yielded? = none) :
    { now.enterOutermost with yielded? := none } =
      { before.awoken now with frames := rest } := by
  obtain ⟨hstack, hframes, hip, hchunk, -, hcan, -⟩ := halike
  cases before
  cases now
  cases hstack
  cases hframes
  cases hip
  cases hchunk
  cases hcan
  cases hnesting
  cases hyielded
  rfl

namespace Machine

/-- What a function in the outermost loop of the coroutine yields next. -/
def yields? (r : CoroutineRef) : Machine H → Option Value
  | ⟨_, .body :: .switch c _ _ :: _, .running (.done (.yield v))⟩ =>
      if c = r then some v else none
  | _ => none

/-- The function that runs returns these values. -/
def answered (m : Machine H) (args : List Value) : Machine H :=
  { m with control := .running (.done (.result (.tupled args))) }

variable {r : CoroutineRef} {v : Value} {m m₀ : Machine H}

theorem yields?_eq_some_iff :
    m.yields? r = some v ↔ m.control = .running (.done (.yield v)) ∧
      ∃ outer next rest, m.activations = .body :: .switch r outer next :: rest := by
  constructor
  · intro h
    unfold yields? at h
    split at h
    · next c outer next rest v' =>
        by_cases hcr : c = r
        · rw [if_pos hcr] at h
          cases h
          rw [← hcr]
          exact ⟨rfl, outer, next, rest, rfl⟩
        · rw [if_neg hcr] at h
          cases h
    · cases h
  · rintro ⟨hcontrol, outer, next, rest, hactivations⟩
    obtain ⟨core, activations, control⟩ := m
    obtain rfl : control = _ := hcontrol
    obtain rfl : activations = _ := hactivations
    exact if_pos rfl

/-- The coroutine is about to be suspended by a function that yields. -/
structure Yields (m : Machine H) (r : CoroutineRef) (v : Value) : Prop where
  yields : m.yields? r = some v
  canYield : m.core.proc.canYield = true

/-! ## The way out -/

/-- The processor on which a function of a coroutine runs in the outermost loop. -/
theorem Yields.processor (h : m.Yields r v) (hg : m.WellFramed) :
    m.core.proc.nesting = 1 ∧
      ∃ frame, ∃ rest : Stack Frame, m.core.proc.frames = rest.push frame := by
  obtain ⟨hcontrol, outer, next, activations, hactivations⟩ :=
    yields?_eq_some_iff.mp h.yields
  have hseated := hg.seated
  unfold Seated at hseated
  rw [hcontrol, hactivations] at hseated
  obtain ⟨hnesting, hfits, -⟩ := hseated
  refine ⟨hnesting, ?_⟩
  have hrooted : Rooted (entries m.core.proc.frames.items) := hfits
  rcases Exec.frames_cases m.core with hempty | hpush
  · rw [hempty] at hrooted
    exact hrooted.elim
  · exact hpush

theorem checkYield_of_outermost {core : Core H} (hcan : core.proc.canYield = true)
    (hnesting : core.proc.nesting = 1) : Exec.checkYield core = .ok () core := by
  have hyieldable : ¬(!core.proc.canYield) = true := by simp [hcan]
  have houtermost : ¬1 < core.proc.nesting := by omega
  unfold Exec.checkYield
  rw [Exec.run_bind_of_ok (Exec.askProc_run _ core)]
  dsimp only [id]
  rw [if_neg hyieldable, if_neg houtermost]
  rfl

variable [Host H]

/-- The frame of the function is set aside. -/
theorem next_yield {core : Core H} {loop : Activation H} {activations : List (Activation H)}
    {frame : Frame} {rest : Stack Frame} (hpush : core.proc.frames = rest.push frame) :
    next ⟨core, loop :: activations, .running (.done (.yield v))⟩ =
      ⟨{ core with proc := { core.proc with frames := rest, yielded? := some frame } },
        loop :: activations, .loop (.yield v)⟩ := by
  change exec .loop (Exec.completeNative (.yield v)) core _ = _
  unfold exec Exec.completeNative
  rw [Exec.run_bind_of_ok (Exec.popFrame?_run_push hpush)]
  rfl

/-- The loop is left by a yield that the processor lets pass. -/
theorem next_of_checked {core : Core H} {activations : List (Activation H)}
    (h : Exec.checkYield core = .ok () core) :
    next ⟨core, activations, .loop (.yield v)⟩ =
      ⟨core, activations, .leaving (.ok (.yielded v))⟩ := by
  change afterOutcome core activations (.yield v) = _
  unfold afterOutcome
  rw [h]

theorem Yields.next (h : m.Yields r v) {frame : Frame} {rest : Stack Frame}
    (hpush : m.core.proc.frames = rest.push frame) :
    m.next = ⟨{ m.core with
      proc := { m.core.proc with frames := rest, yielded? := some frame } },
      m.activations, .loop (.yield v)⟩ := by
  obtain ⟨hcontrol, outer, next, activations, hactivations⟩ :=
    yields?_eq_some_iff.mp h.yields
  obtain ⟨core, loops, control⟩ := m
  obtain rfl : control = _ := hcontrol
  obtain rfl : loops = _ := hactivations
  exact next_yield hpush

theorem Yields.after_two (h : m.Yields r v) (hg : m.WellFramed) {frame : Frame}
    {rest : Stack Frame} (hpush : m.core.proc.frames = rest.push frame) :
    m.after 2 = ⟨{ m.core with
      proc := { m.core.proc with frames := rest, yielded? := some frame } },
      m.activations, .leaving (.ok (.yielded v))⟩ := by
  let aside : Core H := { m.core with
    proc := { m.core.proc with frames := rest, yielded? := some frame } }
  have hcheck : Exec.checkYield aside = .ok () aside :=
    checkYield_of_outermost h.canYield (h.processor hg).1
  change m.next.next = _
  rw [h.next hpush]
  exact next_of_checked hcheck

/-- The loop of the coroutine is left. -/
theorem Yields.after_three (h : m.Yields r v) (hg : m.WellFramed) {frame : Frame}
    {rest : Stack Frame} (hpush : m.core.proc.frames = rest.push frame) {outer : Processor}
    {next : Except RuntimeError Value → Action H NativeOutcome}
    {activations : List (Activation H)}
    (hactivations : m.activations = .body :: .switch r outer next :: activations) :
    m.after 3 = ⟨⟨m.core.world, m.core.proc.setAside frame rest⟩,
      .switch r outer next :: activations, .switching (.ok (.yielded v))⟩ := by
  change (m.after 2).next = _
  rw [h.after_two hg hpush, hactivations]
  rfl

/-- Whoever resumed the coroutine goes on. -/
theorem Yields.after_four (h : m.Yields r v) (hg : m.WellFramed) {frame : Frame}
    {rest : Stack Frame} (hpush : m.core.proc.frames = rest.push frame) {outer : Processor}
    {next : Except RuntimeError Value → Action H NativeOutcome}
    {activations : List (Activation H)}
    (hactivations : m.activations = .body :: .switch r outer next :: activations) :
    m.after 4 = ⟨⟨m.core.world.release r (m.core.proc.setAside frame rest)
      (.ok (.yielded v)), outer⟩, activations, .running (next (.ok v))⟩ := by
  change (m.after 3).next = _
  rw [h.after_three hg hpush hactivations]
  rfl

/-! ## The way back -/

/-- The next step is an accepted resume of the coroutine. -/
def Resumes (m : Machine H) (r : CoroutineRef) (args : List Value)
    (next : Except RuntimeError Value → Action H NativeOutcome) : Prop :=
  m.control = .running (.resume r args next) ∧ m.core.world.resumeRefusal? r args = none

/-- What the machine comes to after the coroutine that yields in `m₀` has been suspended
and before it is resumed. -/
def Sleeps (r : CoroutineRef) (m₀ m : Machine H) : Prop :=
  Until (fun m => ∃ args next, m.Resumes r args next) (m₀.after 4) m

/-- The function that yields in `m₀`, in the world and under the resumer of `m`. -/
def awoken (m₀ m : Machine H) (r : CoroutineRef) (p : Processor)
    (next : Except RuntimeError Value → Action H NativeOutcome) : Machine H :=
  ⟨⟨m.core.world.engage r, m₀.core.proc.awoken p⟩,
    .body :: .switch r m.core.proc next :: m.activations, m₀.control⟩

theorem Sleeps.leads (h : Sleeps r m₀ m) : m₀.Leads m := by
  have hsuspends := leads_after m₀ 4
  exact hsuspends.trans (Until.leads h)

/-- The coroutine rests with the frame of the function that has yielded. -/
structure Asleep (m₀ : Machine H) (r : CoroutineRef) (w : World H) (p : Processor) : Prop where
  found : ∃ c, w.coroutine? r = some c ∧ c.state = .suspended ∧ c.processor? = some p
  alike : ∃ frame, ∃ rest : Stack Frame, m₀.core.proc.frames = rest.push frame ∧
    (m₀.core.proc.setAside frame rest).Alike p

omit [Host H] in
theorem Asleep.of_alike {w w' : World H} {p : Processor} (h : m₀.Asleep r w p) {c : Coroutine}
    {p' : Processor} (hc : w'.coroutine? r = some c) (hstate : c.state = .suspended)
    (hp : c.processor? = some p') (halike : p.Alike p') : m₀.Asleep r w' p' := by
  obtain ⟨frame, rest, hpush, hbefore⟩ := h.alike
  exact ⟨⟨c, hc, hstate, hp⟩, frame, rest, hpush, hbefore.trans halike⟩

variable [LawfulHost H]

/-- The coroutine rests after it has yielded. -/
theorem Yields.asleep (h : m.Yields r v) (hm : m.Reachable) :
    ∃ p, m.Asleep r (m.after 4).core.world p := by
  obtain ⟨-, frame, rest, hpush⟩ := h.processor hm.wellFramed
  obtain ⟨-, outer, next, activations, hactivations⟩ := yields?_eq_some_iff.mp h.yields
  have hthree := h.after_three hm.wellFramed hpush hactivations
  have hloop : (m.after 3).activations = .switch r outer next :: activations := by
    rw [hthree]
  have hcontrol : (m.after 3).control = .switching (.ok (.yielded v)) := by rw [hthree]
  obtain ⟨c, hc, hp, hstate⟩ := rests_of_departing (hm.after 3).wellNested hloop hcontrol id
  rw [hthree] at hp
  exact ⟨_, ⟨c, hc, hstate, hp⟩, frame, rest, hpush, .refl _⟩

theorem Sleeps.asleep (hyields : m₀.Yields r v) (hm : m₀.Reachable) (h : Sleeps r m₀ m) :
    ∃ p, m₀.Asleep r m.core.world p := by
  unfold Sleeps at h
  induction h with
  | start => exact hyields.asleep hm
  | @next m h hrests ih =>
      have hreach := (Sleeps.leads h).reachable hm
      obtain ⟨p, hasleep⟩ := ih
      obtain ⟨c, hc, hstate, hp⟩ := hasleep.found
      rcases rests_or_resumed hreach.wellNested hc hp (by rw [hstate]; exact nofun) with
        ⟨c', p', hc', hp', halike, hsame⟩ | ⟨args, next, hcontrol, hrefusal, -⟩
      · exact ⟨p', hasleep.of_alike hc' (hsame.trans hstate) hp' halike⟩
      · exact absurd ⟨args, next, hcontrol, hrefusal⟩ hrests
  | @again m h hrests result hfinished w hw a ha ih =>
      obtain ⟨p, hasleep⟩ := ih
      obtain ⟨c, hc, hstate, hp⟩ := hasleep.found
      obtain ⟨c', p', hc', hp', halike, hsame⟩ := hw.rests hc hp
      exact ⟨p', hasleep.of_alike hc' (hsame.trans hstate) hp' halike⟩

/-- The resume comes to what the function would have come to. -/
theorem Asleep.resumed (hyields : m₀.Yields r v) (hm : m₀.Reachable) (hwellNested : m.WellNested)
    {p : Processor} (h : m₀.Asleep r m.core.world p) {args : List Value}
    {next : Except RuntimeError Value → Action H NativeOutcome} (hresumes : m.Resumes r args next) :
    m.after 2 = ((m₀.awoken m r p next).answered args).next := by
  obtain ⟨c, hc, hstate, hp⟩ := h.found
  obtain ⟨frame, rest, hpush, halike⟩ := h.alike
  have hnesting := (hyields.processor hm.wellFramed).1
  have hyielded : m₀.core.proc.yielded? = none := by
    have hfits := hm.yieldedFits.yieldedFitsInFlight.control
    rw [(yields?_eq_some_iff.mp hyields.yields).1] at hfits
    exact hfits
  have hkind := kind_of_suspended hwellNested hc (Or.inl hstate)
  have hframe : p.yielded? = some frame := halike.yielded
  obtain ⟨hcontrol, hrefusal⟩ := hresumes
  let loops : List (Activation H) := .body :: .switch r m.core.proc next :: m.activations
  let before : Core H := ⟨m.core.world.engage r, m₀.core.proc.awoken p⟩
  let core : Core H := { before with proc := { before.proc with frames := rest } }
  have hnext : m.next = ⟨core, loops, .loop (.finish frame (.tupled args))⟩ := by
    have hproc := Processor.awoken_eq halike hnesting hyielded
    obtain ⟨mcore, activations, control⟩ := m
    obtain rfl : control = _ := hcontrol
    change resume mcore activations r args next = _
    rw [resume_of_accepted mcore hrefusal hc hp, runCoroutine_of_yielded hkind hstate hframe]
    dsimp only
    rw [hproc]
  have hcomplete : Exec.completeNative (.result (.tupled args)) before =
      Exec.finish frame (.tupled args) core := by
    unfold Exec.completeNative
    have hbefore : before.proc.frames = rest.push frame := hpush
    rw [Exec.run_bind_of_ok (Exec.popFrame?_run_push hbefore)]
  change Machine.next (Machine.next m) = exec .loop (Exec.completeNative _) before loops
  rw [hnext]
  exact (exec_congr hcomplete loops).symm

end Machine

end ScriptEngine
