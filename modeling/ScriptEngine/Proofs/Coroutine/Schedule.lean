import ScriptEngine.Machine.Run
import ScriptEngine.Proofs.Coroutine.Lawful
import ScriptEngine.Proofs.World.Installation

/-!
# The states of coroutines and the coroutines in flight

`World.Scheduled` ties the states of all coroutines to the stack of those in
flight.  Three things happen to a world: it is extended, a coroutine is engaged
and the innermost coroutine is released.  Each keeps the tie, and each moves
every coroutine along its state machine or leaves it where it is.
-/

namespace ScriptEngine

variable {H : HostTypes}

/-- The moves of a coroutine. -/
inductive CoroutineState.Moves : CoroutineState → CoroutineState → Prop where
  | stays (s : CoroutineState) : Moves s s
  | engages {s : CoroutineState} (h : s.isSuspended = true) : Moves s .running
  | suspends : Moves .running .suspended
  | forceSuspends : Moves .running .forceSuspended
  | dies : Moves .running .dead

/-- A suspended coroutine has not started, has yielded or was made to wait. -/
theorem CoroutineState.eq_forceSuspended {s : CoroutineState} (h : s.isSuspended = true)
    (hstarted : s ≠ .notStarted) (hyielded : s ≠ .suspended) : s = .forceSuspended := by
  cases s <;> simp_all [CoroutineState.isSuspended]

theorem CoroutineState.moves_after (exit : Except RuntimeError LoopExit) :
    CoroutineState.Moves .running (CoroutineState.after .running exit) := by
  cases exit with
  | error e => exact .dies
  | ok exit =>
      cases exit with
      | returned v => exact .dies
      | yielded v => exact .suspends
      | forceYielded => exact .forceSuspends

theorem CoroutineState.after_ne_running (exit : Except RuntimeError LoopExit) :
    CoroutineState.after .running exit ≠ .running := by
  rcases exit with e | exit
  · simp [CoroutineState.after]
  · cases exit <;> simp [CoroutineState.after]

theorem CoroutineState.after_ne_main (exit : Except RuntimeError LoopExit) :
    CoroutineState.after .running exit ≠ .main := by
  rcases exit with e | exit
  · simp [CoroutineState.after]
  · cases exit <;> simp [CoroutineState.after]

/-- The loop has ended for good. -/
def LoopExit.IsFinal : Except RuntimeError LoopExit → Prop
  | .ok (.returned _) => True
  | .ok _ => False
  | .error _ => True

theorem CoroutineState.after_of_isFinal {exit : Except RuntimeError LoopExit}
    (h : LoopExit.IsFinal exit) : CoroutineState.after .running exit = .dead := by
  rcases exit with e | exit
  · rfl
  · cases exit with
    | returned v => rfl
    | yielded v => cases h
    | forceYielded => cases h

namespace World

structure Scheduled (w : World H) : Prop where
  distinct : w.inFlight.Nodup
  present : ∀ r ∈ w.inFlight, ∃ c, w.coroutine? r = some c
  main : ∃ c, w.coroutine? w.main = some c ∧ c.state = .main
  mainOnly : ∀ r c, w.coroutine? r = some c → c.state = .main → r = w.main
  running : ∀ r c, w.coroutine? r = some c → r ≠ w.main →
    (c.state = .running ↔ r ∈ w.inFlight)
  working : ∀ r c, w.coroutine? r = some c →
    (c.processor? = none ↔ r ∈ w.inFlight)
  native : ∀ r c, w.coroutine? r = some c → c.kind = .native →
    c.state = .notStarted ∨ c.state = .running ∨ c.state = .dead

/-- Every coroutine is still there and has moved at most once; new ones have
not started. -/
structure Advances (w w' : World H) : Prop where
  moves : ∀ r c, w.coroutine? r = some c →
    ∃ c', w'.coroutine? r = some c' ∧ c.state.Moves c'.state ∧
      c'.kind = c.kind
  fresh : ∀ r c, w'.coroutine? r = some c → w.coroutine? r = none →
    c.state = .notStarted

/-! ## Extending the world -/

theorem Extends.coroutine_inv {w w' : World H} (h : w.Extends w')
    {r : CoroutineRef} {c' : Coroutine} (hc : w'.coroutine? r = some c') :
    (∃ c, w.coroutine? r = some c ∧ c.Alike c') ∨
      w.coroutine? r = none ∧ c'.Fresh := by
  cases hold : w.coroutine? r with
  | none => exact Or.inr ⟨rfl, h.fresh hc hold⟩
  | some c =>
      obtain ⟨c'', hc'', halike⟩ := h.coroutine? hold
      rw [hc] at hc''
      cases hc''
      exact Or.inl ⟨c, rfl, halike⟩

theorem Extends.advances {w w' : World H} (h : w.Extends w') :
    w.Advances w' := by
  refine ⟨?_, ?_⟩
  · intro r c hc
    obtain ⟨c', hc', halike⟩ := h.coroutine? hc
    refine ⟨c', hc', ?_, halike.kind⟩
    rw [halike.state]
    exact .stays c.state
  · intro r c hc hnone
    exact (h.fresh hc hnone).state

theorem Scheduled.not_mem_of_none {w : World H} (hw : w.Scheduled) {r : CoroutineRef}
    (h : w.coroutine? r = none) : r ∉ w.inFlight := by
  intro hr
  obtain ⟨c, hc⟩ := hw.present r hr
  rw [h] at hc
  cases hc

theorem Scheduled.of_extends {w w' : World H} (hw : w.Scheduled)
    (h : w.Extends w') : w'.Scheduled := by
  refine ⟨?_, ?_, ?_, ?_, ?_, ?_, ?_⟩
  · rw [h.inFlight]
    exact hw.distinct
  · intro r hr
    rw [h.inFlight] at hr
    obtain ⟨c, hc⟩ := hw.present r hr
    obtain ⟨c', hc', -⟩ := h.coroutine? hc
    exact ⟨c', hc'⟩
  · obtain ⟨c, hc, hstate⟩ := hw.main
    obtain ⟨c', hc', halike⟩ := h.coroutine? hc
    rw [h.main]
    exact ⟨c', hc', halike.state.trans hstate⟩
  · intro r c' hc' hstate
    rw [h.main]
    rcases h.coroutine_inv hc' with ⟨c, hc, halike⟩ | ⟨hnone, hfresh⟩
    · exact hw.mainOnly r c hc (halike.state.symm.trans hstate)
    · rw [hfresh.state] at hstate
      cases hstate
  · intro r c' hc' hmain
    rw [h.main] at hmain
    rw [h.inFlight]
    rcases h.coroutine_inv hc' with ⟨c, hc, halike⟩ | ⟨hnone, hfresh⟩
    · rw [halike.state]
      exact hw.running r c hc hmain
    · rw [hfresh.state]
      exact iff_of_false nofun (hw.not_mem_of_none hnone)
  · intro r c' hc'
    rw [h.inFlight]
    rcases h.coroutine_inv hc' with ⟨c, hc, halike⟩ | ⟨hnone, hfresh⟩
    · rw [halike.isNone]
      exact hw.working r c hc
    · obtain ⟨p, hp, -⟩ := hfresh.processor
      rw [hp]
      exact iff_of_false nofun (hw.not_mem_of_none hnone)
  · intro r c' hc' hkind
    rcases h.coroutine_inv hc' with ⟨c, hc, halike⟩ | ⟨hnone, hfresh⟩
    · rw [halike.state]
      exact hw.native r c hc (halike.kind.symm.trans hkind)
    · exact Or.inl hfresh.state

/-! ## Engaging and releasing -/

theorem coroutine?_modifyCoroutine (w : World H) (r s : CoroutineRef)
    (f : Coroutine → Coroutine) :
    (w.modifyCoroutine r f).coroutine? s =
      if r = s then (w.coroutine? s).map f else w.coroutine? s := by
  unfold modifyCoroutine World.coroutine?
  rw [object?_modifyObject]
  by_cases hrs : r = s
  · rw [if_pos hrs, if_pos (congrArg CoroutineRef.id hrs)]
    cases w.object? s.id with
    | none => rfl
    | some o => cases o <;> rfl
  · have hid : r.id ≠ s.id := by
      intro hid
      apply hrs
      cases r
      cases s
      cases hid
      rfl
    rw [if_neg hrs, if_neg hid]

theorem coroutine?_engage_self {w : World H} {r : CoroutineRef} {c : Coroutine}
    (h : w.coroutine? r = some c) :
    (w.engage r).coroutine? r =
      some { c with state := c.state.engaged, processor? := none } := by
  change (w.modifyCoroutine r _).coroutine? r = _
  rw [coroutine?_modifyCoroutine, if_pos rfl, h]
  rfl

theorem coroutine?_engage_of_ne (w : World H) {r s : CoroutineRef} (h : r ≠ s) :
    (w.engage r).coroutine? s = w.coroutine? s := by
  change (w.modifyCoroutine r _).coroutine? s = _
  rw [coroutine?_modifyCoroutine, if_neg h]

theorem coroutine?_release_self {w : World H} {r : CoroutineRef} {c : Coroutine}
    (h : w.coroutine? r = some c) (p : Processor)
    (exit : Except RuntimeError LoopExit) :
    (w.release r p exit).coroutine? r =
      some { c with state := c.state.after exit, processor? := some p } := by
  change (w.modifyCoroutine r _).coroutine? r = _
  rw [coroutine?_modifyCoroutine, if_pos rfl, h]
  rfl

theorem coroutine?_release_of_ne (w : World H) {r s : CoroutineRef}
    (p : Processor) (exit : Except RuntimeError LoopExit) (h : r ≠ s) :
    (w.release r p exit).coroutine? s = w.coroutine? s := by
  change (w.modifyCoroutine r _).coroutine? s = _
  rw [coroutine?_modifyCoroutine, if_neg h]

@[simp] theorem main_engage (w : World H) (r : CoroutineRef) :
    (w.engage r).main = w.main := by
  unfold engage modifyCoroutine modifyObject
  cases r.id <;> rfl

@[simp] theorem inFlight_engage (w : World H) (r : CoroutineRef) :
    (w.engage r).inFlight = r :: w.inFlight := by
  unfold engage modifyCoroutine modifyObject
  cases r.id <;> rfl

@[simp] theorem settings_engage (w : World H) (r : CoroutineRef) :
    (w.engage r).settings = w.settings := by
  unfold engage modifyCoroutine modifyObject
  cases r.id <;> rfl

@[simp] theorem main_release (w : World H) (r : CoroutineRef) (p : Processor)
    (exit : Except RuntimeError LoopExit) :
    (w.release r p exit).main = w.main := by
  unfold release modifyCoroutine modifyObject
  cases r.id <;> rfl

@[simp] theorem inFlight_release (w : World H) (r : CoroutineRef) (p : Processor)
    (exit : Except RuntimeError LoopExit) :
    (w.release r p exit).inFlight = w.inFlight.tail := by
  unfold release modifyCoroutine modifyObject
  cases r.id <;> rfl

/-! ## One coroutine moves -/

/-- Of all coroutines only `r` has changed, from `c` to `c'`. -/
structure Moved (w : World H) (r : CoroutineRef) (c c' : Coroutine) (w' : World H) :
    Prop where
  found : w.coroutine? r = some c
  self : w'.coroutine? r = some c'
  others : ∀ s, r ≠ s → w'.coroutine? s = w.coroutine? s
  main : w'.main = w.main
  kind : c'.kind = c.kind

theorem moved_engage {w : World H} {r : CoroutineRef} {c : Coroutine}
    (h : w.coroutine? r = some c) :
    w.Moved r c { c with state := c.state.engaged, processor? := none } (w.engage r) where
  found := h
  self := coroutine?_engage_self h
  others := fun _ => coroutine?_engage_of_ne w
  main := main_engage w r
  kind := rfl

theorem moved_release {w : World H} {r : CoroutineRef} {c : Coroutine}
    (h : w.coroutine? r = some c) (p : Processor) (exit : Except RuntimeError LoopExit) :
    w.Moved r c { c with state := c.state.after exit, processor? := some p }
      (w.release r p exit) where
  found := h
  self := coroutine?_release_self h p exit
  others := fun _ => coroutine?_release_of_ne w p exit
  main := main_release w r p exit
  kind := rfl

namespace Moved

variable {w w' : World H} {r : CoroutineRef} {c c' : Coroutine}

theorem cases (h : w.Moved r c c' w') {s : CoroutineRef} {d : Coroutine}
    (hd : w'.coroutine? s = some d) :
    s = r ∧ d = c' ∨ r ≠ s ∧ w.coroutine? s = some d := by
  by_cases hrs : r = s
  · rw [← hrs, h.self] at hd
    cases hd
    exact Or.inl ⟨hrs.symm, rfl⟩
  · rw [h.others s hrs] at hd
    exact Or.inr ⟨hrs, hd⟩

theorem advances (h : w.Moved r c c' w') (hmoves : c.state.Moves c'.state) :
    w.Advances w' where
  moves := by
    intro s d hd
    by_cases hrs : r = s
    · subst hrs
      rw [h.found] at hd
      cases hd
      exact ⟨c', h.self, hmoves, h.kind⟩
    · rw [h.others s hrs]
      exact ⟨d, hd, .stays d.state, rfl⟩
  fresh := by
    intro s d hd hnone
    rcases h.cases hd with ⟨rfl, -⟩ | ⟨-, hd⟩
    · rw [h.found] at hnone
      cases hnone
    · rw [hnone] at hd
      cases hd

/-- The schedule stands when it stands for the one that has moved. -/
theorem scheduled (h : w.Moved r c c' w') (hw : w.Scheduled)
    (hdistinct : w'.inFlight.Nodup)
    (hothers : ∀ s, r ≠ s → (s ∈ w'.inFlight ↔ s ∈ w.inFlight))
    (hmain : c'.state = .main ↔ r = w.main)
    (hrunning : r ≠ w.main → (c'.state = .running ↔ r ∈ w'.inFlight))
    (hworking : c'.processor? = none ↔ r ∈ w'.inFlight)
    (hnative : c.kind = .native →
      c'.state = .notStarted ∨ c'.state = .running ∨ c'.state = .dead) :
    w'.Scheduled where
  distinct := hdistinct
  present := by
    intro s hs
    by_cases hrs : r = s
    · rw [← hrs]
      exact ⟨c', h.self⟩
    · rw [h.others s hrs]
      exact hw.present s ((hothers s hrs).mp hs)
  main := by
    rw [h.main]
    by_cases hr : r = w.main
    · rw [← hr]
      exact ⟨c', h.self, hmain.mpr hr⟩
    · rw [h.others w.main hr]
      exact hw.main
  mainOnly := by
    intro s d hd hstate
    rw [h.main]
    rcases h.cases hd with ⟨rfl, rfl⟩ | ⟨-, hd⟩
    · exact hmain.mp hstate
    · exact hw.mainOnly s d hd hstate
  running := by
    intro s d hd hs
    rw [h.main] at hs
    rcases h.cases hd with ⟨rfl, rfl⟩ | ⟨hrs, hd⟩
    · exact hrunning hs
    · rw [hothers s hrs]
      exact hw.running s d hd hs
  working := by
    intro s d hd
    rcases h.cases hd with ⟨rfl, rfl⟩ | ⟨hrs, hd⟩
    · exact hworking
    · rw [hothers s hrs]
      exact hw.working s d hd
  native := by
    intro s d hd hkind
    rcases h.cases hd with ⟨rfl, rfl⟩ | ⟨-, hd⟩
    · exact hnative (h.kind.symm.trans hkind)
    · exact hw.native s d hd hkind

end Moved

theorem Scheduled.state_main {w : World H} (hw : w.Scheduled) {c : Coroutine}
    (hc : w.coroutine? w.main = some c) : c.state = .main := by
  obtain ⟨c', hc', hstate⟩ := hw.main
  rw [hc] at hc'
  cases hc'
  exact hstate

/-- The main coroutine is run by the host, through no function of its own. -/
theorem Scheduled.ne_main_of_native {w : World H} (hw : w.Scheduled) {r : CoroutineRef}
    {c : Coroutine} (hc : w.coroutine? r = some c) (hkind : c.kind = .native) :
    r ≠ w.main := by
  rintro rfl
  have hnative := hw.native _ c hc hkind
  rw [hw.state_main hc] at hnative
  simp at hnative

theorem Scheduled.ne_main_of_isSuspended {w : World H} (hw : w.Scheduled) {r : CoroutineRef}
    {c : Coroutine} (hc : w.coroutine? r = some c) (h : c.state.isSuspended = true) :
    r ≠ w.main := by
  rintro rfl
  rw [hw.state_main hc] at h
  cases h

/-- A host function runs to its end once it has begun. -/
theorem Scheduled.notStarted_of_native {w : World H} (hw : w.Scheduled) {r : CoroutineRef}
    {c : Coroutine} (hc : w.coroutine? r = some c) (hkind : c.kind = .native)
    (h : c.state.isSuspended = true) : c.state = .notStarted := by
  rcases hw.native r c hc hkind with hstate | hstate | hstate
  · exact hstate
  · rw [hstate] at h
    cases h
  · rw [hstate] at h
    cases h

/-! ## Engaging -/

/-- The coroutine is at rest and may be engaged. -/
structure Ready (w : World H) (r : CoroutineRef) (c : Coroutine) : Prop where
  found : w.coroutine? r = some c
  resting : c.processor? ≠ none
  state : r ≠ w.main → c.state.isSuspended = true

theorem Ready.engaged {w : World H} {r : CoroutineRef} {c : Coroutine}
    (h : w.Ready r c) (hmain : r ≠ w.main) : c.state.engaged = .running := by
  have hstate := h.state hmain
  cases hc : c.state <;> rw [hc] at hstate <;> first | rfl | cases hstate

theorem Ready.not_mem {w : World H} (hw : w.Scheduled) {r : CoroutineRef}
    {c : Coroutine} (h : w.Ready r c) : r ∉ w.inFlight := by
  intro hr
  exact h.resting ((hw.working r c h.found).mpr hr)

theorem Scheduled.engage {w : World H} (hw : w.Scheduled) {r : CoroutineRef}
    {c : Coroutine} (h : w.Ready r c) : (w.engage r).Scheduled := by
  have hr : r ∈ (w.engage r).inFlight := by
    rw [inFlight_engage]
    exact List.mem_cons_self
  refine (moved_engage h.found).scheduled hw ?distinct ?others ?main ?running
    (iff_of_true rfl hr) ?native
  case distinct =>
    rw [inFlight_engage]
    exact List.nodup_cons.mpr ⟨h.not_mem hw, hw.distinct⟩
  case others =>
    intro s hrs
    rw [inFlight_engage, List.mem_cons]
    exact ⟨fun hs => hs.resolve_left fun hsame => hrs hsame.symm, Or.inr⟩
  case main =>
    change c.state.engaged = .main ↔ r = w.main
    by_cases hmain : r = w.main
    · subst hmain
      rw [hw.state_main h.found]
      exact iff_of_true rfl rfl
    · rw [h.engaged hmain]
      exact iff_of_false nofun hmain
  case running =>
    intro hmain
    exact iff_of_true (h.engaged hmain) hr
  case native =>
    intro hkind
    exact Or.inr (Or.inl (h.engaged (hw.ne_main_of_native h.found hkind)))

theorem Scheduled.engage_advances {w : World H} (hw : w.Scheduled)
    {r : CoroutineRef} {c : Coroutine} (h : w.Ready r c) :
    w.Advances (w.engage r) := by
  refine (moved_engage h.found).advances ?_
  change c.state.Moves c.state.engaged
  by_cases hmain : r = w.main
  · subst hmain
    rw [hw.state_main h.found]
    exact .stays .main
  · rw [h.engaged hmain]
    exact .engages (h.state hmain)

/-! ## Releasing -/

/-- The innermost coroutine may be released with this exit. -/
structure Leaves (w : World H) (r : CoroutineRef)
    (exit : Except RuntimeError LoopExit) : Prop where
  top : w.inFlight.head? = some r
  native : ∀ c, w.coroutine? r = some c → c.kind = .native →
    LoopExit.IsFinal exit

theorem Scheduled.release {w : World H} (hw : w.Scheduled) {r : CoroutineRef}
    {exit : Except RuntimeError LoopExit} (h : w.Leaves r exit)
    (p : Processor) : (w.release r p exit).Scheduled := by
  obtain ⟨rest, hinFlight⟩ : ∃ rest, w.inFlight = r :: rest :=
    List.head?_eq_some_iff.mp h.top
  obtain ⟨hr, hrest⟩ : r ∉ rest ∧ rest.Nodup := by
    rw [← List.nodup_cons, ← hinFlight]
    exact hw.distinct
  obtain ⟨c, hc⟩ := hw.present r (by rw [hinFlight]; exact List.mem_cons_self)
  have htail : (w.release r p exit).inFlight = rest := by
    rw [inFlight_release, hinFlight]
    rfl
  have hgone : r ∉ (w.release r p exit).inFlight := by
    rw [htail]
    exact hr
  have hstate : r ≠ w.main → c.state = .running := by
    intro hmain
    rw [hw.running r c hc hmain, hinFlight]
    exact List.mem_cons_self
  refine (moved_release hc p exit).scheduled hw ?distinct ?others ?main ?running
    (iff_of_false nofun hgone) ?native
  case distinct =>
    rw [htail]
    exact hrest
  case others =>
    intro s hrs
    rw [htail, hinFlight, List.mem_cons]
    exact ⟨Or.inr, fun hs => hs.resolve_left fun hsame => hrs hsame.symm⟩
  case main =>
    change c.state.after exit = .main ↔ r = w.main
    by_cases hmain : r = w.main
    · subst hmain
      rw [hw.state_main hc]
      exact iff_of_true rfl rfl
    · rw [hstate hmain]
      exact iff_of_false (CoroutineState.after_ne_main exit) hmain
  case running =>
    intro hmain
    change c.state.after exit = .running ↔ _
    rw [hstate hmain]
    exact iff_of_false (CoroutineState.after_ne_running exit) hgone
  case native =>
    intro hkind
    change c.state.after exit = _ ∨ c.state.after exit = _ ∨ c.state.after exit = _
    rw [hstate (hw.ne_main_of_native hc hkind)]
    exact Or.inr (Or.inr (CoroutineState.after_of_isFinal (h.native c hc hkind)))

theorem Scheduled.release_advances {w : World H} (hw : w.Scheduled)
    {r : CoroutineRef} {exit : Except RuntimeError LoopExit}
    (h : w.Leaves r exit) (p : Processor) :
    w.Advances (w.release r p exit) := by
  have hr : r ∈ w.inFlight := List.mem_of_head? h.top
  obtain ⟨c, hc⟩ := hw.present r hr
  refine (moved_release hc p exit).advances ?_
  change c.state.Moves (c.state.after exit)
  by_cases hmain : r = w.main
  · subst hmain
    rw [hw.state_main hc]
    exact .stays .main
  · rw [(hw.running r c hc hmain).mpr hr]
    exact CoroutineState.moves_after exit

/-! ## Coroutines at rest -/

/-- The states and the processors of the coroutines at rest are as they have to be. -/
def Resting (Q : CoroutineState → Processor → Prop) (w : World H) : Prop :=
  ∀ r c p, w.coroutine? r = some c → c.processor? = some p → Q c.state p

section Resting

variable {w w' : World H} {r : CoroutineRef} {c : Coroutine}
  {Q Q' : CoroutineState → Processor → Prop}

theorem Resting.of_extends (hw : w.Resting Q) (h : w.Extends w')
    (halike : ∀ {s p p'}, Processor.Alike p p' → Q s p → Q' s p')
    (hfresh : ∀ {p}, Processor.Fresh p → Q' .notStarted p) : w'.Resting Q' := by
  intro r c' p' hc' hp'
  rcases h.coroutine_inv hc' with ⟨c, hc, hsame⟩ | ⟨-, hnew⟩
  · have hprocessor := hsame.processor
    rw [hp'] at hprocessor
    rw [hsame.state]
    cases hp : c.processor? with
    | none =>
        rw [hp] at hprocessor
        cases hprocessor
    | some p =>
        rw [hp] at hprocessor
        cases hprocessor with
        | some hprocessor => exact halike hprocessor (hw r c p hc hp)
  · obtain ⟨p, hp, hfreshp⟩ := hnew.processor
    rw [hp'] at hp
    cases hp
    rw [hnew.state]
    exact hfresh hfreshp

theorem Resting.of_moved (hw : w.Resting Q) {c' : Coroutine} (h : w.Moved r c c' w')
    (hmono : ∀ {s p}, Q s p → Q' s p)
    (hself : ∀ p, c'.processor? = some p → Q' c'.state p) : w'.Resting Q' := by
  intro s d p hd hp
  rcases h.cases hd with ⟨-, rfl⟩ | ⟨-, hd⟩
  · exact hself p hp
  · exact hmono (hw s d p hd hp)

/-- The one that is engaged takes its processor along. -/
theorem Resting.engage (hw : w.Resting Q) (hc : w.coroutine? r = some c)
    (hmono : ∀ {s p}, Q s p → Q' s p) : (w.engage r).Resting Q' := by
  refine hw.of_moved (moved_engage hc) hmono ?_
  intro p hp
  cases hp

/-- The one that is released rests with the others. -/
theorem Resting.release (hw : w.Resting Q) (hc : w.coroutine? r = some c)
    (hmono : ∀ {s p}, Q s p → Q' s p) {p : Processor} {exit : Except RuntimeError LoopExit}
    (hp : Q' (c.state.after exit) p) : (w.release r p exit).Resting Q' := by
  refine hw.of_moved (moved_release hc p exit) hmono ?_
  intro q hq
  cases hq
  exact hp

end Resting

/-! ## The first world -/

theorem Extends.addLibrary (w : World H) (name : String)
    (f : LibraryFunction) : w.Extends (w.addLibrary name f).2 :=
  .addNative w _

theorem installing_extends : Installing (World.Extends (H := H)) where
  refl := .refl
  trans := .trans
  addNative := .addNative
  newTable w := .addTable w {}
  setNamed w r _ _ := .modifyTable w r _

theorem Extends.installModules (w : World H) (modules : ModuleSet) :
    w.Extends (w.installModules modules) :=
  installing_extends.installModules w modules

/-- The world before the library is installed: the globals and the main coroutine. -/
theorem eq_main_of_coroutine? {settings : Settings} {host : H.State} {r : CoroutineRef}
    {c : Coroutine}
    (hc : World.coroutine?
      { objects := #[.table {}, .coroutine ⟨.main, .script, .nil, some {}⟩]
        globals := ⟨1⟩, main := ⟨2⟩, settings, host : World H } r = some c) :
    r = ⟨2⟩ ∧ c = ⟨.main, .script, .nil, some {}⟩ := by
  rw [coroutine?_eq_some_iff] at hc
  obtain ⟨id⟩ := r
  match id, hc with
  | 1, hc => cases hc
  | 2, hc =>
      cases hc
      exact ⟨rfl, rfl⟩

theorem scheduled_start (settings : Settings) (host : H.State) :
    (World.start settings host).Scheduled := by
  refine Scheduled.of_extends ?_ (Extends.installModules _ settings.modules)
  refine ⟨List.nodup_nil, ?present, ⟨_, rfl, rfl⟩, ?mainOnly, ?running, ?working, ?native⟩
  case present =>
    intro r hr
    cases hr
  case mainOnly =>
    intro r c hc _
    exact (eq_main_of_coroutine? hc).1
  case running =>
    intro r c hc hother
    exact absurd (eq_main_of_coroutine? hc).1 hother
  case working =>
    intro r c hc
    rw [(eq_main_of_coroutine? hc).2]
    exact iff_of_false (by simp) (by simp)
  case native =>
    intro r c hc hkind
    rw [(eq_main_of_coroutine? hc).2] at hkind
    cases hkind

/-- In the first world the main coroutine alone is there, with an empty processor. -/
theorem resting_start {Q : CoroutineState → Processor → Prop} (hmain : Q .main {})
    (halike : ∀ {s p p'}, Processor.Alike p p' → Q s p → Q s p')
    (hfresh : ∀ {p}, Processor.Fresh p → Q .notStarted p) (settings : Settings)
    (host : H.State) : (World.start settings host).Resting Q := by
  refine Resting.of_extends ?_ (Extends.installModules _ settings.modules) halike hfresh
  intro r c p hc hp
  obtain ⟨-, rfl⟩ := eq_main_of_coroutine? hc
  cases hp
  exact hmain

end World

end ScriptEngine
