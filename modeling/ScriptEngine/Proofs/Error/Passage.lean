import ScriptEngine.Proofs.Coroutine.History
import ScriptEngine.Proofs.Error.Forwarding

/-!
# The way of an error that scripts cannot catch

A broken rule of the embedding, an unsound chunk, an operand out of range and
the host's request to stop end every loop and every function they come to, one
after the other, and no handler runs on their way to the host.  There is one
way out: when such an error ends a function that was to see another error, that
other error goes on in its place, and scripts can catch that one.
-/

namespace ScriptEngine

variable {H : HostTypes}

/-- The machine is about to hand the error on. -/
inductive Control.Carries (e : RuntimeError) : Control H → Prop where
  | failed : Carries e (.failed e)
  | leaving : Carries e (.leaving (.error e))
  | answering (waiter : Waiter H) : Carries e (.answering waiter (.error e))
  | switching : Carries e (.switching (.error e))
  | running : Carries e (.running (.fail e))
  | finished : Carries e (.finished (.error e))

namespace Machine

/-- No loop is left: what the machine does next is up to the host. -/
def AtHost (m : Machine H) : Prop :=
  m.activations = [] ∨
    ∃ r outer next exit, m.activations = [.switch r outer next] ∧
      m.control = .switching exit

/-- The error has ended a function that was to see another one, and the other
one goes on in its place. -/
def Displaces [Host H] (m : Machine H) (e : RuntimeError) : Prop :=
  ∃ s, (∃ rest, m.control = .answering (.decorated s rest) (.error e) ∧
      m.next.control = .unwinding (decoratorFailure s) rest) ∨
    ∃ handler flags returnAddress,
      m.control = .answering (.refused s handler flags returnAddress) (.error e) ∧
      m.next.control = .calling (.native handler) [(decoratorFailure s).value]
        (.recovered flags returnAddress)

/-- How many steps the error takes within the innermost activation at most. -/
def Control.pace : Control H → Nat
  | .answering _ _ => 3
  | .running _ => 2
  | .failed _ => 1
  | _ => 0

def distance (m : Machine H) : Nat :=
  4 * m.activations.length + Control.pace m.control

variable [Host H]

/-- What waits for the answer of a nested call passes the error on. -/
theorem carries_answering {m : Machine H} {waiter : Waiter H} {e : RuntimeError}
    (hcontrol : m.control = .answering waiter (.error e)) (hforwarding : m.Forwarding)
    (hcatchable : e.isCatchable = false) :
    m.AtHost ∨ m.Displaces e ∨ m.next.control.Carries e ∧ m.next.distance < m.distance := by
  obtain ⟨core, activations, control⟩ := m
  obtain rfl : control = .answering waiter (.error e) := hcontrol
  cases waiter with
  | action next =>
      rcases hforwarding.control.1 with hhost | hnext
      · exact Or.inl (Or.inl hhost)
      · right; right
        have hpasses := hnext.1 e hcatchable (hforwarding.control.2 e rfl)
        refine ⟨?_, Nat.lt_succ_self _⟩
        change Control.Carries e (.running (next (.error e)))
        rw [hpasses]
        exact .running
  | decorated s rest => exact Or.inr (Or.inl ⟨s, Or.inl ⟨rest, rfl, rfl⟩⟩)
  | refused s handler flags returnAddress =>
      exact Or.inr (Or.inl ⟨s, Or.inr ⟨handler, flags, returnAddress, rfl, rfl⟩⟩)
  | recovered flags returnAddress =>
      refine Or.inr (Or.inr ⟨.failed, ?_⟩)
      change 4 * activations.length + 1 < 4 * activations.length + 3
      omega
  | caught flags returnAddress =>
      refine Or.inr (Or.inr ⟨.failed, ?_⟩)
      change 4 * activations.length + 1 < 4 * activations.length + 3
      omega
  | processor =>
      refine Or.inr (Or.inr ⟨.switching, ?_⟩)
      change 4 * activations.length + 0 < 4 * activations.length + 3
      omega

/-- Whoever resumed the coroutine passes the error on. -/
theorem carries_switching {m : Machine H} {e : RuntimeError}
    (hcontrol : m.control = .switching (.error e))
    (hfits : m.control.Fits m.core.world m.activations) (hforwarding : m.Forwarding)
    (hcatchable : e.isCatchable = false) :
    m.AtHost ∨ m.next.control.Carries e ∧ m.next.distance < m.distance := by
  obtain ⟨core, activations, control⟩ := m
  obtain rfl : control = .switching (.error e) := hcontrol
  obtain ⟨r, outer, next, rest, hactivations, -⟩ := hfits
  cases hactivations
  have hactivations := hforwarding.activations
  cases hactivations with
  | switch _ _ hnext h =>
      rcases hnext with rfl | hnext
      · exact Or.inl (Or.inr ⟨r, outer, next, .error e, rfl, rfl⟩)
      · right
        refine ⟨?_, ?_⟩
        · change Control.Carries e (.running (next (.error e)))
          rw [hnext.1 e hcatchable (hforwarding.control e rfl)]
          exact .running
        · change 4 * rest.length + 2 < 4 * (rest.length + 1) + 0
          omega

/-- An error that no script can catch comes one step closer to the host. -/
theorem carries_next {m : Machine H} (hfits : m.control.Fits m.core.world m.activations)
    (hforwarding : m.Forwarding) {e : RuntimeError} (hcatchable : e.isCatchable = false)
    (h : m.control.Carries e) :
    m.AtHost ∨ m.Displaces e ∨ m.next.control.Carries e ∧ m.next.distance < m.distance := by
  generalize hcontrol : m.control = control at h
  cases h with
  | failed =>
      right; right
      cases e with
      | script e => cases hcatchable
      | _ =>
          unfold distance
          rw [hcontrol, next_of_failed hcontrol]
          exact ⟨.leaving, Nat.lt_succ_self _⟩
  | leaving =>
      right; right
      obtain ⟨core, activations, control⟩ := m
      obtain rfl : control = .leaving (.error e) := hcontrol
      have hloop : InLoop activations := hfits
      cases hloop with
      | call mark waiter rest =>
          refine ⟨.answering waiter, ?_⟩
          change 4 * rest.length + 3 < 4 * (rest.length + 1) + 0
          omega
      | body rest =>
          refine ⟨.switching, ?_⟩
          change 4 * rest.length + 0 < 4 * (rest.length + 1) + 0
          omega
  | answering waiter => exact carries_answering hcontrol hforwarding hcatchable
  | switching => exact (carries_switching hcontrol hfits hforwarding hcatchable).imp_right Or.inr
  | running =>
      obtain ⟨core, activations, control⟩ := m
      obtain rfl : control = .running (.fail e) := hcontrol
      cases activations with
      | nil => exact Or.inl (Or.inl rfl)
      | cons top rest => exact Or.inr (Or.inr ⟨.failed, Nat.lt_succ_self _⟩)
  | finished =>
      rw [hcontrol] at hfits
      exact Or.inl (Or.inl hfits)

omit [Host H] in
/-- Inside a loop, an error on its way is never the refusal of a resume. -/
theorem Forwarding.proper {m : Machine H} (h : m.Forwarding)
    (hfits : m.control.Fits m.core.world m.activations) {e : RuntimeError}
    (hcarries : m.control.Carries e) (hinside : m.activations ≠ []) : e.Proper := by
  obtain ⟨core, activations, control⟩ := m
  obtain ⟨h, hcontrol⟩ := h
  cases hcarries with
  | failed => exact hcontrol
  | leaving => exact hcontrol e rfl
  | answering waiter => exact hcontrol.2 e rfl
  | switching => exact hcontrol e rfl
  | running =>
      rcases hcontrol with hnone | hforwards
      · exact absurd hnone hinside
      · cases hforwards with
        | fail he => exact he
  | finished => exact absurd hfits hinside

variable [LawfulHost H] [ForwardingHost H]

omit [Host H] [LawfulHost H] [ForwardingHost H] in
theorem distance_le (m : Machine H) : m.distance ≤ 4 * m.activations.length + 3 := by
  have hthree : Control.pace m.control ≤ 3 := by
    unfold Control.pace
    split <;> omega
  unfold distance
  omega

/-- An error that no script can catch goes its way within its distance. -/
theorem Reachable.carries_away {m : Machine H} (h : m.Reachable) {e : RuntimeError}
    (hcatchable : e.isCatchable = false) (hcarries : m.control.Carries e) :
    ∃ n ≤ m.distance, (∀ i ≤ n, (m.after i).control.Carries e) ∧
      ((m.after n).AtHost ∨ (m.after n).Displaces e) := by
  generalize hdistance : m.distance = d
  -- Each step that hands the error on brings it closer to the host.
  induction d using Nat.strongRecOn generalizing m with
  | ind d ih =>
      have hstop (hends : m.AtHost ∨ m.Displaces e) :
          ∃ n ≤ d, (∀ i ≤ n, (m.after i).control.Carries e) ∧
            ((m.after n).AtHost ∨ (m.after n).Displaces e) := by
        refine ⟨0, Nat.zero_le d, fun i hi => ?_, hends⟩
        rw [Nat.le_zero.mp hi]
        exact hcarries
      rcases carries_next h.wellNested.control h.forwarding hcatchable hcarries with
        hhost | hdisplaces | ⟨hnext, hcloser⟩
      · exact hstop (Or.inl hhost)
      · exact hstop (Or.inr hdisplaces)
      · rw [hdistance] at hcloser
        obtain ⟨n, hn, hcarried, hends⟩ := ih _ hcloser h.next hnext rfl
        refine ⟨n + 1, by omega, fun i hi => ?_, by rwa [← after_next]⟩
        cases i with
        | zero => exact hcarries
        | succ i =>
            rw [← after_next]
            exact hcarried i (by omega)

/-- Wherever an error occurs that no script can catch, it comes to the host in a
few steps for each loop that has begun, and nothing else happens on the way;
unless it ends the function that was to see another error, in whose place that
other error goes on.  It is no refusal of a resume: those stay with the function
that asked for the resume. -/
theorem Reachable.passes {m : Machine H} (h : m.Reachable) {e : RuntimeError}
    (hcatchable : e.isCatchable = false) (hcarries : m.control.Carries e) :
    (m.activations ≠ [] → e.isResumeRefusal = false) ∧
      ∃ n ≤ 4 * m.activations.length + 3,
        (∀ i ≤ n, (m.after i).control.Carries e) ∧
          ((m.after n).AtHost ∨ (m.after n).Displaces e) := by
  obtain ⟨n, hn, hcarried, hends⟩ := h.carries_away hcatchable hcarries
  exact ⟨h.forwarding.proper h.wellNested.control hcarries, n,
    Nat.le_trans hn m.distance_le, hcarried, hends⟩

/-! ## Yielding where there is nothing to yield from -/

/-- A host that adds a few functions first: `pcall` is the fifth object, `xpcall`
the sixth, then come `error` and `yield`. -/
def prepared (a : Action HostTypes.alone NativeOutcome) :
    Action HostTypes.alone NativeOutcome :=
  .write (fun w => (w.addLibrary "pcall_ok" .protectedOk).2)
    (.write (fun w => (w.addLibrary "pcall_failed" .protectedFailed).2)
      (.write (fun w => (w.addLibrary "pcall" (.pcall ⟨3⟩ ⟨4⟩)).2)
        (.write (fun w => (w.addLibrary "xpcall" (.xpcall ⟨3⟩ ⟨4⟩)).2)
          (.write (fun w => (w.addLibrary "error" .error).2)
            (.write (fun w => (w.addLibrary "yield" .coroutineYield).2) a)))))

/-- The host calls one of these functions on its main coroutine. -/
def entering (function : NativeRef) (args : List Value) : Machine HostTypes.alone :=
  .start (.start { modules := ⟨false, false, false⟩ } ())
    (prepared (.enterMain (.native function) args fun r =>
      (Action.ofResult r).bind Library.one))

theorem reachable_entering (function : NativeRef) (args : List Value) (n : Nat) :
    ((entering function args).after n).Reachable := by
  refine (leads_after _ n).reachable (.start _ _ ?_)
  have hadd (name : String) (f : LibraryFunction) (w : World HostTypes.alone) :
      w.Extends (w.addLibrary name f).2 := .addNative w _
  refine .write (hadd _ _) (.write (hadd _ _) (.write (hadd _ _)
    (.write (hadd _ _) (.write (hadd _ _) (.write (hadd _ _) ?_)))))
  exact .enterMain _ _ fun r =>
    Action.lawful_bind (Action.lawful_ofResult r) Library.lawful_one

/-- A yield from the main coroutine passes a protected call. -/
theorem passes_protected :
    (RuntimeError.contract .yieldFromMain).isCatchable = false ∧
      ((entering ⟨5⟩ [.native ⟨8⟩]).after 14).control.Carries
        (.contract .yieldFromMain) ∧
      ∃ n ≤ 4 * ((entering ⟨5⟩ [.native ⟨8⟩]).after 14).activations.length + 3,
        (((entering ⟨5⟩ [.native ⟨8⟩]).after 14).after n).AtHost ∨
          (((entering ⟨5⟩ [.native ⟨8⟩]).after 14).after n).Displaces
            (.contract .yieldFromMain) := by
  have hcarries : ((entering ⟨5⟩ [.native ⟨8⟩]).after 14).control.Carries
      (.contract .yieldFromMain) := .failed
  obtain ⟨-, n, hn, -, hends⟩ :=
    (reachable_entering _ _ 14).passes (e := .contract .yieldFromMain) rfl hcarries
  exact ⟨rfl, hcarries, n, hn, hends⟩

/-- In a message handler the same yield makes a script error of itself, which a
protected call answers. -/
theorem displaces_handled :
    ((entering ⟨6⟩ [.native ⟨7⟩, .native ⟨8⟩]).after 21).Displaces
        (.contract .yieldFromMain) ∧
      ((run 40 (entering ⟨6⟩ [.native ⟨7⟩, .native ⟨8⟩])).bind fun
        | (.ok v, _) => some v
        | (.error _, _) => none) =
          some (.tuple [.boolean false, .string "error in error handling"]) := by
  constructor
  · exact ⟨_, Or.inl ⟨[], rfl, rfl⟩⟩
  · decide +kernel

end Machine

end ScriptEngine
