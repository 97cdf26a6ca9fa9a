import ScriptEngine.Proofs.Budget.Metered

/-!
# Coroutines in flight for a resumer

Whoever resumes a coroutine, the host or another function, waits until it gives way.  Until
then the outermost loop of the coroutine stands on the switch to it, and its processor, at
hand or waiting, can yield as before.
-/

namespace ScriptEngine

variable {H : HostTypes} {r : CoroutineRef}

/-- Who has resumed a coroutine and waits for it. -/
structure Resumer (H : HostTypes) where
  proc : Processor
  next : Except RuntimeError Value → Action H NativeOutcome
  activations : List (Activation H)

/-- What waits for the coroutine. -/
def Resumer.below (s : Resumer H) (r : CoroutineRef) : List (Activation H) :=
  .switch r s.proc s.next :: s.activations

/-- The processor of the coroutine can yield or not, where it runs and where it waits. -/
def CanYieldIs (r : CoroutineRef) (b : Bool) : Bool → List (Activation H) → Prop
  | canYield, .switch c outer _ :: rest =>
      (c = r → canYield = b) ∧ CanYieldIs r b outer.canYield rest
  | canYield, .call _ _ :: rest => CanYieldIs r b canYield rest
  | canYield, .body :: rest => CanYieldIs r b canYield rest
  | _, [] => True

namespace CanYieldIs

variable {b canYield : Bool} {activations : List (Activation H)}

theorem of_not_mem (h : r ∉ switches activations) : CanYieldIs r b canYield activations := by
  induction activations generalizing canYield with
  | nil => trivial
  | cons a rest ih =>
    cases a with
    | call mark waiter => exact ih h
    | body => exact ih h
    | switch c outer next =>
      refine ⟨fun hsame => absurd ?_ h, ih fun hr => h (List.mem_cons_of_mem c hr)⟩
      rw [← hsame]
      exact List.mem_cons_self

theorem of_append {loops : List (Activation H)} (hloops : ∀ a ∈ loops, a.coroutine? = none)
    (h : CanYieldIs r b canYield activations) :
    CanYieldIs r b canYield (loops ++ activations) := by
  induction loops with
  | nil => exact h
  | cons a loops ih =>
    have hrest := ih fun b hb => hloops b (List.mem_cons_of_mem a hb)
    cases a with
    | call mark waiter => exact hrest
    | body => exact hrest
    | switch c outer next => cases hloops _ List.mem_cons_self

theorem of_isWorking (h : CanYieldIs r b canYield activations)
    (hworking : IsWorking r activations) : canYield = b := by
  induction activations with
  | nil => cases hworking
  | cons a rest ih =>
    cases a with
    | call mark waiter => exact ih h hworking
    | body => exact ih h hworking
    | switch c outer next => exact h.1 (Option.some.inj hworking)

end CanYieldIs

namespace Machine

variable {m m' : Machine H} {s : Resumer H} {b : Bool}

/-- The coroutine is in flight for this resumer, in its outermost loop or about to leave. -/
inductive Serves (m : Machine H) (r : CoroutineRef) (s : Resumer H) : Prop where
  | runs (inner : List (Activation H)) (h : m.activations = inner ++ .body :: s.below r)
  | departs (exit : Except RuntimeError LoopExit) (hcontrol : m.control = .switching exit)
      (h : m.activations = s.below r)

theorem Serves.mem_switches (h : m.Serves r s) : r ∈ switches m.activations := by
  have hbelow : r ∈ switches (s.below r) := List.mem_cons_self
  cases h with
  | runs inner h =>
    rw [h]
    unfold switches
    rw [List.filterMap_append]
    exact List.mem_append_right _ hbelow
  | departs exit hcontrol h =>
    rw [h]
    exact hbelow

theorem Serves.next [Host H] (hturn : Turn m m.next) (h : m.Serves r s)
    (hstays : ¬m.Departs r) : m.next.Serves r s := by
  cases h with
  | departs exit hcontrol h => exact absurd ⟨⟨exit, hcontrol⟩, _, _, _, h⟩ hstays
  | runs inner h =>
    cases hturn with
    | stays hworld hsame => exact .runs inner (hsame.trans h)
    | enters hworld mark waiter henters =>
      exact .runs (.call mark waiter :: inner) (henters.trans (congrArg (_ :: ·) h))
    | leaves hworld a ha hleaves hcan hfrom =>
      obtain ⟨exit, hcontrol⟩ := hfrom
      cases inner with
      | nil =>
        obtain ⟨core, activations, control⟩ := m
        obtain rfl : activations = .body :: s.below r := h
        obtain rfl : control = .leaving exit := hcontrol
        cases exit <;> exact .departs _ rfl rfl
      | cons a' inner =>
        rw [h] at hleaves
        exact .runs inner (List.cons.inj hleaves).2.symm
    | engages c co hready p hp hproc next hworld loops hloops hengages hfrom =>
      refine .runs (loops ++ .switch c m.core.proc next :: inner) ?_
      rw [hengages, h, List.append_assoc]
      rfl
    | releases c next exit hexit hworld hreleases hcontrol =>
      rw [h] at hreleases
      cases inner with
      | nil => cases hreleases
      | cons a inner => exact .runs inner (List.cons.inj hreleases).2.symm

theorem canYieldIs_next (hturn : Turn m m') (hinFlight : InFlight r m.core.world)
    (h : CanYieldIs r b m.core.proc.canYield m.activations) :
    CanYieldIs r b m'.core.proc.canYield m'.activations := by
  cases hturn with
  | stays hworld hsame hproc =>
    rw [hsame, hproc]
    exact h
  | enters hworld mark waiter henters hproc =>
    rw [henters, hproc]
    exact h
  | leaves hworld a ha hleaves hproc hfrom =>
    rw [hleaves] at h
    rw [hproc]
    cases a with
    | call mark waiter => exact h
    | body => exact h
    | switch c outer next => cases ha
  | engages c co hready p hp hproc next hworld loops hloops hengages hfrom =>
    have hother : c ≠ r := by
      rintro rfl
      exact hready.resting (hinFlight _ hready.found)
    rw [hengages]
    exact .of_append hloops ⟨fun hsame => absurd hsame hother, h⟩
  | releases c next exit hexit hworld hreleases hcontrol =>
    rw [hreleases] at h
    exact h.2

/-- No coroutine is in flight twice. -/
theorem WellNested.distinct (h : m.WellNested) : (switches m.activations).Nodup := by
  rw [← h.inFlight]
  exact h.scheduled.distinct

theorem Serves.inFlight (h : m.Serves r s) (hm : m.WellNested) : InFlight r m.core.world := by
  intro c hc
  rw [hm.scheduled.working r c hc, hm.inFlight]
  exact h.mem_switches

end Machine

end ScriptEngine
