import ScriptEngine.Proofs.Budget.InResume

/-!
# A resume by the host

What is said here is about a coroutine with no budget that the host has resumed: no step
gives it a budget or suspends it by force, and it gives way to the host.
-/

namespace ScriptEngine

variable {H : HostTypes} {r : CoroutineRef}

namespace Machine

variable [Host H] {m : Machine H}

/-- What a resume by the host goes on with. -/
def handing (result : Except RuntimeError Value) : Action H NativeOutcome :=
  (Action.ofResult result).bind fun v => .done (.result v)

/-- The host waits for the coroutine. -/
def hostResumer (H : HostTypes) : Resumer H := ⟨{}, handing, []⟩

/-- The host has resumed the coroutine, which has no budget and has not given way. -/
structure HostResume (m : Machine H) (r : CoroutineRef) : Prop
    extends m.InResume r (hostResumer H) true {} where
  script : m.core.world.IsScript r

theorem HostResume.proc_free (h : m.HostResume r) (hworking : IsWorking r m.activations) :
    m.core.proc.metered (some {}) = m.core.proc := by
  exact h.reads.proc hworking

theorem HostResume.autoYield_eq (h : m.HostResume r) (hworking : IsWorking r m.activations) :
    m.core.proc.autoYield? = none := by
  exact (congrArg Processor.autoYield? (h.proc_free hworking)).symm

theorem HostResume.executed (h : m.HostResume r) (hworking : IsWorking r m.activations) :
    m.core.proc.executed = 0 := by
  exact (congrArg Processor.executed (h.proc_free hworking)).symm

variable [LawfulHost H]

theorem HostResume.departing (h : m.HostResume r) (hdeparts : m.Departs r) :
    ∃ exit, exit ≠ .ok .forceYielded ∧
      m = ⟨m.core, [.switch r {} handing], .switching exit⟩ := by
  exact h.toInResume.departing hdeparts

theorem HostResume.next (h : m.HostResume r) (hstays : ¬m.Departs r) :
    m.next.HostResume r where
  toInResume := by
    by_cases hticks : m.Ticks r
    · exact h.next_of_ticks hstays hticks nofun
    · exact h.toInResume.next hstays hticks
  script := (h.turn.advances h.reachable.wellNested).isScript h.script

theorem HostResume.after (h : m.HostResume r) {n : Nat}
    (hstays : ∀ i < n, ¬(m.after i).Departs r) : (m.after n).HostResume r := by
  induction n with
  | zero => exact h
  | succ n ih =>
    exact (ih fun i hi => hstays i (Nat.lt_succ_of_lt hi)).next (hstays n (Nat.lt_succ_self n))

end Machine

end ScriptEngine
