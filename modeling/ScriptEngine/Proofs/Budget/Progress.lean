import ScriptEngine.Proofs.Budget.Sessions

/-!
# A coroutine with a budget gets on

A coroutine over a function of a script is suspended by force only when its budget is used
up.  So each time that this happens it has executed as many instructions as the budget has,
and a coroutine that comes to an end without a budget comes to the same end with any budget
but that of no instructions.
-/

namespace ScriptEngine

variable {H : HostTypes} {r : CoroutineRef} [Host H]

namespace Machine

variable {m : Machine H} {s : Resumer H} {b : Bool}

/-! ## Counting -/

variable [LawfulHost H] {budget? : Option Nat} {n i d : Nat}

/-- After so many steps the coroutine has not given way, and what its meter shows is what it
has executed. -/
structure Progresses (m : Machine H) (r : CoroutineRef) (s : Resumer H) (b : Bool)
    (budget? : Option Nat) (i e : Nat) : Prop where
  inResume : (m.after i).InResume r s b ⟨budget?, e⟩
  counted : b = true → ∀ n, budget? = some n → m.executions r i = e ∧ e ≤ n

/-- After so many steps the budget is used up, and what comes next is an instruction. -/
structure Depletes (m : Machine H) (r : CoroutineRef) (s : Resumer H) (budget? : Option Nat)
    (n i : Nat) : Prop where
  budget : budget? = some n
  inResume : (m.after i).InResume r s true ⟨some n, n⟩
  ticks : (m.after i).Ticks r
  counted : m.executions r i = n

theorem Progresses.next {e : Nat} (h : m.Progresses r s b budget? i e)
    (hstays : ¬(m.after i).Departs r) :
    (∃ n, m.Depletes r s budget? n i) ∨ ∃ e, m.Progresses r s b budget? (i + 1) e := by
  by_cases hticks : (m.after i).Ticks r
  · obtain rfl : b = true := h.inResume.canYield_of_ticks hticks
    cases budget? with
    | none => exact Or.inr ⟨e, h.inResume.next_of_ticks hstays hticks nofun, nofun⟩
    | some n =>
      obtain ⟨hcounted, hle⟩ := h.counted rfl n rfl
      rcases Nat.lt_or_eq_of_le hle with hroom | rfl
      · have hroom' : ∀ n', some n = some n' → e < n' :=
          fun n' hn => Option.some.inj hn ▸ hroom
        have hexecutes := hticks.executes (h.inResume.isWorking_iff.mpr hticks.working)
          (h.inResume.countInstruction hticks hroom')
        refine Or.inr ⟨e + 1, h.inResume.next_of_ticks hstays hticks hroom', fun _ n' hn => ?_⟩
        rw [Option.some.inj hn] at hroom
        refine ⟨?_, hroom⟩
        change m.executions r i + ((m.after i).executes r).toNat = e + 1
        rw [hcounted, hexecutes]
        rfl
      · exact Or.inl ⟨e, rfl, h.inResume, hticks, hcounted⟩
  · refine Or.inr ⟨e, h.inResume.next hstays hticks, fun hb n hn => ?_⟩
    obtain ⟨hcounted, hle⟩ := h.counted hb n hn
    have hexecutes : (m.after i).executes r = false := by
      subst hb
      refine Bool.eq_false_iff.mpr fun hexecutes => hticks ?_
      have hmetered : ((m.after i).metered r ⟨budget?, e⟩).executes r = true := by
        rw [h.inResume.reads]
        exact hexecutes
      exact h.inResume.ticks_of_executes hmetered
    refine ⟨?_, hle⟩
    change m.executions r i + ((m.after i).executes r).toNat = e
    rw [hcounted, hexecutes]
    rfl

/-- Until the coroutine gives way its instructions are counted, or the budget is used up on
the way. -/
theorem InResume.progresses (h : m.InResume r s b ⟨budget?, 0⟩)
    (hstays : ∀ j < i, ¬(m.after j).Departs r) :
    (∃ e, m.Progresses r s b budget? i e) ∨ ∃ n, ∃ j < i, m.Depletes r s budget? n j := by
  induction i with
  | zero => exact Or.inl ⟨0, h, fun _ n _ => ⟨rfl, Nat.zero_le n⟩⟩
  | succ i ih =>
    rcases ih fun j hj => hstays j (Nat.lt_succ_of_lt hj) with
      ⟨e, hprogresses⟩ | ⟨n, j, hj, hdepletes⟩
    · rcases hprogresses.next (hstays i (Nat.lt_succ_self i)) with ⟨n, hdepletes⟩ | hprogresses
      · exact Or.inr ⟨n, i, Nat.lt_succ_self i, hdepletes⟩
      · exact Or.inl hprogresses
    · exact Or.inr ⟨n, j, Nat.lt_succ_of_lt hj, hdepletes⟩

/-! ## Giving way -/

theorem Depletes.usedUp (h : m.Depletes r s budget? n i) :
    (m.after i).UsedUp r n (s.below r) where
  ticks := h.ticks
  reads := h.inResume.reads
  distinct := h.inResume.distinct
  loops := h.inResume.activations_of_ticks h.ticks

theorem Depletes.executions (h : m.Depletes r s budget? n i) (hi : i < d)
    (hstays : ∀ j < d, ¬(m.after j).Departs r) : m.executions r (d + 1) = n := by
  have hd : d ≤ i + 3 := by
    refine Nat.le_of_not_lt fun hlt => hstays (i + 3) hlt ?_
    rw [after_add, h.usedUp.after_three]
    exact ⟨⟨_, rfl⟩, _, _, _, rfl⟩
  obtain ⟨j, rfl⟩ := Nat.exists_eq_add_of_lt hi
  rw [Nat.add_assoc, Nat.add_assoc, executions_add, h.counted,
    executions_of_not_executes fun l hl => h.usedUp.not_executes (by omega)]
  rfl

omit [Host H] [LawfulHost H] in
theorem exit_of_forceSuspended {state : CoroutineState} {exit : Except RuntimeError LoopExit}
    (h : state.after exit = .forceSuspended) : exit = .ok .forceYielded := by
  unfold CoroutineState.after at h
  split at h <;> first | rfl | cases h

/-- A coroutine that gives way before its budget is used up is not suspended by force. -/
theorem InResume.not_forced {k : Meter} (h : m.InResume r s b k) (hdeparts : m.Departs r) :
    (m.next.core.world.coroutine r).state ≠ .forceSuspended := by
  obtain ⟨exit, hexit, hm⟩ := h.departing hdeparts
  obtain ⟨c, hc⟩ : ∃ c, m.core.world.coroutine? r = some c := by
    refine h.reachable.wellNested.scheduled.present r ?_
    rw [h.reachable.wellNested.inFlight]
    exact h.serves.mem_switches
  intro hforced
  rw [hm] at hforced
  change ((m.core.world.release r m.core.proc exit).coroutine r).state = _ at hforced
  rw [World.coroutine_of_coroutine? (World.coroutine?_release_self hc m.core.proc exit)]
    at hforced
  exact hexit (exit_of_forceSuspended hforced)

/-! ## Resumes that end by force -/

/-- A resume of a coroutine over a function of a script ends after so many steps with the
coroutine suspended by force; the budget is the one that its processor rested with. -/
structure EndsForced (m : Machine H) (r : CoroutineRef) (budget? : Option Nat) (steps : Nat) :
    Prop where
  reachable : m.Reachable
  resumes : ∃ args next, m.Resumes r args next
  resting : ∃ c p, m.core.world.coroutine? r = some c ∧ c.kind = .script ∧
    c.processor? = some p ∧ p.autoYield? = budget?
  lands : ∃ d, m.next.Lands r d ∧ steps = d + 2
  forced : ((m.after steps).core.world.coroutine r).state = .forceSuspended

/-- A resume that ends by force has executed as many instructions as the budget has. -/
theorem EndsForced.budget_eq {steps : Nat} (h : m.EndsForced r budget? steps) :
    budget? = some (m.executions r steps) := by
  obtain ⟨args, next, hresumes⟩ := h.resumes
  obtain ⟨c, p, hc, hscript, hp, rfl⟩ := h.resting
  obtain ⟨d, hlands, rfl⟩ := h.lands
  have hfirst : m.executions r 1 = 0 := by
    refine executions_of_not_executes fun i hi => executes_of_control ?_
    obtain rfl : i = 0 := by omega
    change m.control ≠ _
    rw [hresumes.1]
    nofun
  have hexecutions : m.executions r (d + 2) = m.next.executions r (d + 1) := by
    rw [show d + 2 = 1 + (d + 1) by omega, executions_add, hfirst, Nat.zero_add]
    rfl
  have hend : m.after (d + 2) = (m.next.after d).next := (after_next m (d + 1)).symm
  rcases (hresumes.inResume h.reachable hc hscript hp).progresses hlands.stays with
    ⟨e, hprogresses⟩ | ⟨n, i, hi, hdepletes⟩
  · have hforced := h.forced
    rw [hend] at hforced
    exact absurd hforced (hprogresses.inResume.not_forced hlands.departs)
  · rw [hdepletes.budget, hexecutions, hdepletes.executions hi hlands.stays]

end Machine

namespace World

variable {w free final : World H} {c : Coroutine} {p : Processor} {n : Nat}
  {argss : List (List Value)} {results : List (Except RuntimeError Value)}

theorem Rests.shadows_free (h : w.Rests r c p) (hbudget : p.autoYield? = some n) :
    Shadows r n (w.metered r {}) w := by
  refine ⟨_, _, p.executed, ⟨h.metered {}, rfl⟩, ?_⟩
  rw [metered_metered, metered_eq_self h.found h.processor]
  rw [← hbudget]
  rfl

variable [LawfulHost H]

/-- A coroutine that comes to its end without a budget comes to its end with one. -/
theorem Rests.dies (h : w.Rests r c p) (hbudget : p.autoYield? = some n) (hn : 0 < n)
    (hfree : w.setAutoYield r none = .ok free)
    (hsession : Session (Resumes r) free argss results final)
    (hdead : (final.coroutine r).state = .dead) :
    ∃ w', Session (Drives r) w argss results w' ∧ (w'.coroutine r).state = .dead := by
  rw [setAutoYield_eq h.found h.processor] at hfree
  cases hfree
  obtain ⟨w', hshadows, hdriven⟩ := (h.shadows_free hbudget).session hn hsession
  obtain ⟨c', p', e, hrests, rfl⟩ := hshadows
  refine ⟨_, hdriven, ?_⟩
  rw [coroutine_of_coroutine? hrests.found] at hdead
  rw [coroutine_of_coroutine? (coroutine?_metered_self hrests.found)]
  exact hdead

/-- Each resume that ends with the coroutine suspended by force has executed what the budget
allows, and with any budget but that of no instructions a coroutine comes to its end if it
does so without one. -/
theorem budget_progresses (r : CoroutineRef) :
    (∀ (m : Machine H) (budget? : Option Nat) (steps : Nat), m.EndsForced r budget? steps →
      budget? = some (m.executions r steps)) ∧
    ∀ (w free final : World H) (c : Coroutine) (p : Processor) (n : Nat)
      (argss : List (List Value)) (results : List (Except RuntimeError Value)),
      w.Rests r c p → p.autoYield? = some n → 0 < n → w.setAutoYield r none = .ok free →
      Session (Resumes r) free argss results final → (final.coroutine r).state = .dead →
      ∃ w', Session (Drives r) w argss results w' ∧ (w'.coroutine r).state = .dead := by
  constructor
  · intro _ _ _ h
    exact h.budget_eq
  · intro _ _ _ _ _ _ _ _ h hbudget hn hfree hsession
    exact h.dies hbudget hn hfree hsession

/-- An engine whose settings give every coroutine this budget, with a function that returns
true and a coroutine over it. -/
def budgeted (budget? : Option Nat) : World Workbench.types :=
  let w : World Workbench.types :=
    .start { modules := ⟨false, false, false⟩, autoYield? := budget? } {}
  ((w.addClosure consenting).2.addCoroutine .script (.function ⟨3⟩)).2

theorem rests_budgeted (budget? : Option Nat) :
    (budgeted budget?).Rests ⟨4⟩
      ⟨.notStarted, .script, .function ⟨3⟩, some { canYield := true, autoYield? := budget? }⟩
      { canYield := true, autoYield? := budget? } := by
  have hstart := Machine.Reachable.start (H := Workbench.types)
    { modules := ⟨false, false, false⟩, autoYield? := budget? } {} (.done (.result .nil))
  have hidle : (budgeted budget?).Idle :=
    ⟨_, .next hstart, ⟨_, rfl⟩, (Extends.addClosure _ _).trans (.addCoroutine _ _ _)⟩
  exact ⟨hidle, rfl, rfl, rfl, rfl⟩

theorem endsForced_budgeted {budget? : Option Nat} {d : Nat}
    (hlands : (((budgeted budget?).resuming ⟨4⟩ []).next).Lands ⟨4⟩ d)
    (hforced : ((((budgeted budget?).resuming ⟨4⟩ []).after (d + 2)).core.world.coroutine
      ⟨4⟩).state = .forceSuspended) :
    ((budgeted budget?).resuming ⟨4⟩ []).EndsForced ⟨4⟩ budget? (d + 2) where
  reachable := (rests_budgeted budget?).reachable []
  resumes := ⟨[], _, rfl, rfl⟩
  resting := ⟨_, _, (rests_budgeted budget?).found, rfl, rfl, rfl⟩
  lands := ⟨d, hlands, rfl⟩
  forced := hforced

/-- With a budget of one instruction the coroutine is suspended after one instruction, and
dead in the end. -/
theorem budget_progresses_one :
    ((budgeted (some 1)).resuming ⟨4⟩ []).EndsForced ⟨4⟩ (some 1) 6 ∧
      ((budgeted (some 1)).resuming ⟨4⟩ []).executions ⟨4⟩ 6 = 1 ∧
      ∃ w', Session (Drives ⟨4⟩) (budgeted (some 1)) [[]] [.ok (.boolean true)] w' ∧
        (w'.coroutine ⟨4⟩).state = .dead := by
  have hlands : ((budgeted (some 1)).resuming ⟨4⟩ []).next.Lands ⟨4⟩ 4 := by
    refine ⟨⟨⟨_, rfl⟩, _, _, _, rfl⟩, fun i hi => ?_⟩
    rintro ⟨⟨exit, hexit⟩, -⟩
    match i, hi with
    | 0, _ => cases hexit
    | 1, _ => cases hexit
    | 2, _ => cases hexit
    | 3, _ => cases hexit
  have hforced := endsForced_budgeted hlands rfl
  obtain ⟨hprogress, hdies⟩ := budget_progresses (H := Workbench.types) ⟨4⟩
  refine ⟨hforced, (Option.some.inj (hprogress _ _ _ hforced)).symm, ?_⟩
  exact hdies _ _ _ _ _ 1 [[]] [.ok (.boolean true)] (rests_budgeted (some 1)) rfl
    (by decide) rfl (.goesOn ⟨12, rfl⟩ (.done _)) rfl

/-- With a budget of no instructions nothing is executed, and each further resume leaves the
world as it is. -/
theorem budget_halts_none :
    ((budgeted (some 0)).resuming ⟨4⟩ []).EndsForced ⟨4⟩ (some 0) 5 ∧
      ((budgeted (some 0)).resuming ⟨4⟩ []).executions ⟨4⟩ 5 = 0 ∧
      ∃ w, (budgeted (some 0)).Resumes ⟨4⟩ [] (.ok .void) w ∧
        (w.coroutine ⟨4⟩).state = .forceSuspended ∧ w.Resumes ⟨4⟩ [] (.ok .void) w := by
  have hlands : ((budgeted (some 0)).resuming ⟨4⟩ []).next.Lands ⟨4⟩ 3 := by
    refine ⟨⟨⟨_, rfl⟩, _, _, _, rfl⟩, fun i hi => ?_⟩
    rintro ⟨⟨exit, hexit⟩, -⟩
    match i, hi with
    | 0, _ => cases hexit
    | 1, _ => cases hexit
    | 2, _ => cases hexit
  exact ⟨endsForced_budgeted hlands rfl, rfl, _, ⟨12, rfl⟩, rfl, ⟨12, rfl⟩⟩

end World

end ScriptEngine
