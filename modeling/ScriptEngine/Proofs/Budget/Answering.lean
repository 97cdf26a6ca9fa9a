import ScriptEngine.Proofs.Budget.Pauses
import ScriptEngine.Proofs.Coroutine.Yielding

/-!
# Runs in which yields are calls

A run may be given lists of values, which the coroutine's yielding functions
return one after the other in place of suspending it.  As far as none of them
yields it is the run of the machine.  A resume that ends with the coroutine
suspended by a yield has come by such a function.
-/

namespace ScriptEngine.Machine

variable {H : HostTypes} [Host H] {r : CoroutineRef} {m : Machine H}

/-- Takes steps until all is done.  What a function in the coroutine's outermost loop
yields is noted, and the function returns the next list, as long as there are lists. -/
def runAnswering (r : CoroutineRef) : Nat → List (List Value) → Machine H →
    Option (List Value × Except RuntimeError Value × World H)
  | 0, _, _ => none
  | fuel + 1, argss, m =>
      match m.control with
      | .finished result => some ([], result, m.core.world)
      | _ =>
          match m.yields? r, argss with
          | some v, args :: rest =>
              (runAnswering r fuel rest (m.answered args)).map fun x => (v :: x.1, x.2)
          | _, _ => runAnswering r fuel argss m.next

variable {fuel : Nat} {args : List Value} {argss : List (List Value)} {v : Value}

theorem runAnswering_finished {result : Except RuntimeError Value}
    (h : m.control = .finished result) (fuel : Nat) (argss : List (List Value)) :
    runAnswering r (fuel + 1) argss m = some ([], result, m.core.world) := by
  unfold runAnswering
  rw [h]

omit [Host H] in
theorem yields?_eq_none (h : ∀ v, m.control ≠ .running (.done (.yield v))) :
    m.yields? r = none := by
  cases hyields : m.yields? r with
  | none => rfl
  | some v => exact absurd (yields?_eq_some_iff.mp hyields).1 (h v)

omit [Host H] in
theorem yields?_of_finished {result : Except RuntimeError Value}
    (h : m.control = .finished result) : m.yields? r = none := by
  refine yields?_eq_none fun v hdone => ?_
  rw [h] at hdone
  cases hdone

theorem runAnswering_next (hgoing : ∀ result, m.control ≠ .finished result)
    (hquiet : m.yields? r = none) (fuel : Nat) (argss : List (List Value)) :
    runAnswering r (fuel + 1) argss m = runAnswering r fuel argss m.next := by
  conv =>
    lhs
    unfold runAnswering
  split
  · next result hfinished => exact absurd hfinished (hgoing result)
  · rw [hquiet]

/-- Anything but a yield is done as ever. -/
theorem runAnswering_running {a : Action H NativeOutcome} (hcontrol : m.control = .running a)
    (ha : ∀ v, a ≠ .done (.yield v)) (fuel : Nat) (argss : List (List Value)) :
    runAnswering r (fuel + 1) argss m = runAnswering r fuel argss m.next := by
  refine runAnswering_next ?_ (yields?_eq_none ?_) fuel argss
  · intro result hfinished
    rw [hcontrol] at hfinished
    cases hfinished
  · intro v hdone
    rw [hcontrol] at hdone
    exact ha v (Control.running.inj hdone)

theorem runAnswering_answered (m : Machine H) (args : List Value) (fuel : Nat)
    (argss : List (List Value)) :
    runAnswering r (fuel + 1) argss (m.answered args) =
      runAnswering r fuel argss (m.answered args).next :=
  runAnswering_running (a := .done (.result (.tupled args))) rfl nofun fuel argss

theorem runAnswering_answer (h : m.yields? r = some v) (fuel : Nat) :
    runAnswering r (fuel + 1) (args :: argss) m =
      (runAnswering r fuel argss (m.answered args)).map fun x => (v :: x.1, x.2) := by
  conv =>
    lhs
    unfold runAnswering
  split
  · next result hfinished =>
      rw [yields?_of_finished hfinished] at h
      cases h
  · rw [h]

/-- With no lists left it is the run of the machine. -/
theorem runAnswering_nil (fuel : Nat) (m : Machine H) :
    runAnswering r fuel [] m = (run fuel m).map fun x => ([], x) := by
  induction fuel generalizing m with
  | zero => rfl
  | succ fuel ih =>
      by_cases hfinished : ∃ result, m.control = .finished result
      · obtain ⟨result, hresult⟩ := hfinished
        rw [runAnswering_finished hresult]
        obtain ⟨core, activations, control⟩ := m
        obtain rfl : control = _ := hresult
        rfl
      · have hgoing : ∀ result, m.control ≠ .finished result :=
          fun result h => hfinished ⟨result, h⟩
        rw [run_succ fuel hgoing, ← ih]
        conv =>
          lhs
          unfold runAnswering
        split
        · next result hresult => exact absurd hresult (hgoing result)
        · cases m.yields? r <;> rfl

/-- In so many steps the coroutine does not yield, and the machine does not finish. -/
def Silent (m : Machine H) (r : CoroutineRef) (k : Nat) : Prop :=
  ∀ i < k, (∀ result, (m.after i).control ≠ .finished result) ∧ (m.after i).yields? r = none

theorem runAnswering_add {k : Nat} (h : m.Silent r k) (fuel : Nat)
    (argss : List (List Value)) :
    runAnswering r (fuel + k) argss m = runAnswering r fuel argss (m.after k) := by
  induction k generalizing m with
  | zero => rfl
  | succ k ih =>
      obtain ⟨hgoing, hquiet⟩ : (∀ result, m.control ≠ .finished result) ∧
          m.yields? r = none := h 0 (Nat.zero_lt_succ k)
      have hrest : m.next.Silent r k := by
        intro i hi
        rw [after_next]
        exact h (i + 1) (Nat.succ_lt_succ hi)
      rw [← Nat.add_assoc, runAnswering_next hgoing hquiet, ih hrest, after_next]

/-- What it comes to may take any number of steps. -/
theorem runAnswering_of_le {more : Nat} {x : List Value × Except RuntimeError Value × World H}
    (h : runAnswering r fuel argss m = some x) (hle : fuel ≤ more) :
    runAnswering r more argss m = some x := by
  induction fuel generalizing more argss m x with
  | zero => cases h
  | succ fuel ih =>
      obtain ⟨more, rfl⟩ := Nat.exists_eq_succ_of_ne_zero (Nat.ne_zero_of_lt hle)
      have hless := Nat.le_of_succ_le_succ hle
      by_cases hfinished : ∃ result, m.control = .finished result
      · obtain ⟨result, hresult⟩ := hfinished
        rw [runAnswering_finished hresult] at h ⊢
        exact h
      · have hgoing : ∀ result, m.control ≠ .finished result :=
          fun result h => hfinished ⟨result, h⟩
        cases hyields : m.yields? r with
        | none =>
            rw [runAnswering_next hgoing hyields] at h ⊢
            exact ih h hless
        | some v =>
            cases argss with
            | nil =>
                rw [runAnswering_nil] at h ⊢
                cases hrun : run (fuel + 1) m with
                | none =>
                    rw [hrun] at h
                    cases h
                | some y =>
                    rw [hrun] at h
                    rw [run_of_le hrun hle]
                    exact h
            | cons args argss =>
                rw [runAnswering_answer hyields] at h ⊢
                obtain ⟨y, hy, rfl⟩ := Option.map_eq_some_iff.mp h
                rw [ih hy hless]
                rfl

/-- The first yield of the coroutine comes after so many steps. -/
structure Speaks (m : Machine H) (r : CoroutineRef) (v : Value) (k : Nat) : Prop where
  silent : m.Silent r k
  yields : (m.after k).yields? r = some v

theorem runAnswering_of_speaks {k : Nat} (h : m.Speaks r v k) (fuel : Nat) :
    runAnswering r (fuel + 1 + k) (args :: argss) m =
      (runAnswering r fuel argss ((m.after k).answered args)).map
        fun x => (v :: x.1, x.2) := by
  rw [runAnswering_add h.silent, runAnswering_answer h.yields]

/-- A run that has used a list has come by a yield. -/
theorem speaks_of_runAnswering {vs : List Value} {x : Except RuntimeError Value × World H}
    (h : runAnswering r fuel (args :: argss) m = some (v :: vs, x)) :
    ∃ k rest, m.Speaks r v k ∧
      runAnswering r rest argss ((m.after k).answered args) = some (vs, x) := by
  induction fuel generalizing m with
  | zero => cases h
  | succ fuel ih =>
      by_cases hfinished : ∃ result, m.control = .finished result
      · obtain ⟨result, hresult⟩ := hfinished
        rw [runAnswering_finished hresult] at h
        cases h
      · have hgoing : ∀ result, m.control ≠ .finished result :=
          fun result h => hfinished ⟨result, h⟩
        cases hyields : m.yields? r with
        | none =>
            rw [runAnswering_next hgoing hyields] at h
            obtain ⟨k, rest, hspeaks, hrest⟩ := ih h
            have hyields' := hspeaks.yields
            rw [after_next] at hyields' hrest
            refine ⟨k + 1, rest, ⟨fun i hi => ?_, hyields'⟩, hrest⟩
            cases i with
            | zero => exact ⟨hgoing, hyields⟩
            | succ i =>
                have hsilent := hspeaks.silent i (Nat.lt_of_succ_lt_succ hi)
                rw [after_next] at hsilent
                exact hsilent
        | some v' =>
            rw [runAnswering_answer hyields] at h
            obtain ⟨y, hy, hsame⟩ := Option.map_eq_some_iff.mp h
            obtain ⟨vs', x'⟩ := y
            cases hsame
            exact ⟨0, fuel, ⟨fun i hi => absurd hi (Nat.not_lt_zero i), hyields⟩, hy⟩

/-- The first yield among so many steps, if there is one. -/
theorem speaks_or_silent (hgoing : ∀ result, ∀ i < fuel, (m.after i).control ≠ .finished result) :
    m.Silent r fuel ∨ ∃ k < fuel, ∃ v, m.Speaks r v k := by
  induction fuel with
  | zero => exact Or.inl fun i hi => absurd hi (Nat.not_lt_zero i)
  | succ k ih =>
      have hbefore := fun result i (hi : i < k) => hgoing result i (Nat.lt_succ_of_lt hi)
      rcases ih hbefore with hsilent | ⟨i, hi, hspeaks⟩
      · cases hyields : (m.after k).yields? r with
        | none =>
            refine Or.inl fun i hi => ?_
            rcases Nat.lt_or_eq_of_le (Nat.le_of_lt_succ hi) with hlt | rfl
            · exact hsilent i hlt
            · exact ⟨fun result => hgoing result i (Nat.lt_succ_self i), hyields⟩
        | some v => exact Or.inr ⟨k, Nat.lt_succ_self k, v, hsilent, hyields⟩
      · exact Or.inr ⟨i, Nat.lt_succ_of_lt hi, hspeaks⟩

/-! ## Where suspensions come from -/

/-- The outermost loop of the coroutine is innermost, or has just ended. -/
def InOutermostLoop (r : CoroutineRef) (activations : List (Activation H)) : Prop :=
  ∃ outer next rest, activations = .body :: .switch r outer next :: rest ∨
    activations = .switch r outer next :: rest

omit [Host H] in
theorem InOutermostLoop.isWorking {activations : List (Activation H)}
    (h : InOutermostLoop r activations) :
    IsWorking r activations := by
  obtain ⟨outer, next, rest, rfl | rfl⟩ := h <;> rfl

/-- Without a yield the coroutine does not get on the way of a suspension. -/
theorem steady_inOutermostLoop_next (hm : m.WellNested)
    (hfree : IsWorking r m.activations → m.core.proc.autoYield? = none)
    (h : InOutermostLoop r m.activations → m.control.Steady) (hquiet : m.yields? r = none)
    (houtermost : InOutermostLoop r m.next.activations) : m.next.control.Steady := by
  have hsteady (hbefore : InOutermostLoop r m.activations) : m.next.control.Steady := by
    refine steady_next (fun _ => affords_of_free (hfree hbefore.isWorking)) (h hbefore)
      fun v hdone => ?_
    have hfits := hm.control
    rw [hdone] at hfits
    obtain ⟨outer, next, rest, hbody | hswitch⟩ := hbefore
    · rw [yields?_eq_some_iff.mpr ⟨hdone, outer, next, rest, hbody⟩] at hquiet
      cases hquiet
    · rcases hfits.1 with hnil | hloop
      · rw [hswitch] at hnil
        cases hnil
      · rw [hswitch] at hloop
        exact InLoop.ne_switch hloop
  rcases next_cases m with hsteady' | hsame | ⟨rest, hbody, hrest⟩
  · exact hsteady'
  · exact hsteady (hsame ▸ houtermost)
  · refine hsteady ?_
    rw [hrest] at houtermost
    obtain ⟨outer, next, rest', rfl | rfl⟩ := houtermost
    · have hnested := hm.nested
      rw [hbody] at hnested
      cases hnested
    · exact ⟨outer, next, rest', Or.inl hbody⟩

variable [LawfulHost H]

/-- A coroutine that is suspended after a resume without a budget has yielded. -/
theorem HostResume.speaks_of_lands (h : m.HostResume r) (hsteady : m.control.Steady) {d : Nat}
    (hlands : m.Lands r d) {core : Core H} {v : Value}
    (hd : m.after d = ⟨core, [.switch r {} handing], .switching (.ok (.yielded v))⟩) :
    ∃ k < d, ∃ v, m.Speaks r v k := by
  have hresume {i : Nat} (hi : i ≤ d) : (m.after i).HostResume r :=
    h.after fun j hj => hlands.stays j (Nat.lt_of_lt_of_le hj hi)
  have hgoing : ∀ result, ∀ i < d, (m.after i).control ≠ .finished result :=
    fun result i hi => (hresume (Nat.le_of_lt hi)).going result
  refine (speaks_or_silent hgoing).resolve_left fun hsilent => ?_
  have hall : ∀ i ≤ d, InOutermostLoop r (m.after i).activations → (m.after i).control.Steady := by
    intro i
    induction i with
    | zero => exact fun _ _ => hsteady
    | succ i ih =>
        intro hi houtermost
        have hbefore := hresume (Nat.le_of_succ_le hi)
        exact steady_inOutermostLoop_next hbefore.reachable.wellNested hbefore.autoYield_eq
          (ih (Nat.le_of_succ_le hi)) (hsilent i hi).2 houtermost
  have hend := hall d (Nat.le_refl d)
  rw [hd] at hend
  exact (hend ⟨{}, handing, [], Or.inr rfl⟩).2 trivial

/-! ## Yields of a coroutine that the host has resumed -/

/-- The yield suspends the coroutine. -/
theorem HostResume.yields (h : m.HostResume r) (hyields : m.yields? r = some v) :
    m.Yields r v ∧ m.activations = [.body, .switch r {} handing] := by
  obtain ⟨hcontrol, outer, next, rest, hactivations⟩ := yields?_eq_some_iff.mp hyields
  have hloops := h.activations_eq hactivations fun exit hswitching => by
    rw [hcontrol] at hswitching
    cases hswitching
  have hworking : IsWorking r m.activations := by
    rw [hloops]
    rfl
  exact ⟨⟨hyields, h.canYield.of_isWorking hworking⟩, hloops⟩

/-- In the steps of the suspension the coroutine has not given way yet. -/
theorem HostResume.after_yield (h : m.HostResume r) (hyields : m.yields? r = some v) {frame : Frame}
    {rest : Stack Frame} (hpush : m.core.proc.frames = rest.push frame) :
    (m.after 3).HostResume r ∧ m.after 3 =
      ⟨⟨m.core.world, m.core.proc.setAside frame rest⟩, [.switch r {} handing],
        .switching (.ok (.yielded v))⟩ := by
  obtain ⟨hsuspends, hactivations⟩ := h.yields hyields
  refine ⟨h.after fun i hi => ?_, hsuspends.after_three h.reachable.wellFramed hpush hactivations⟩
  rintro ⟨⟨exit, hexit⟩, -⟩
  match i with
  | 0 =>
      change m.control = _ at hexit
      rw [(yields?_eq_some_iff.mp hyields).1] at hexit
      cases hexit
  | 1 =>
      change m.next.control = _ at hexit
      rw [hsuspends.next hpush] at hexit
      cases hexit
  | 2 =>
      rw [hsuspends.after_two h.reachable.wellFramed hpush] at hexit
      cases hexit

end ScriptEngine.Machine
