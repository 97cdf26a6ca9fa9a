import ScriptEngine.Proofs.Budget.HostResume
import ScriptEngine.Proofs.Coroutine.History

/-!
# One resume, with a budget and without

The machine with a budget does step for step what the machine without one does,
until the coroutine gives way or the budget is used up, whichever is first.  In
the latter case it gives way with its processor as it is.
-/

namespace ScriptEngine

variable {H : HostTypes} [Host H] {r : CoroutineRef} {n e : Nat}

theorem CoroutineState.after_ne_forceSuspended {exit : Except RuntimeError LoopExit}
    (h : exit ≠ .ok .forceYielded) :
    CoroutineState.after .running exit ≠ .forceSuspended := by
  rcases exit with e | exit
  · simp [CoroutineState.after]
  · cases exit with
    | forceYielded => exact absurd rfl h
    | _ => simp [CoroutineState.after]

namespace Machine

variable {m : Machine H}

variable [LawfulHost H]

/-! ## Side by side -/

/-- The machine with a budget of which so much has been used. -/
def budgeted (m : Machine H) (r : CoroutineRef) (n e : Nat) : Machine H :=
  m.metered r ⟨some n, e⟩

theorem HostResume.executes_budgeted (h : m.HostResume r) (hticks : m.Ticks r) (hroom : e < n) :
    (m.budgeted r n e).executes r = true := by
  have hmeter : meterFor r ⟨some n, e⟩ m.activations = some ⟨some n, e⟩ :=
    if_pos hticks.working
  have hcount := countInstruction_metered hticks.yieldable (k := ⟨some n, e⟩)
    fun b hb => Option.some.inj hb ▸ hroom
  rw [← hmeter] at hcount
  exact (hticks.metered ⟨some n, e⟩).executes (h.isWorking_iff.mpr hticks.working)
    (congrArg Prod.fst hcount)

theorem HostResume.next_budgeted (h : m.HostResume r) (hstays : ¬m.Departs r)
    (hroom : m.Ticks r → e < n) :
    (m.budgeted r n e).next =
      m.next.budgeted r n (e + ((m.budgeted r n e).executes r).toNat) := by
  by_cases hticks : m.Ticks r
  · rw [h.executes_budgeted hticks (hroom hticks)]
    exact next_metered_of_ticks hticks (h.autoYield_eq hticks.working) h.distinct
      fun b hb => Option.some.inj hb ▸ hroom hticks
  · have hexecutes : (m.budgeted r n e).executes r = false :=
      Bool.eq_false_iff.mpr fun hexecutes => hticks (h.ticks_of_executes hexecutes)
    rw [hexecutes]
    exact next_metered h.inFlight hstays hticks

theorem HostResume.executions_le (h : m.HostResume r) (hroom : m.Ticks r → e < n) (he : e ≤ n) :
    e + ((m.budgeted r n e).executes r).toNat ≤ n := by
  cases hexecutes : (m.budgeted r n e).executes r with
  | false => exact he
  | true => exact hroom (h.ticks_of_executes hexecutes)

/-- After so many steps the machines differ in nothing but the budget. -/
structure AgreesButMeter (m : Machine H) (r : CoroutineRef) (n k : Nat) : Prop where
  hostResume : (m.after k).HostResume r
  same : (m.budgeted r n 0).after k =
    (m.after k).budgeted r n ((m.budgeted r n 0).executions r k)
  room : (m.budgeted r n 0).executions r k ≤ n

/-- The budget is used up, and what comes next is an instruction. -/
structure Exhausts (m : Machine H) (r : CoroutineRef) (n k : Nat) : Prop
    extends m.AgreesButMeter r n k where
  ticks : (m.after k).Ticks r
  used : (m.budgeted r n 0).executions r k = n

omit [LawfulHost H] in
theorem AgreesButMeter.exhausts_or_lt {k : Nat} (h : m.AgreesButMeter r n k) :
    m.Exhausts r n k ∨
      ((m.after k).Ticks r → (m.budgeted r n 0).executions r k < n) := by
  rcases Nat.lt_or_eq_of_le h.room with hlt | hused
  · exact Or.inr fun _ => hlt
  · by_cases hticks : (m.after k).Ticks r
    · exact Or.inl ⟨h, hticks, hused⟩
    · exact Or.inr fun hyes => absurd hyes hticks

/-- As long as the coroutine stays, the machines agree but for the meter, unless the budget is
used up on the way. -/
theorem HostResume.agreesButMeter (h : m.HostResume r) {k : Nat}
    (hstays : ∀ i < k, ¬(m.after i).Departs r) :
    m.AgreesButMeter r n k ∨ ∃ i < k, m.Exhausts r n i := by
  induction k with
  | zero => exact Or.inl ⟨h, rfl, Nat.zero_le n⟩
  | succ k ih =>
      rcases ih fun i hi => hstays i (Nat.lt_succ_of_lt hi) with hk | ⟨i, hi, hexhausts⟩
      · have hdeparts := hstays k (Nat.lt_succ_self k)
        rcases hk.exhausts_or_lt with hexhausts | hroom
        · exact Or.inr ⟨k, Nat.lt_succ_self k, hexhausts⟩
        · have hsame := hk.hostResume.next_budgeted hdeparts hroom
          have hle := hk.hostResume.executions_le hroom hk.room
          rw [← hk.same] at hsame hle
          exact Or.inl ⟨hk.hostResume.next hdeparts, hsame, hle⟩
      · exact Or.inr ⟨i, Nat.lt_succ_of_lt hi, hexhausts⟩

/-! ## Giving way -/

/-- The coroutine gives way after so many steps, not before. -/
structure Lands (m : Machine H) (r : CoroutineRef) (k : Nat) : Prop where
  departs : (m.after k).Departs r
  stays : ∀ i < k, ¬(m.after i).Departs r

omit [LawfulHost H] in
theorem lands_or_stays (m : Machine H) (r : CoroutineRef) (k : Nat) :
    (∀ i < k, ¬(m.after i).Departs r) ∨ ∃ d < k, m.Lands r d := by
  induction k with
  | zero => exact Or.inl fun i hi => absurd hi (Nat.not_lt_zero i)
  | succ k ih =>
      rcases ih with hstays | ⟨d, hd, hlands⟩
      · by_cases hdeparts : (m.after k).Departs r
        · exact Or.inr ⟨k, Nat.lt_succ_self k, hdeparts, hstays⟩
        · refine Or.inl fun i hi => ?_
          rcases Nat.lt_or_eq_of_le (Nat.le_of_lt_succ hi) with hlt | rfl
          · exact hstays i hlt
          · exact hdeparts
      · exact Or.inr ⟨d, Nat.lt_succ_of_lt hd, hlands⟩

theorem HostResume.lands_of_finished (h : m.HostResume r) {k : Nat}
    {result : Except RuntimeError Value} (hfinished : (m.after k).control = .finished result) :
    ∃ d < k, m.Lands r d := by
  rcases lands_or_stays m r k with hstays | hlands
  · exact absurd hfinished ((h.after hstays).going result)
  · exact hlands

omit [LawfulHost H] in
/-- The host gets what the coroutine gave way with. -/
theorem after_switching (core : Core H) (exit : Except RuntimeError LoopExit) :
    after ⟨core, [.switch r {} handing], .switching exit⟩ 2 =
      ⟨⟨core.world.release r core.proc exit, {}⟩, [],
        .finished (exit.map LoopExit.value)⟩ := by
  cases exit <;> rfl

omit [LawfulHost H] in
theorem after_finished (core : Core H) (activations : List (Activation H))
    (result : Except RuntimeError Value) (k : Nat) :
    after ⟨core, activations, .finished result⟩ k =
      ⟨core, activations, .finished result⟩ := by
  induction k with
  | zero => rfl
  | succ k ih =>
      change (after _ k).next = _
      rw [ih]
      rfl

omit [LawfulHost H] in
theorem not_executes_of_switching (core : Core H) (exit : Except RuntimeError LoopExit)
    (k : Nat) :
    (after ⟨core, [.switch r {} handing], .switching exit⟩ k).executes r = false := by
  match k with
  | 0 => rfl
  | 1 => rfl
  | k + 2 =>
      rw [Nat.add_comm, after_add, after_switching, after_finished]
      rfl

theorem Exhausts.usedUp {k : Nat} (h : m.Exhausts r n k) :
    ((m.budgeted r n 0).after k).UsedUp r n [.switch r {} handing] := by
  have hdistinct := h.hostResume.distinct
  have hloops := h.hostResume.activations_of_ticks h.ticks
  rw [h.same, h.used]
  refine ⟨h.ticks.metered _, metered_metered _ _ _, ?_, ?_⟩
  · exact (switches_meteredOn _).symm ▸ hdistinct
  · exact (meteredOn_of_working h.ticks.working hdistinct).trans hloops

theorem Exhausts.after_three {k : Nat} (h : m.Exhausts r n k) :
    (m.budgeted r n 0).after (k + 3) =
      ⟨⟨(m.after k).core.world, (m.after k).core.proc.idle.metered (some ⟨some n, 0⟩)⟩,
        [.switch r {} handing], .switching (.ok .forceYielded)⟩ := by
  have hmeter : meterFor r ⟨some n, n⟩ (m.after k).activations = some ⟨some n, n⟩ :=
    if_pos h.ticks.working
  rw [after_add, h.usedUp.after_three, h.same, h.used]
  unfold budgeted metered
  rw [hmeter]
  rfl

/-- A coroutine whose budget is used up gives way with everything it has. -/
theorem Exhausts.after_five {k : Nat} (h : m.Exhausts r n k) :
    (m.budgeted r n 0).after (k + 5) =
      ⟨⟨(m.after k).core.world.release r
          ((m.after k).core.proc.idle.metered (some ⟨some n, 0⟩)) (.ok .forceYielded), {}⟩,
        [], .finished (.ok .void)⟩ := by
  rw [show k + 5 = k + 3 + 2 from rfl, after_add, h.after_three, after_switching]
  rfl

theorem Exhausts.not_executes {k : Nat} (h : m.Exhausts r n k) (i : Nat) :
    (((m.budgeted r n 0).after k).after i).executes r = false := by
  rcases Nat.lt_or_ge i 4 with hi | hi
  · exact h.usedUp.not_executes hi
  · obtain ⟨j, rfl⟩ := Nat.exists_eq_add_of_le hi
    rw [show 4 + j = 3 + (1 + j) by omega, after_add, h.usedUp.after_three]
    exact not_executes_of_switching _ _ _

theorem Exhausts.executions {k : Nat} (h : m.Exhausts r n k) (i : Nat) :
    (m.budgeted r n 0).executions r (k + i) = n := by
  rw [executions_add, h.used, executions_of_not_executes fun j _ => h.not_executes j]
  rfl

/-- What the coroutine gives way with. -/
theorem AgreesButMeter.departing {k : Nat} (h : m.AgreesButMeter r n k)
    (hdeparts : (m.after k).Departs r) :
    ∃ core exit e, exit ≠ .ok .forceYielded ∧
      m.after k = ⟨core, [.switch r {} handing], .switching exit⟩ ∧
      (m.budgeted r n 0).after k =
        ⟨core.metered (some ⟨some n, e⟩), [.switch r {} handing], .switching exit⟩ := by
  obtain ⟨exit, hexit, hsame⟩ := h.hostResume.departing hdeparts
  refine ⟨(m.after k).core, exit, (m.budgeted r n 0).executions r k, hexit, hsame, ?_⟩
  have hmeter (e : Nat) :
      meterFor r ⟨some n, e⟩ [.switch r {} (handing (H := H))] = some ⟨some n, e⟩ :=
    if_pos rfl
  rw [h.same, hsame]
  unfold budgeted metered
  rw [hmeter]
  rfl

/-- No resume executes more than its budget. -/
theorem HostResume.executions_budgeted_le (h : m.HostResume r) (k : Nat) :
    (m.budgeted r n 0).executions r k ≤ n := by
  have hexhausts {i : Nat} (hi : i ≤ k) (hexhausts : m.Exhausts r n i) :
      (m.budgeted r n 0).executions r k ≤ n := by
    obtain ⟨j, rfl⟩ := Nat.exists_eq_add_of_le hi
    exact Nat.le_of_eq (hexhausts.executions j)
  rcases lands_or_stays m r k with hstays | ⟨d, hd, hlands⟩
  · rcases h.agreesButMeter hstays with hagrees | ⟨i, hi, hdue⟩
    · exact hagrees.room
    · exact hexhausts (Nat.le_of_lt hi) hdue
  · rcases h.agreesButMeter (n := n) hlands.stays with hagrees | ⟨i, hi, hdue⟩
    · obtain ⟨core, exit, e, -, -, hbudgeted⟩ := hagrees.departing hlands.departs
      obtain ⟨j, rfl⟩ := Nat.exists_eq_add_of_le (Nat.le_of_lt hd)
      rw [executions_add, hbudgeted, executions_of_not_executes fun i _ =>
        not_executes_of_switching _ _ i]
      exact hagrees.room
    · exact hexhausts (Nat.le_of_lt (Nat.lt_trans hi hd)) hdue

/-! ## Runs to the end -/

omit [LawfulHost H] in
theorem run_eq_some_iff {fuel : Nat} {result : Except RuntimeError Value} {w : World H} :
    run fuel m = some (result, w) ↔
      ∃ k < fuel, (m.after k).control = .finished result ∧ (m.after k).core.world = w := by
  induction fuel generalizing m with
  | zero =>
      constructor
      · intro hrun
        cases hrun
      · rintro ⟨k, hk, -⟩
        exact absurd hk (Nat.not_lt_zero k)
  | succ fuel ih =>
      by_cases hfinished : ∃ result, m.control = .finished result
      · obtain ⟨core, activations, control⟩ := m
        obtain ⟨result', rfl⟩ := hfinished
        constructor
        · intro hrun
          cases hrun
          exact ⟨0, Nat.zero_lt_succ fuel, rfl, rfl⟩
        · rintro ⟨k, -, hresult, hw⟩
          -- A finished machine stays as it is.
          rw [after_finished] at hresult hw
          cases hresult
          cases hw
          rfl
      · have hgoing : ∀ result, m.control ≠ .finished result :=
          fun result hresult => hfinished ⟨result, hresult⟩
        rw [run_succ fuel hgoing, ih]
        constructor
        · rintro ⟨k, hk, hresult⟩
          rw [after_next] at hresult
          exact ⟨k + 1, Nat.succ_lt_succ hk, hresult⟩
        · rintro ⟨k, hk, hresult⟩
          cases k with
          | zero => exact absurd hresult.1 (hgoing result)
          | succ k =>
              rw [← after_next] at hresult
              exact ⟨k, Nat.lt_of_succ_lt_succ hk, hresult⟩

omit [LawfulHost H] in
theorem run_add (fuel : Nat) {k : Nat}
    (h : ∀ i < k, ∀ result, (m.after i).control ≠ .finished result) :
    run (fuel + k) m = run fuel (m.after k) := by
  induction k generalizing m with
  | zero => rfl
  | succ k ih =>
      have hgoing : ∀ result, m.control ≠ .finished result := h 0 (Nat.zero_lt_succ k)
      rw [← Nat.add_assoc, run_succ _ hgoing, ih, after_next]
      intro i hi
      rw [after_next]
      exact h (i + 1) (Nat.succ_lt_succ hi)

omit [LawfulHost H] in
theorem run_unique {a b : Nat} {x y : Except RuntimeError Value × World H}
    (ha : run a m = some x) (hb : run b m = some y) : x = y := by
  have hx := run_of_le ha (Nat.le_max_left a b)
  have hy := run_of_le hb (Nat.le_max_right a b)
  rw [hx] at hy
  exact Option.some.inj hy

omit [LawfulHost H] in
theorem run_of_after {k : Nat} {core : Core H} {activations : List (Activation H)}
    {result : Except RuntimeError Value}
    (h : m.after k = ⟨core, activations, .finished result⟩) :
    run (k + 1) m = some (result, core.world) := by
  refine run_eq_some_iff.mpr ⟨k, Nat.lt_succ_self k, ?_⟩
  rw [h]
  exact ⟨rfl, rfl⟩

omit [LawfulHost H] in
/-- What has finished stays so. -/
theorem lt_of_finished {i k : Nat} {result : Except RuntimeError Value}
    (hk : (m.after k).control = .finished result)
    (hi : (m.after i).control ≠ .finished result) : i < k := by
  refine Nat.lt_of_not_le fun hle => hi ?_
  obtain ⟨j, rfl⟩ := Nat.exists_eq_add_of_le hle
  rw [after_add]
  generalize m.after k = m' at hk
  obtain ⟨core, activations, control⟩ := m'
  obtain rfl : control = .finished result := hk
  rw [after_finished]

/-! ## How a resume with a budget ends -/

/-- The coroutine gives way of its own, or its budget is used up before. -/
inductive Stops (m : Machine H) (r : CoroutineRef) (n : Nat) : Prop where
  | lands (d : Nat) (h : m.AgreesButMeter r n d) (hdeparts : (m.after d).Departs r)
  | exhausts (i : Nat) (h : m.Exhausts r n i)

theorem HostResume.stops_of_finished (h : m.HostResume r) {k : Nat}
    {result : Except RuntimeError Value} (hfinished : (m.after k).control = .finished result) :
    m.Stops r n := by
  obtain ⟨d, -, hlands⟩ := h.lands_of_finished hfinished
  rcases h.agreesButMeter (n := n) hlands.stays with hagrees | ⟨i, -, hexhausts⟩
  · exact .lands d hagrees hlands.departs
  · exact .exhausts i hexhausts

theorem HostResume.stops_of_budgeted (h : m.HostResume r) {k : Nat}
    {result : Except RuntimeError Value}
    (hfinished : ((m.budgeted r n 0).after k).control = .finished result) : m.Stops r n := by
  rcases lands_or_stays m r k with hstays | ⟨d, -, hlands⟩
  · rcases h.agreesButMeter (n := n) hstays with hagrees | ⟨i, -, hexhausts⟩
    · rw [hagrees.same] at hfinished
      exact absurd hfinished (hagrees.hostResume.going result)
    · exact .exhausts i hexhausts
  · rcases h.agreesButMeter (n := n) hlands.stays with hagrees | ⟨i, -, hexhausts⟩
    · exact .lands d hagrees hlands.departs
    · exact .exhausts i hexhausts

omit [LawfulHost H] in
/-- The budget is used up by instructions. -/
theorem Exhausts.pos {i : Nat} (h : m.Exhausts r n i) (hn : 0 < n) : 0 < i := by
  cases i with
  | zero =>
      have hused : 0 = n := h.used
      exact absurd hn (hused ▸ Nat.lt_irrefl 0)
  | succ i => exact Nat.zero_lt_succ i

end Machine

end ScriptEngine
