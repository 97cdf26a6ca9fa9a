import ScriptEngine.Proofs.Budget.Resumes

/-!
# Sessions with a coroutine

A host resumes a coroutine again and again, with whatever arguments it likes.
With a budget it has to resume more often, since it answers every forced
suspension with a resume without arguments.  When these are left out nothing
tells the session from one without a budget: neither the results nor the worlds.
Each resume executes as many instructions in the outermost loop of the coroutine
as the budget has, unless the coroutine gives way before.
-/

namespace ScriptEngine.World

variable {H : HostTypes} [Host H]

/-! ## Resuming -/

/-- A resume ends. -/
def Resumes (r : CoroutineRef) (w : World H) (args : List Value)
    (result : Except RuntimeError Value) (w' : World H) : Prop :=
  ∃ fuel, w.resume fuel r args = some (result, w')

/-- A resume ends, with one without arguments after every forced suspension. -/
inductive Drives (r : CoroutineRef) :
    World H → List Value → Except RuntimeError Value → World H → Prop where
  | ends {w w' : World H} {args : List Value} {result : Except RuntimeError Value}
      (h : w.Resumes r args result w') (hdone : ¬Interrupted r result w') :
      Drives r w args result w'
  | again {w w' w'' : World H} {args : List Value}
      {result result' : Except RuntimeError Value}
      (h : w.Resumes r args result w') (hforced : Interrupted r result w')
      (hrest : Drives r w' [] result' w'') : Drives r w args result' w''

/-- A host goes through a list of arguments and gets a list of results. -/
inductive Session
    (exchange : World H → List Value → Except RuntimeError Value → World H → Prop) :
    World H → List (List Value) → List (Except RuntimeError Value) → World H → Prop where
  | done (w : World H) : Session exchange w [] [] w
  | goesOn {w w' w'' : World H} {args : List Value} {result : Except RuntimeError Value}
      {argss : List (List Value)} {results : List (Except RuntimeError Value)}
      (h : exchange w args result w') (hrest : Session exchange w' argss results w'') :
      Session exchange w (args :: argss) (result :: results) w''

/-- The worlds between the resumes of a coroutine. -/
inductive Visits (r : CoroutineRef) (w : World H) : World H → Prop where
  | refl : Visits r w w
  | resume {w' w'' : World H} {args : List Value} {result : Except RuntimeError Value}
      (h : Visits r w w') (hresume : w'.Resumes r args result w'') : Visits r w w''

/-- The instructions that the first steps of a resume execute in the outermost loop of the
coroutine. -/
def executions (w : World H) (r : CoroutineRef) (args : List Value) (steps : Nat) : Nat :=
  (w.resuming r args).executions r steps

variable {r : CoroutineRef} {w w' : World H} {c : Coroutine} {p : Processor}
  {args : List Value} {n e fuel : Nat} {result : Except RuntimeError Value}

/-- What a resume with a budget leaves, compared with the one without. -/
inductive Compares (w : World H) (r : CoroutineRef) (args : List Value) (n spent : Nat)
    (result : Except RuntimeError Value) (w₁ : World H) : Prop where
  | alike (hdone : ¬Interrupted r result w₁) (h : w.Resumes r args result w₁)
  | interrupted (hforced : Interrupted r result w₁) (hspent : spent = n) (k : Nat)
      (hk : 0 < k) (h : ∀ fuel, w.resume (fuel + k) r args = w₁.resume fuel r [])

theorem Unmetered.refused (h : w.Unmetered r c p) {e' : RuntimeError}
    (hrefusal : w.resumeRefusal? r args = some e')
    (hrun : (w.metered r ⟨some n, e⟩).resume fuel r args = some (result, w')) :
    result = .error e' ∧ w' = w.metered r ⟨some n, e⟩ := by
  have hmetered := (resumeRefusal?_metered (k := ⟨some n, e⟩) h.found args).trans hrefusal
  have hsame := Machine.run_unique hrun (Machine.run_of_after (resuming_refused hmetered))
  exact ⟨congrArg Prod.fst hsame, congrArg Prod.snd hsame⟩

/-- An accepted resume comes to the end of the machine it launches. -/
theorem launch_finishes (haccepted : w.resumeRefusal? r args = none)
    (hrun : w.resume fuel r args = some (result, w')) :
    ∃ k, ((w.launch r args).after k).control = .finished result ∧ k + 1 < fuel := by
  rw [resume_eq] at hrun
  obtain ⟨k, hk, hresult, -⟩ := Machine.run_eq_some_iff.mp hrun
  cases k with
  | zero => cases hresult
  | succ k =>
      rw [← Machine.after_next, resuming_next haccepted] at hresult
      exact ⟨k, hresult, hk⟩

theorem resumes_of_after {k : Nat}
    (h : (w.resuming r args).after k = ⟨⟨w', {}⟩, [], .finished result⟩) :
    w.Resumes r args result w' := by
  refine ⟨k + 1, ?_⟩
  rw [resume_eq, Machine.run_of_after h]

theorem resumes_of_launch (haccepted : w.resumeRefusal? r args = none) {k : Nat}
    (h : (w.launch r args).after k = ⟨⟨w', {}⟩, [], .finished result⟩) :
    w.Resumes r args result w' := by
  rw [← resuming_next haccepted, Machine.after_next] at h
  exact resumes_of_after h

theorem Resumes.unique {result' : Except RuntimeError Value} {w'' : World H}
    (h : w.Resumes r args result w') (h' : w.Resumes r args result' w'') :
    result = result' ∧ w' = w'' := by
  obtain ⟨a, ha⟩ := h
  obtain ⟨b, hb⟩ := h'
  have hsame := Machine.run_unique ha hb
  exact ⟨congrArg Prod.fst hsame, congrArg Prod.snd hsame⟩

variable [LawfulHost H]

/-- After a forced suspension the next resume does the rest. -/
theorem resume_interrupted (haccepted : w.resumeRefusal? r args = none)
    {i : Nat} (hexhausts : (w.launch r args).Exhausts r n i) {w₁ : World H}
    (haccepted₁ : w₁.resumeRefusal? r [] = none)
    (hlaunch : w₁.launch r [] = (w.launch r args).after i) (fuel : Nat) :
    w.resume (fuel + i) r args = w₁.resume fuel r [] := by
  have hgoing (j : Nat) (hj : j < i + 1) (result : Except RuntimeError Value) :
      ((w.resuming r args).after j).control ≠ .finished result := by
    intro hfinished
    have hlt : i + 1 < j := by
      refine Machine.lt_of_finished hfinished ?_
      rw [← Machine.after_next, resuming_next haccepted]
      exact hexhausts.hostResume.going result
    exact absurd hj (Nat.not_lt_of_lt hlt)
  rw [resume_eq, resume_eq]
  cases fuel with
  | zero =>
      rw [Machine.run_add 0 fun j hj => hgoing j (Nat.lt_succ_of_lt hj)]
      rfl
  | succ fuel =>
      have hstart (result : Except RuntimeError Value) :
          (w₁.resuming r []).control ≠ .finished result := by
        intro hfinished
        cases hfinished
      rw [show fuel + 1 + i = fuel + (i + 1) by omega, Machine.run_add fuel hgoing,
        Machine.run_succ fuel hstart, resuming_next haccepted₁, hlaunch,
        ← Machine.after_next, resuming_next haccepted]

omit [LawfulHost H] in
theorem executions_launch (haccepted : w.resumeRefusal? r args = none) (k : Nat) :
    w.executions r args (k + 1) = (w.launch r args).executions r k := by
  have hstart : (w.resuming r args).executions r 1 = 0 := rfl
  unfold executions
  rw [Nat.add_comm, Machine.executions_add, hstart, ← resuming_next haccepted]
  exact Nat.zero_add _

/-- A resume that was interrupted has executed as many instructions as the budget has. -/
theorem executions_interrupted (haccepted : w.resumeRefusal? r args = none)
    {m : Machine H} (hlaunch : w.launch r args = m.budgeted r n 0) {i : Nat}
    (hexhausts : m.Exhausts r n i) (hi : i < fuel) : w.executions r args fuel = n := by
  obtain ⟨j, rfl⟩ := Nat.exists_eq_add_of_lt hi
  rw [executions_launch haccepted, hlaunch, hexhausts.executions]

/-- A resume with a budget against the one without. -/
theorem Unmetered.compares (h : w.Unmetered r c p) (hn : 0 < n)
    (hrun : (w.metered r ⟨some n, e⟩).resume fuel r args = some (result, w')) :
    ∃ w₁ c₁ p₁ e₁, w₁.Unmetered r c₁ p₁ ∧ w' = w₁.metered r ⟨some n, e₁⟩ ∧
      w.Compares r args n ((w.metered r ⟨some n, e⟩).executions r args fuel) result w₁ := by
  have hrefusal := resumeRefusal?_metered (k := ⟨some n, e⟩) h.found args
  cases haccepted : w.resumeRefusal? r args with
  | some e' =>
      obtain ⟨rfl, rfl⟩ := h.refused haccepted hrun
      refine ⟨w, c, p, e, h, rfl, .alike ?_ (resumes_of_after (resuming_refused haccepted))⟩
      rintro ⟨⟨v, hv⟩, -⟩
      cases hv
  | none =>
      rw [haccepted] at hrefusal
      have hresume := h.toRests.hostResume h.free haccepted
      have hlaunch := h.toRests.launch_metered args n e
      obtain ⟨k, hk, hfuel⟩ := launch_finishes hrefusal hrun
      rw [hlaunch] at hk
      cases hresume.stops_of_budgeted hk with
      | lands d hagrees hdeparts =>
          obtain ⟨core, exit, e₁, hexit, hd, hbudgeted⟩ := hagrees.departing hdeparts
          obtain ⟨c₁, hrests, hstate⟩ := h.landed haccepted hagrees.hostResume hd
          have hends : (w.metered r ⟨some n, e⟩).Resumes r args (exit.map LoopExit.value)
              ((core.world.release r core.proc exit).metered r ⟨some n, e₁⟩) := by
            refine resumes_of_launch (k := d + 2) hrefusal ?_
            rw [hlaunch, Machine.after_add, hbudgeted, Machine.after_switching,
              release_metered]
            rfl
          obtain ⟨rfl, rfl⟩ := Resumes.unique ⟨_, hrun⟩ hends
          refine ⟨_, c₁, core.proc, e₁, hrests, rfl, .alike ?_ ?_⟩
          · rintro ⟨-, hforced⟩
            rw [coroutine_of_coroutine? hrests.found, hstate] at hforced
            exact CoroutineState.after_ne_forceSuspended hexit hforced
          · refine resumes_of_launch (k := d + 2) haccepted ?_
            rw [Machine.after_add, hd, Machine.after_switching]
      | exhausts i hexhausts =>
          obtain ⟨c₁, hrests, hstate, haccepted₁, hlaunch₁⟩ :=
            h.paused haccepted hexhausts rfl rfl
          have hend := hexhausts.after_five
          rw [← hlaunch] at hend
          have hends := resumes_of_launch hrefusal hend
          obtain ⟨rfl, rfl⟩ := Resumes.unique ⟨_, hrun⟩ hends
          refine ⟨_, c₁, _, 0, hrests, (release_metered _ _ _).symm,
            .interrupted ⟨⟨_, rfl⟩, ?_⟩ ?_ i (hexhausts.pos hn)
              (resume_interrupted haccepted hexhausts haccepted₁ hlaunch₁)⟩
          · rw [coroutine_of_coroutine? hrests.found, hstate]
          · have hi : i < k := by
              refine Machine.lt_of_finished hk ?_
              rw [hexhausts.same]
              exact hexhausts.hostResume.going _
            exact executions_interrupted hrefusal hlaunch hexhausts (by omega)

/-- A resume that ends without a budget ends with one. -/
theorem Unmetered.ends_metered (h : w.Unmetered r c p)
    (hresume : w.Resumes r args result w') (n e : Nat) :
    ∃ result₁ w₁, (w.metered r ⟨some n, e⟩).Resumes r args result₁ w₁ := by
  have hrefusal := resumeRefusal?_metered (k := ⟨some n, e⟩) h.found args
  obtain ⟨fuel, hrun⟩ := hresume
  cases haccepted : w.resumeRefusal? r args with
  | some e' => exact ⟨_, _, resumes_of_after (resuming_refused (hrefusal.trans haccepted))⟩
  | none =>
      rw [haccepted] at hrefusal
      have hlaunch := h.toRests.launch_metered args n e
      obtain ⟨k, hk, -⟩ := launch_finishes haccepted hrun
      cases (h.toRests.hostResume h.free haccepted).stops_of_finished (n := n) hk with
      | lands d hagrees hdeparts =>
          obtain ⟨core, exit, e₁, -, -, hbudgeted⟩ := hagrees.departing hdeparts
          have hend := Machine.after_switching (r := r) (core.metered (some ⟨some n, e₁⟩)) exit
          rw [← hbudgeted, ← Machine.after_add, ← hlaunch] at hend
          exact ⟨_, _, resumes_of_launch hrefusal hend⟩
      | exhausts i hexhausts =>
          have hend := hexhausts.after_five
          rw [← hlaunch] at hend
          exact ⟨_, _, resumes_of_launch hrefusal hend⟩

/-! ## Leaving out the forced suspensions -/

omit [Host H] [LawfulHost H] in
theorem interrupted_metered (h : w.coroutine? r = some c) {k : Meter} :
    Interrupted r result (w.metered r k) ↔ Interrupted r result w := by
  unfold Interrupted
  rw [coroutine_of_coroutine? (coroutine?_metered_self h), coroutine_of_coroutine? h]

/-- The world of a session with a budget and the one of the session without. -/
def Shadows (r : CoroutineRef) (n : Nat) (w w' : World H) : Prop :=
  ∃ c p e, w.Unmetered r c p ∧ w' = w.metered r ⟨some n, e⟩

theorem Shadows.drives {v : World H} (h : Shadows r n w w') (hn : 0 < n)
    (hresume : w.Resumes r args result v) :
    ∃ v', Shadows r n v v' ∧ Drives r w' args result v' := by
  obtain ⟨fuel, hrun⟩ := hresume
  -- On the fuel: what an interrupted resume leaves to do is a shorter run of the unlimited
  -- coroutine.
  induction fuel using Nat.strongRecOn generalizing w w' args with
  | ind fuel ih =>
      obtain ⟨c, p, e, hrests, rfl⟩ := h
      obtain ⟨result₁, w₁', fuel', hrun'⟩ := hrests.ends_metered ⟨fuel, hrun⟩ n e
      obtain ⟨w₁, c₁, p₁, e₁, hrests₁, rfl, hcompares⟩ := hrests.compares hn hrun'
      cases hcompares with
      | alike hdone hsame =>
          obtain ⟨rfl, rfl⟩ := hsame.unique ⟨fuel, hrun⟩
          refine ⟨_, ⟨c₁, p₁, e₁, hrests₁, rfl⟩, .ends ⟨fuel', hrun'⟩ ?_⟩
          exact fun hforced => hdone ((interrupted_metered hrests₁.found).mp hforced)
      | interrupted hforced hspent k hk hrest =>
          have hlt : k ≤ fuel := by
            refine Nat.le_of_not_lt fun hlt => ?_
            have hnone : w.resume (0 + k) r args = some (result, v) :=
              Machine.run_of_le hrun (by omega)
            rw [hrest] at hnone
            cases hnone
          obtain ⟨rest, rfl⟩ := Nat.exists_eq_add_of_le' hlt
          rw [hrest] at hrun
          obtain ⟨v', hshadows, hdrives⟩ :=
            ih rest (Nat.lt_add_of_pos_right hk) ⟨c₁, p₁, e₁, hrests₁, rfl⟩ hrun
          exact ⟨v', hshadows, .again ⟨fuel', hrun'⟩
            ((interrupted_metered hrests₁.found).mpr hforced) hdrives⟩

theorem Drives.shadowed {v' : World H} (h : Drives r w' args result v')
    (hshadows : Shadows r n w w') (hn : 0 < n) :
    ∃ v, Shadows r n v v' ∧ w.Resumes r args result v := by
  induction h generalizing w with
  | ends hresume hdone =>
      obtain ⟨fuel, hrun⟩ := hresume
      obtain ⟨c, p, e, hrests, rfl⟩ := hshadows
      obtain ⟨w₁, c₁, p₁, e₁, hrests₁, rfl, hcompares⟩ := hrests.compares hn hrun
      cases hcompares with
      | alike _ hsame => exact ⟨w₁, ⟨c₁, p₁, e₁, hrests₁, rfl⟩, hsame⟩
      | interrupted hforced =>
          exact absurd ((interrupted_metered hrests₁.found).mpr hforced) hdone
  | again hresume hforced hrest ih =>
      obtain ⟨fuel, hrun⟩ := hresume
      obtain ⟨c, p, e, hrests, rfl⟩ := hshadows
      obtain ⟨w₁, c₁, p₁, e₁, hrests₁, rfl, hcompares⟩ := hrests.compares hn hrun
      cases hcompares with
      | alike hdone =>
          exact absurd ((interrupted_metered hrests₁.found).mp hforced) hdone
      | interrupted _ hspent k hk hsame =>
          obtain ⟨v, hshadows, fuel', hrun'⟩ := ih ⟨c₁, p₁, e₁, hrests₁, rfl⟩
          exact ⟨v, hshadows, fuel' + k, (hsame fuel').trans hrun'⟩

variable {argss : List (List Value)} {results : List (Except RuntimeError Value)}

theorem Shadows.session {v : World H} (h : Shadows r n w w') (hn : 0 < n)
    (hsession : Session (Resumes r) w argss results v) :
    ∃ v', Shadows r n v v' ∧ Session (Drives r) w' argss results v' := by
  induction hsession generalizing w' with
  | done w => exact ⟨w', h, .done w'⟩
  | goesOn hresume hrest ih =>
      obtain ⟨v', hshadows, hdrives⟩ := h.drives hn hresume
      obtain ⟨v'', hshadows', hsession⟩ := ih hshadows
      exact ⟨v'', hshadows', .goesOn hdrives hsession⟩

theorem Session.shadowed {v' : World H} (h : Session (Drives r) w' argss results v')
    (hshadows : Shadows r n w w') (hn : 0 < n) :
    ∃ v, Shadows r n v v' ∧ Session (Resumes r) w argss results v := by
  induction h generalizing w with
  | done w' => exact ⟨w, hshadows, .done w⟩
  | goesOn hdrives hrest ih =>
      obtain ⟨v, hshadows, hresume⟩ := hdrives.shadowed hshadows hn
      obtain ⟨v', hshadows', hsession⟩ := ih hshadows
      exact ⟨v', hshadows', .goesOn hresume hsession⟩

/-! ## Instructions of a resume -/

theorem Shadows.executions_le (h : Shadows r n w w') (args : List Value) (steps : Nat) :
    w'.executions r args steps ≤ n := by
  obtain ⟨c, p, e, hrests, rfl⟩ := h
  have hrefusal := resumeRefusal?_metered (k := ⟨some n, e⟩) hrests.found args
  cases haccepted : w.resumeRefusal? r args with
  | some e' =>
      rw [haccepted] at hrefusal
      have hquiet : (w.metered r ⟨some n, e⟩).executions r args steps = 0 := by
        refine Machine.executions_of_not_executes fun i _ => ?_
        match i with
        | 0 => rfl
        | 1 =>
            change Machine.executes (resuming _ r args).next r = false
            rw [resuming_next_refused hrefusal]
            rfl
        | i + 2 =>
            rw [Nat.add_comm, Machine.after_add, resuming_refused hrefusal,
              Machine.after_finished]
            rfl
      rw [hquiet]
      exact Nat.zero_le n
  | none =>
      rw [haccepted] at hrefusal
      cases steps with
      | zero => exact Nat.zero_le n
      | succ steps =>
          rw [executions_launch hrefusal, hrests.toRests.launch_metered]
          exact (hrests.toRests.hostResume hrests.free haccepted).executions_budgeted_le steps

theorem Shadows.visits {v' : World H} (h : Shadows r n w w') (hn : 0 < n)
    (hvisits : Visits r w' v') : ∃ v, Shadows r n v v' := by
  induction hvisits with
  | refl => exact ⟨w, h⟩
  | resume hvisits hresume ih =>
      obtain ⟨v, c, p, e, hrests, rfl⟩ := ih
      obtain ⟨fuel, hrun⟩ := hresume
      obtain ⟨w₁, c₁, p₁, e₁, hrests₁, rfl, -⟩ := hrests.compares hn hrun
      exact ⟨w₁, c₁, p₁, e₁, hrests₁, rfl⟩

theorem Shadows.executions_eq (h : Shadows r n w w') (hn : 0 < n) {v' : World H}
    (hrun : w'.resume fuel r args = some (result, v')) (hforced : Interrupted r result v') :
    w'.executions r args fuel = n := by
  obtain ⟨c, p, e, hrests, rfl⟩ := h
  obtain ⟨w₁, c₁, p₁, e₁, hrests₁, rfl, hcompares⟩ := hrests.compares hn hrun
  cases hcompares with
  | alike hdone => exact absurd ((interrupted_metered hrests₁.found).mp hforced) hdone
  | interrupted _ hspent => exact hspent

/-! ## Budgets are transparent -/

omit [LawfulHost H] in
theorem Rests.shadows (h : w.Rests r c p) (n : Nat) :
    Shadows r n (w.metered r {}) (w.metered r ⟨some n, 0⟩) := by
  refine ⟨_, _, 0, ⟨h.metered {}, rfl⟩, ?_⟩
  rw [metered_metered]

omit [LawfulHost H] in
theorem Shadows.setAutoYield (h : Shadows r n w w') : w'.setAutoYield r none = .ok w := by
  obtain ⟨c, p, e, hrests, rfl⟩ := h
  have hmetered := hrests.toRests.metered ⟨some n, e⟩
  rw [setAutoYield_eq hmetered.found rfl]
  change Except.ok ((w.metered r ⟨some n, e⟩).metered r {}) = _
  rw [metered_metered, metered_eq_self hrests.found hrests.processor hrests.free]

/-- With a budget, a session comes to the same results and the same world as without, and
every resume executes in the outermost loop what the budget allows or ends before. -/
theorem Rests.budget_transparent (h : w.Rests r c p) (hn : 0 < n) {metered free : World H}
    (hmetered : w.setAutoYield r (some n) = .ok metered)
    (hfree : w.setAutoYield r none = .ok free) :
    (∀ argss results final, Session (Resumes r) free argss results final ↔
      ∃ w', Session (Drives r) metered argss results w' ∧
        w'.setAutoYield r none = .ok final) ∧
    ∀ w', Visits r metered w' → ∀ args,
      (∀ steps, w'.executions r args steps ≤ n) ∧
      ∀ fuel result w'', w'.resume fuel r args = some (result, w'') →
        Interrupted r result w'' → w'.executions r args fuel = n := by
  have hbudget : (some n).filter (0 < ·) = some n := by simp [hn]
  rw [setAutoYield_eq h.found h.processor] at hmetered hfree
  rw [hbudget] at hmetered
  cases hmetered
  cases hfree
  have hshadows := h.shadows n
  refine ⟨fun argss results final => ⟨fun hsession => ?_, ?_⟩, fun w' hvisits args => ?_⟩
  · obtain ⟨w', hfinal, hdriven⟩ := hshadows.session hn hsession
    exact ⟨w', hdriven, hfinal.setAutoYield⟩
  · rintro ⟨w', hdriven, hw'⟩
    obtain ⟨v, hv, hsession⟩ := hdriven.shadowed hshadows hn
    rw [hv.setAutoYield] at hw'
    cases hw'
    exact hsession
  · obtain ⟨v, hv⟩ := hshadows.visits hn hvisits
    exact ⟨hv.executions_le args, fun fuel result w'' => hv.executions_eq hn⟩

omit [LawfulHost H] in
/-- A coroutine that a host makes over a function may be given a budget. -/
theorem Idle.rests_createCoroutine (h : w.Idle) {f : Value}
    (hcreate : w.createCoroutine f = .ok (r, w')) : ∃ c p, w'.Rests r c p := by
  obtain ⟨m, hm, hfinished, hw⟩ := h
  unfold createCoroutine at hcreate
  split at hcreate
  · cases hcreate
    have hidle : (w.addCoroutine .script f).2.Idle :=
      ⟨m, hm, hfinished, hw.trans (.addCoroutine w .script f)⟩
    exact ⟨_, _, hidle, coroutine?_eq_some_iff.mpr (object?_add_nextId w _), rfl, rfl, rfl⟩
  · cases hcreate

/-- A function that returns true. -/
def consenting : Closure where
  chunk :=
    { name := "consent"
      code :=
        #[{ op := .beginFunction },
          { op := .literal, value? := some (.boolean true) },
          { op := .ret, num := 1 }] }
  entry := 0

/-- An engine in which nothing has run, with that function. -/
def withConsent : World Workbench.types :=
  ((start (H := Workbench.types) { modules := ⟨false, false, false⟩ } {}).addClosure
    consenting).2

/-- With a budget of one instruction the coroutine is suspended by force twice, and dead in the
end. -/
theorem budget_transparent_withConsent :
    ∃ w metered w', withConsent.createCoroutine (.function ⟨3⟩) = .ok (⟨4⟩, w) ∧
      w.setAutoYield ⟨4⟩ (some 1) = .ok metered ∧
      Session (Drives ⟨4⟩) metered [[], []]
        [.ok (.boolean true), .error (.contract .resumeDead)] w' := by
  have hstart := Machine.Reachable.start (H := Workbench.types)
    { modules := ⟨false, false, false⟩ } {} (.done (.result .nil))
  have hidle : withConsent.Idle := ⟨_, .next hstart, ⟨_, rfl⟩, .addClosure _ _⟩
  obtain ⟨c, p, hrests⟩ := hidle.rests_createCoroutine (f := .function ⟨3⟩) rfl
  obtain ⟨w', hsession, -⟩ :=
    ((hrests.budget_transparent (n := 1) (by decide) rfl rfl).1 [[], []]
      [.ok (.boolean true), .error (.contract .resumeDead)] _).mp
      (.goesOn ⟨12, rfl⟩ (.goesOn ⟨12, rfl⟩ (.done _)))
  exact ⟨_, _, w', rfl, rfl, hsession⟩

end ScriptEngine.World
