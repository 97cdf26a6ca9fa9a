import ScriptEngine.Proofs.Budget.Answering
import ScriptEngine.Proofs.Budget.Sessions

/-!
# Conversations with a coroutine

A host resumes a coroutine with one list of arguments after the other and gets
what the coroutine yields, until the last resume.  The coroutine's body does in
all these resumes what it does in one, when its yields are calls that return the
lists.  A budget makes no difference to that.
-/

namespace ScriptEngine.World

variable {H : HostTypes} [Host H] {r : CoroutineRef} {w w' : World H} {c : Coroutine}
  {p : Processor} {args : List Value} {argss : List (List Value)} {v : Value}
  {vs : List Value} {result : Except RuntimeError Value} {n : Nat}

/-- Every resume but the last suspends the coroutine by a yield. -/
inductive Converses
    (exchange : World H → List Value → Except RuntimeError Value → World H → Prop)
    (r : CoroutineRef) : World H → List Value → List (List Value) → List Value →
      Except RuntimeError Value → World H → Prop where
  | ends {w w' : World H} {args : List Value} {result : Except RuntimeError Value}
      (h : exchange w args result w') : Converses exchange r w args [] [] result w'
  | yields {w w' w'' : World H} {args args' : List Value} {argss : List (List Value)}
      {v : Value} {vs : List Value} {result : Except RuntimeError Value}
      (h : exchange w args (.ok v) w') (hsuspended : (w'.coroutine r).state = .suspended)
      (hrest : Converses exchange r w' args' argss vs result w'') :
      Converses exchange r w args (args' :: argss) (v :: vs) result w''

/-- The resume ends in this way if the coroutine's yields are calls that return the lists,
all of which are used up. -/
def Answers (r : CoroutineRef) (w : World H) (args : List Value)
    (argss : List (List Value)) (vs : List Value) (result : Except RuntimeError Value)
    (w' : World H) : Prop :=
  vs.length = argss.length ∧
    ∃ fuel, (w.resuming r args).runAnswering r fuel argss = some (vs, result, w')

/-! ## A single yield -/

variable [LawfulHost H]

/-- The world and the machine after a resume that ends with a yield. -/
structure Pauses (w : World H) (r : CoroutineRef) (args : List Value) (v : Value) (k : Nat)
    (w₁ : World H) : Prop where
  resumes : w.Resumes r args (.ok v) w₁
  suspended : (w₁.coroutine r).state = .suspended
  rests : ∃ c p, w₁.Unmetered r c p
  accepted : ∀ args', w₁.resumeRefusal? r args' = none
  /-- The next resume goes on where the yielding function returns the arguments. -/
  goesOn : ∀ args', (w₁.resuming r args').after 2 =
    (((w.launch r args).after k).answered args').next

theorem setAside_awoken {p : Processor} {frame : Frame} {rest : Stack Frame}
    (hexecuted : p.executed = 0) : p.awoken (p.setAside frame rest) = p := by
  cases p
  cases hexecuted
  rfl

/-- A coroutine that is woken from its yield is the machine that yielded. -/
theorem awoken_released {m : Machine H} (h : m.HostResume r)
    (hloops : m.activations = [.body, .switch r {} Machine.handing]) (frame : Frame)
    (rest : Stack Frame) (args : List Value) :
    m.awoken ((m.core.world.release r (m.core.proc.setAside frame rest)
      (.ok (.yielded v))).resuming r args) r (m.core.proc.setAside frame rest)
        Machine.handing = m := by
  have hworking : IsWorking r m.activations := by
    rw [hloops]
    rfl
  have hexecuted := h.executed hworking
  obtain ⟨-, hengage⟩ := h.engage_released hloops (m.core.proc.setAside frame rest)
    (.ok (.yielded v))
  obtain ⟨core, activations, control⟩ := m
  obtain rfl : activations = _ := hloops
  dsimp only at hengage hexecuted
  change (⟨⟨World.engage (World.release _ r _ _) r, core.proc.awoken _⟩, _, control⟩ :
    Machine H) = _
  rw [setAside_awoken hexecuted, hengage]
  rfl

theorem Unmetered.pauses (h : w.Unmetered r c p) (haccepted : w.resumeRefusal? r args = none)
    {k : Nat} (hresume : ((w.launch r args).after k).HostResume r)
    (hyields : ((w.launch r args).after k).yields? r = some v) :
    ∃ w₁, w.Pauses r args v k w₁ := by
  generalize hm : (w.launch r args).after k = m at hresume hyields
  obtain ⟨hsuspends, hactivations⟩ := hresume.yields hyields
  obtain ⟨-, frame, rest, hpush⟩ := hsuspends.processor hresume.reachable.wellFramed
  obtain ⟨hresume₃, hthree⟩ := hresume.after_yield hyields hpush
  let aside := m.core.proc.setAside frame rest
  let w₁ : World H := m.core.world.release r aside (.ok (.yielded v))
  have hd : (w.launch r args).after (k + 3) =
      ⟨⟨m.core.world, aside⟩, [.switch r {} Machine.handing],
        .switching (.ok (.yielded v))⟩ := by
    rw [Machine.after_add, hm, hthree]
  have hlast : ((w.launch r args).after (k + 3)).HostResume r := by
    rw [Machine.after_add, hm]
    exact hresume₃
  obtain ⟨c₁, hrests, hstate⟩ := h.landed haccepted hlast hd
  have hstate : c₁.state = .suspended := hstate
  have hcurrent : (w₁.coroutine r).state = .suspended := by
    rw [coroutine_of_coroutine? hrests.found, hstate]
  have hresumes : w.Resumes r args (.ok v) w₁ := by
    refine resumes_of_launch (k := k + 3 + 2) haccepted ?_
    rw [Machine.after_add, hd, Machine.after_switching]
    rfl
  have haccepted₁ (args' : List Value) : w₁.resumeRefusal? r args' = none :=
    h.toRests.accepted_released haccepted hm hresume hactivations hrests.toRests
      (Or.inl hstate)
  refine ⟨w₁, hresumes, hcurrent, ⟨c₁, aside, hrests⟩, haccepted₁, fun args' => ?_⟩
  have hasleep : m.Asleep r (w₁.resuming r args').core.world aside :=
    ⟨⟨c₁, hrests.found, hstate, hrests.processor⟩, frame, rest, hpush, .refl _⟩
  rw [hasleep.resumed hsuspends hresume.reachable (hrests.toRests.reachable args').wellNested
    ⟨rfl, haccepted₁ args'⟩, awoken_released hresume hactivations frame rest args', hm]

/-! ## Machines that have just begun -/

omit [LawfulHost H] in
/-- No coroutine begins or goes on with a yield. -/
theorem quiet_launch (w : World H) (r : CoroutineRef) (args : List Value) :
    (∀ result, (w.launch r args).control ≠ .finished result) ∧
      (w.launch r args).yields? r = none := by
  have hexec (x : Exec H Outcome) (core : Core H) (activations : List (Activation H)) :
      (∀ a, (Machine.exec .loop x core activations).control ≠ .running a) ∧
        ∀ result, (Machine.exec .loop x core activations).control ≠ .finished result := by
    unfold Machine.exec
    cases x core <;> exact ⟨nofun, nofun⟩
  have hcontrol : (∀ a, (w.launch r args).control ≠ .running a) ∧
      ∀ result, (w.launch r args).control ≠ .finished result := by
    have hroused : Machine.Roused _ _ _ _ _ (w.launch r args) :=
      Machine.roused_runCoroutine _ _ _ _ args
    generalize w.launch r args = m at hroused ⊢
    cases hroused with
    | first hkind hstate => exact hexec _ _ _
    | _ => exact ⟨nofun, nofun⟩
  exact ⟨hcontrol.2, Machine.yields?_eq_none fun v => hcontrol.1 _⟩

omit [LawfulHost H] in
theorem runAnswering_resuming (haccepted : w.resumeRefusal? r args = none) (fuel : Nat) :
    (w.resuming r args).runAnswering r (fuel + 1) argss =
      (w.launch r args).runAnswering r fuel argss := by
  have hnext := Machine.runAnswering_running (r := r) (m := w.resuming r args)
    (a := .resume r args Machine.handing) rfl nofun fuel argss
  rw [hnext, resuming_next haccepted]

omit [LawfulHost H] in
theorem silent_resuming (haccepted : w.resumeRefusal? r args = none) :
    (w.resuming r args).Silent r 2 := by
  intro i hi
  match i with
  | 0 =>
      have hcontrol : ((w.resuming r args).after 0).control =
          .running (.resume r args Machine.handing) := rfl
      exact ⟨by rw [hcontrol]; exact nofun, rfl⟩
  | 1 =>
      have hlaunch : (w.resuming r args).after 1 = w.launch r args := resuming_next haccepted
      rw [hlaunch]
      exact quiet_launch w r args

omit [LawfulHost H] in
/-- A resume that is refused comes by no yield. -/
theorem not_speaks_of_refused {e : RuntimeError} (hrefusal : w.resumeRefusal? r args = some e)
    (k : Nat) : ¬(w.resuming r args).Speaks r v k := by
  rintro ⟨hsilent, hyields⟩
  match k with
  | 0 => cases hyields
  | 1 =>
      have hnext : (w.resuming r args).after 1 = _ := resuming_next_refused hrefusal
      rw [hnext] at hyields
      cases hyields
  | 2 =>
      rw [resuming_refused hrefusal] at hyields
      cases hyields
  | k + 3 =>
      have hgoing := (hsilent 2 (by omega)).1
      rw [resuming_refused hrefusal] at hgoing
      exact hgoing _ rfl

omit [LawfulHost H] in
theorem speaks_launch (haccepted : w.resumeRefusal? r args = none) {k : Nat}
    (h : (w.resuming r args).Speaks r v k) :
    ∃ j, k = j + 1 ∧ (w.launch r args).Speaks r v j := by
  cases k with
  | zero => cases h.yields
  | succ j =>
      have hafter (i : Nat) : (w.resuming r args).after (i + 1) = (w.launch r args).after i := by
        rw [← Machine.after_next, resuming_next haccepted]
      refine ⟨j, rfl, fun i hi => ?_, ?_⟩
      · rw [← hafter]
        exact h.silent (i + 1) (Nat.succ_lt_succ hi)
      · rw [← hafter]
        exact h.yields

/-- The coroutine has not given way before it yields. -/
theorem hostResume_of_speaks {m : Machine H} (h : m.HostResume r) {k : Nat}
    (hspeaks : m.Speaks r v k) :
    (m.after k).HostResume r := by
  rcases Machine.lands_or_stays m r k with hstays | ⟨d, hd, hlands⟩
  · exact h.after hstays
  · obtain ⟨exit, -, hdeparting⟩ := (h.after hlands.stays).departing hlands.departs
    have hend := Machine.after_switching (r := r) (m.after d).core exit
    rw [← hdeparting, ← Machine.after_add] at hend
    rcases Nat.lt_trichotomy k (d + 2) with hlt | rfl | hgt
    · obtain rfl : k = d + 1 := by omega
      have hyields := hspeaks.yields
      change (m.after d).next.yields? r = _ at hyields
      rw [hdeparting] at hyields
      cases hyields
    · have hyields := hspeaks.yields
      rw [hend] at hyields
      cases hyields
    · have hgoing := (hspeaks.silent (d + 2) hgt).1
      rw [hend] at hgoing
      exact absurd rfl (hgoing _)

/-- A resume that leaves the coroutine suspended by a yield has come by it. -/
theorem Unmetered.speaks (h : w.Unmetered r c p) (haccepted : w.resumeRefusal? r args = none)
    (hresumes : w.Resumes r args (.ok v) w') (hsuspended : (w'.coroutine r).state = .suspended) :
    ∃ k v, (w.launch r args).Speaks r v k := by
  have hresume := h.toRests.hostResume h.free haccepted
  obtain ⟨fuel, hrun⟩ := hresumes
  obtain ⟨k, hk, -⟩ := launch_finishes haccepted hrun
  obtain ⟨d, -, hlands⟩ := hresume.lands_of_finished hk
  have hlast := hresume.after hlands.stays
  obtain ⟨exit, hexit, hd⟩ := hlast.departing hlands.departs
  generalize ((w.launch r args).after d).core = core at hd
  obtain ⟨c₁, hrests, hstate⟩ := h.landed haccepted hlast hd
  have hends : w.Resumes r args (exit.map LoopExit.value)
      (core.world.release r core.proc exit) := by
    refine resumes_of_launch (k := d + 2) haccepted ?_
    rw [Machine.after_add, hd, Machine.after_switching]
  obtain ⟨hsame, rfl⟩ := Resumes.unique ⟨fuel, hrun⟩ hends
  rw [coroutine_of_coroutine? hrests.found, hstate] at hsuspended
  obtain ⟨u, rfl⟩ : ∃ u, exit = .ok (.yielded u) := by
    rcases exit with e | exit
    · cases hsuspended
    · cases exit with
      | yielded u => exact ⟨u, rfl⟩
      | returned u => cases hsuspended
      | forceYielded => cases hsuspended
  have hsteady : (w.launch r args).control.Steady := Machine.steady_runCoroutine _ _ _ _
  obtain ⟨i, -, hspeaks⟩ := hresume.speaks_of_lands hsteady hlands hd
  exact ⟨i, hspeaks⟩

/-! ## Conversations without a budget -/

theorem Unmetered.answers_of_converses (h : w.Unmetered r c p)
    (hconverses : Converses (Resumes r) r w args argss vs result w') :
    Answers r w args argss vs result w' := by
  induction hconverses generalizing c p with
  | ends hresumes =>
      obtain ⟨fuel, hrun⟩ := hresumes
      refine ⟨rfl, fuel, ?_⟩
      rw [Machine.runAnswering_nil, ← resume_eq, hrun]
      rfl
  | @yields w w₁ w₂ args args' argss v vs result hresumes hsuspended hrest ih =>
      cases haccepted : w.resumeRefusal? r args with
      | some e =>
          have hrefused := resumes_of_after (resuming_refused haccepted)
          cases (hresumes.unique hrefused).1
      | none =>
          obtain ⟨k, u, hspeaks⟩ := h.speaks haccepted hresumes hsuspended
          have hresume := h.toRests.hostResume h.free haccepted
          obtain ⟨w₁', hpauses⟩ :=
            h.pauses haccepted (hostResume_of_speaks hresume hspeaks) hspeaks.yields
          obtain ⟨hvalue, rfl⟩ := hresumes.unique hpauses.resumes
          cases hvalue
          obtain ⟨c₁, p₁, hrests⟩ := hpauses.rests
          obtain ⟨hlength, fuel, hrun⟩ := ih hrests
          refine ⟨congrArg Nat.succ hlength, fuel + 1 + 1 + k + 1, ?_⟩
          have hmore := Machine.runAnswering_of_le hrun (Nat.le_add_right fuel 2)
          rw [Machine.runAnswering_add (silent_resuming (hpauses.accepted args')),
            hpauses.goesOn] at hmore
          rw [runAnswering_resuming haccepted, Machine.runAnswering_of_speaks hspeaks,
            Machine.runAnswering_answered, hmore]
          rfl

theorem Unmetered.converses_of_answers (h : w.Unmetered r c p)
    (hanswers : Answers r w args argss vs result w') :
    Converses (Resumes r) r w args argss vs result w' := by
  obtain ⟨hlength, fuel, hrun⟩ := hanswers
  induction argss generalizing w c p args vs fuel with
  | nil =>
      obtain rfl := List.eq_nil_of_length_eq_zero hlength
      rw [Machine.runAnswering_nil] at hrun
      obtain ⟨y, hy, hsame⟩ := Option.map_eq_some_iff.mp hrun
      cases hsame
      exact .ends ⟨fuel, hy⟩
  | cons args' argss ih =>
      obtain ⟨v, vs, rfl⟩ := List.exists_cons_of_length_eq_add_one hlength
      obtain ⟨k, rest, hspeaks, hrest⟩ := Machine.speaks_of_runAnswering hrun
      cases haccepted : w.resumeRefusal? r args with
      | some e => exact absurd hspeaks (not_speaks_of_refused haccepted k)
      | none =>
          have hresume := h.toRests.hostResume h.free haccepted
          obtain ⟨k, rfl, hlaunched⟩ := speaks_launch haccepted hspeaks
          obtain ⟨w₁, hpauses⟩ :=
            h.pauses haccepted (hostResume_of_speaks hresume hlaunched) hlaunched.yields
          obtain ⟨c₁, p₁, hrests⟩ := hpauses.rests
          have hlaunch : (w.resuming r args).after (k + 1) = (w.launch r args).after k := by
            rw [← Machine.after_next, resuming_next haccepted]
          rw [hlaunch] at hrest
          cases rest with
          | zero => cases hrest
          | succ rest =>
              rw [Machine.runAnswering_answered, ← hpauses.goesOn args',
                ← Machine.runAnswering_add (silent_resuming (hpauses.accepted args'))] at hrest
              exact .yields hpauses.resumes hpauses.suspended
                (ih hrests (Nat.succ.inj hlength) (rest + 2) hrest)

/-! ## Conversations with a budget -/

omit [Host H] [LawfulHost H] in
theorem state_metered (h : w.coroutine? r = some c) (k : Meter) :
    ((w.metered r k).coroutine r).state = (w.coroutine r).state := by
  rw [coroutine_of_coroutine? (coroutine?_metered_self h), coroutine_of_coroutine? h]

omit [LawfulHost H] in
theorem Shadows.state (h : Shadows r n w w') :
    (w'.coroutine r).state = (w.coroutine r).state := by
  obtain ⟨c, p, e, hrests, rfl⟩ := h
  exact state_metered hrests.found _

theorem Shadows.converses {metered : World H} (h : Shadows r n w metered) (hn : 0 < n)
    (hconverses : Converses (Resumes r) r w args argss vs result w') :
    ∃ v', Shadows r n w' v' ∧ Converses (Drives r) r metered args argss vs result v' := by
  induction hconverses generalizing metered with
  | ends hresume =>
      obtain ⟨v', hshadows, hdrives⟩ := h.drives hn hresume
      exact ⟨v', hshadows, .ends hdrives⟩
  | yields hresume hsuspended hrest ih =>
      obtain ⟨v', hshadows, hdrives⟩ := h.drives hn hresume
      obtain ⟨v'', hshadows', hconverses⟩ := ih hshadows
      exact ⟨v'', hshadows', .yields hdrives (hshadows.state.trans hsuspended) hconverses⟩

theorem Converses.shadowed {metered final : World H} (h : Shadows r n w metered) (hn : 0 < n)
    (hconverses : Converses (Drives r) r metered args argss vs result final) :
    ∃ v, Shadows r n v final ∧ Converses (Resumes r) r w args argss vs result v := by
  induction hconverses generalizing w with
  | ends hdrives =>
      obtain ⟨v, hshadows, hresume⟩ := hdrives.shadowed h hn
      exact ⟨v, hshadows, .ends hresume⟩
  | yields hdrives hsuspended hrest ih =>
      obtain ⟨v, hshadows, hresume⟩ := hdrives.shadowed h hn
      obtain ⟨v', hshadows', hconverses⟩ := ih hshadows
      exact ⟨v', hshadows', .yields hresume (hshadows.state.symm.trans hsuspended) hconverses⟩

/-! ## Yields are calls -/

/-- A yield is a call that returns the arguments of the next resume.  However the function
was called and whoever resumes the coroutine, that leads to where the function's return
would have led, and a conversation with the coroutine comes to the same yields, the same
result or error and the same world as its body does when every yield is a call that
returns the next list; with a budget, when the forced suspensions are left out. -/
theorem yield_returns_arguments (r : CoroutineRef) :
    (∀ (m₀ : Machine H) v, m₀.Reachable → m₀.Yields r v →
      ∀ m, Machine.Sleeps r m₀ m → ∃ p, m₀.Asleep r m.core.world p ∧
        ∀ args next, m.Resumes r args next →
          m.after 2 = ((m₀.awoken m r p next).answered args).next) ∧
    ∀ (w : World H) c p free, w.Rests r c p → w.setAutoYield r none = .ok free →
      ∀ args argss vs result final,
        (Converses (Resumes r) r free args argss vs result final ↔
          Answers r free args argss vs result final) ∧
        ∀ n metered, 0 < n → w.setAutoYield r (some n) = .ok metered →
          ((∃ w', Converses (Drives r) r metered args argss vs result w' ∧
              w'.setAutoYield r none = .ok final) ↔
            Answers r free args argss vs result final) := by
  refine ⟨fun m₀ v hm hyields m hsleeps => ?_, ?_⟩
  · obtain ⟨p, hasleep⟩ := hsleeps.asleep hyields hm
    exact ⟨p, hasleep, fun args next hresumes =>
      hasleep.resumed hyields hm (hsleeps.leads.reachable hm).wellNested hresumes⟩
  · intro w c p free hrests hfree args argss vs result final
    have hbefore : free = w.metered r {} := by
      rw [setAutoYield_eq hrests.found hrests.processor] at hfree
      cases hfree
      rfl
    subst hbefore
    have hunmetered : (w.metered r {}).Unmetered r _ _ := ⟨hrests.metered {}, rfl⟩
    have hplain : Converses (Resumes r) r (w.metered r {}) args argss vs result final ↔
        Answers r (w.metered r {}) args argss vs result final :=
      ⟨hunmetered.answers_of_converses, hunmetered.converses_of_answers⟩
    refine ⟨hplain, fun n metered hn hmetered => ?_⟩
    have hfilter : (some n).filter (0 < ·) = some n := by simp [hn]
    have hbudget : metered = w.metered r ⟨some n, 0⟩ := by
      rw [setAutoYield_eq hrests.found hrests.processor, hfilter] at hmetered
      cases hmetered
      rfl
    subst hbudget
    have hshadows := hrests.shadows n
    rw [← hplain]
    constructor
    · rintro ⟨w', hconverses, hw'⟩
      obtain ⟨final', hfinal, hfreely⟩ := hconverses.shadowed hshadows hn
      rw [hfinal.setAutoYield] at hw'
      cases hw'
      exact hfreely
    · intro hconverses
      obtain ⟨w', hfinal, hdriven⟩ := hshadows.converses hn hconverses
      exact ⟨w', hdriven, hfinal.setAutoYield⟩

/-- A function that returns what its yield returns. -/
def asking : Closure where
  chunk :=
    { name := "ask"
      code :=
        #[{ op := .beginFunction },
          { op := .literal, value? := some (.native ⟨3⟩) },
          { op := .literal, value? := some (.number 1) },
          { op := .call, num := 1 },
          { op := .ret, num := 1 }] }
  entry := 0

/-- An engine in which nothing has run, with that function. -/
def withAsking : World Workbench.types :=
  (((start (H := Workbench.types) { modules := ⟨false, false, false⟩ } {}).addLibrary "yield"
    .coroutineYield).2.addClosure asking).2

/-- With a budget of one instruction the coroutine yields in the place of its only frame,
and the second resume gets its own arguments back. -/
theorem yield_returns_arguments_withAsking :
    ∃ w metered w', withAsking.createCoroutine (.function ⟨4⟩) = .ok (⟨5⟩, w) ∧
      w.setAutoYield ⟨5⟩ (some 1) = .ok metered ∧
      Converses (Drives ⟨5⟩) ⟨5⟩ metered [] [[.number 7]] [.tuple [.number 1]]
        (.ok (.tuple [.number 7])) w' := by
  have hstart := Machine.Reachable.start (H := Workbench.types)
    { modules := ⟨false, false, false⟩ } {} (.done (.result .nil))
  have hidle : withAsking.Idle :=
    ⟨_, .next hstart, ⟨_, rfl⟩, (World.Extends.addLibrary _ _ _).trans (.addClosure _ _)⟩
  obtain ⟨c, p, hrests⟩ := hidle.rests_createCoroutine (f := .function ⟨4⟩) rfl
  have hanswers (final : World Workbench.types) :=
    ((yield_returns_arguments ⟨5⟩).2 _ c p _ hrests rfl [] [[.number 7]]
      [.tuple [.number 1]] (.ok (.tuple [.number 7])) final).2 1 _ (by decide) rfl
  obtain ⟨w', hconverses, -⟩ := (hanswers _).mpr ⟨rfl, 30, rfl⟩
  exact ⟨_, _, w', rfl, rfl, hconverses⟩

end ScriptEngine.World
