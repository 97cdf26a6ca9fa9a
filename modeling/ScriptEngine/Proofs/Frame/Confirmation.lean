import Mathlib.Data.List.NodupEquivFin
import ScriptEngine.Proofs.Frame.Attempt
import ScriptEngine.Proofs.Tuple.Flat

/-!
# Attempts that go well

What the function of an attempt returns becomes the attempt's result, behind a true.
The library's function drops every Void on the way, also one that stands before other
values, so that these come one place too early.
-/

namespace ScriptEngine

variable {H : HostTypes}

/-! ## Rows without Void -/

namespace Value

/-- The values of a row that are not Void. -/
def present (values : List Value) : List Value := values.filter fun v => !v.isVoid

theorem tupleItem_of_getElem? {values values' : List Value} {i j : Nat}
    (h : values[i]? = values'[j]?) :
    (tuple values).tupleItem i = (tuple values').tupleItem j := by
  change (values[i]?.map toStorable).getD .nil = (values'[j]?.map toStorable).getD .nil
  rw [h]

theorem lt_length_of_tupleItem_ne_nil {values : List Value} {i : Nat}
    (h : (tuple values).tupleItem i ≠ .nil) : i < values.length := by
  by_contra hlength
  refine h ?_
  change (values[i]?.map toStorable).getD .nil = .nil
  rw [List.getElem?_eq_none (Nat.le_of_not_lt hlength)]
  rfl

theorem isVoid_iff {v : Value} : v.isVoid = true ↔ v = .void := by
  cases v <;> simp [isVoid]

theorem void_not_mem_present (values : List Value) : .void ∉ present values := by
  simp [present, isVoid]

/-- What is left of a row is in it, in the same order. -/
theorem exists_places (values : List Value) :
    ∃ f : Nat ↪o Nat, ∀ i, (present values)[i]? = values[f i]? :=
  List.sublist_iff_exists_orderEmbedding_getElem?_eq.mp List.filter_sublist

/-- A value behind a Void is moved to the front of its place. -/
theorem moves_present {values : List Value} {i j : Nat} (hij : i < j)
    (hvoid : values[i]? = some .void)
    (h : (tuple (present values)).tupleItem j ≠ .nil) :
    ∃ k > j, (tuple values).tupleItem k ≠ .nil := by
  obtain ⟨f, hf⟩ := exists_places values
  refine ⟨f j, ?_, ?_⟩
  · have hle : i ≤ f i := f.strictMono.id_le i
    have hne : f i ≠ i := by
      intro heq
      refine void_not_mem_present values (List.mem_of_getElem? (i := i) ?_)
      rw [hf i, heq, hvoid]
    have hshift : ∀ n, i + n < f (i + n) := by
      intro n
      induction n with
      | zero => exact Nat.lt_of_le_of_ne hle (Ne.symm hne)
      | succ n ih =>
          have hstep : f (i + n) < f (i + (n + 1)) := f.strictMono (by omega)
          omega
    obtain ⟨n, rfl⟩ := Nat.exists_eq_add_of_le (Nat.le_of_lt hij)
    exact hshift n
  · rw [← tupleItem_of_getElem? (hf j)]
    exact h

theorem tupleItem_present_of_nil {values : List Value}
    (h : ∀ i, (tuple values).tupleItem i = .nil) (i : Nat) :
    (tuple (present values)).tupleItem i = .nil := by
  obtain ⟨f, hf⟩ := exists_places values
  rw [tupleItem_of_getElem? (hf i)]
  exact h (f i)

/-- Without its Voids a row reads the same just if there is only nil behind them. -/
theorem tupleItem_present_iff (values : List Value) :
    (∀ i, (tuple (present values)).tupleItem i = (tuple values).tupleItem i) ↔
      ∀ i j, i < j → values[i]? = some .void → (tuple values).tupleItem j = .nil := by
  constructor
  · intro hsame i j hij hvoid
    by_contra hvalue
    -- Every value behind the Void would have another one behind it.
    have hends : ∀ n, ∃ k ≥ j + n, (tuple values).tupleItem k ≠ .nil := by
      intro n
      induction n with
      | zero => exact ⟨j, Nat.le_refl j, hvalue⟩
      | succ n ih =>
          obtain ⟨k, hk, hbehind⟩ := ih
          rw [← hsame k] at hbehind
          obtain ⟨k', hk', hbehind'⟩ := moves_present (by omega) hvoid hbehind
          exact ⟨k', by omega, hbehind'⟩
    obtain ⟨k, hk, hbehind⟩ := hends values.length
    have := lt_length_of_tupleItem_ne_nil hbehind
    omega
  · intro hnil
    induction values with
    | nil => exact fun _ => rfl
    | cons v rest ih =>
        by_cases hv : v.isVoid = true
        · obtain rfl := isVoid_iff.mp hv
          have hrest : ∀ i, (tuple rest).tupleItem i = .nil := fun i =>
            hnil 0 (i + 1) (Nat.succ_pos i) rfl
          rintro (_ | i)
          · exact tupleItem_present_of_nil hrest 0
          · exact (tupleItem_present_of_nil hrest (i + 1)).trans (hrest i).symm
        · have hkept : present (v :: rest) = v :: present rest := by
            simp [present, hv]
          rw [hkept]
          rintro (_ | i)
          · rfl
          · exact ih (fun i j hij hvoid => hnil (i + 1) (j + 1) (by omega) hvoid) i

/-! ## Rows of results -/

theorem tupleItem_flattenArgs (v : Value) (i : Nat) :
    (tuple (flattenArgs [v])).tupleItem i = v.tupleItem i := by
  cases v with
  | tuple items => rfl
  | _ => cases i <;> rfl

theorem spliceLast_of_single {values : List Value} (h : ∀ v ∈ values, v.Single) :
    spliceLast values = values := by
  fun_induction spliceLast values with
  | case1 => rfl
  | case2 items => exact absurd (h _ List.mem_cons_self) (by simp [Single, isTuple])
  | case3 v hv => rfl
  | case4 v w rest ih =>
      rw [List.forall_mem_cons] at h
      rw [ih h.2, toScalar_eq_self (single_iff.mp h.1)]

/-- The library makes this of a function's result. -/
def confirmed (v : Value) : Value := .tuple (.boolean true :: present (flattenArgs [v]))

theorem tupleItem_confirmed_zero (v : Value) : v.confirmed.tupleItem 0 = .boolean true :=
  rfl

theorem tupleItem_confirmed_succ (v : Value) (i : Nat) :
    v.confirmed.tupleItem (i + 1) =
      (tuple (present (flattenArgs [v]))).tupleItem i :=
  rfl

/-- All results are in their places just if there is only nil behind a Void. -/
theorem confirmed_iff (v : Value) :
    (∀ i, v.confirmed.tupleItem (i + 1) = v.tupleItem i) ↔
      ∀ i j, i < j → (flattenArgs [v])[i]? = some .void → v.tupleItem j = .nil := by
  simp only [tupleItem_confirmed_succ, ← tupleItem_flattenArgs v]
  exact tupleItem_present_iff _

end Value

theorem Library.protectedOk_of_flat {v : Value} (hv : v.Flat) (methodCall : Bool) :
    (Library.protectedOk (.ofValues (flattenArgs [v]) methodCall) :
      Action H NativeOutcome) = .done (.result v.confirmed) := by
  have hsingle : ∀ w ∈ flattenArgs [v], w.Single :=
    single_flattenArgs (List.forall_mem_singleton.mpr hv)
  have hpresent : ∀ w ∈ Value.boolean true :: Value.present (flattenArgs [v]), w.Single :=
    List.forall_mem_cons.mpr ⟨rfl, fun w hw => hsingle w (List.mem_filter.mp hw).1⟩
  have hvalues : (Arguments.ofValues (flattenArgs [v]) methodCall).values = flattenArgs [v] :=
    Value.spliceLast_of_single hsingle
  change (Action.done (NativeOutcome.result (.tuple (Value.spliceLast (.boolean true ::
    Value.present (Arguments.ofValues (flattenArgs [v]) methodCall).values)))) :
      Action H NativeOutcome) = _
  rw [hvalues, Value.spliceLast_of_single hpresent]
  rfl

/-! ## From the function's result to that of the attempt -/

namespace Attempt

variable [Host H] {s : Attempt H} {m : Machine H} {v : Value} {core : Core H}
  {activations : List (Activation H)}

/-- The function's result is on its way through the library. -/
def confirming (s : Attempt H) (v : Value) : Outcome :=
  .tailCall { function := .native s.ok, args := [v] } { entryPoint := s.entryPoint }
    s.frame.returnAddress

omit [Host H] in
theorem Runs.finish_run [HostObjects H] {f : Frame} (hf : s.Runs f) (v : Value)
    (core : Core H) : Exec.finish f v core = .ok (s.confirming v) core := by
  unfold Exec.finish
  rw [hf.handlers, hf.returnAddress, hf.entryPoint]
  rfl

theorem gives_of_confirming {native : Native H}
    (hnative : core.world.native? s.ok = some native)
    (hbody : native.body = .library .protectedOk) (hloop : s.loop.At activations)
    (hframes : core.proc.frames.items = s.under)
    (hdepth : s.under.length < core.world.settings.maxCallDepth) (hv : v.Flat) :
    ∃ n ≤ 4, s.Gives v.confirmed
      (Machine.after ⟨core, activations, .loop (s.confirming v)⟩ n) := by
  have hheight : core.proc.frames.height < core.world.settings.maxCallDepth := by
    rw [core.proc.frames.height_eq, hframes]
    exact hdepth
  have haction : (core.entered s.ok { entryPoint := s.entryPoint }
      s.frame.returnAddress).invoke s.ok (.ofValues (flattenArgs [v]) false) =
        .done (.result v.confirmed) :=
    (Core.invoke_of_library (c := core.entered s.ok _ _) _ hnative hbody).trans
      (Library.protectedOk_of_flat hv false)
  have hafter : Machine.after ⟨core, activations, .loop (s.confirming v)⟩ 3 =
      Machine.exec .loop (Exec.deliver { entryPoint := s.entryPoint } s.frame.returnAddress
        (some v.confirmed)) core.relieved activations := by
    change (Machine.exec .loop (Exec.call (.native s.ok) [v] _ _ {}) core activations).next.next = _
    rw [Machine.exec_call_native activations s.ok [v] _ _ hheight,
      Machine.next_invoke haction, Machine.next_result hloop.inLoop]
  have hentry : ({ entryPoint := s.entryPoint } : FrameFlags).entryPoint =
      (s.call []).guard.frame.flags.entryPoint := rfl
  have hrelieved : core.relieved.proc.frames.items = (s.call []).guard.below := hframes
  rcases ProtectedCall.deliver_cases v.confirmed hentry hrelieved with
    ⟨hbelow, hrun⟩ | ⟨top, rest, hrest, hfinish, hrun⟩
  · refine ⟨3, by omega, core.relieved, activations, .loop, hloop, hbelow, ?_⟩
    rw [hafter]
    exact congrArg (Machine.exec .loop · core.relieved activations) hrun
  · let delivered : Core H :=
      { core.relieved with proc := { core.relieved.proc with frames := rest } }
    have hdelivered : Machine.exec .loop (Exec.deliver { entryPoint := s.entryPoint }
        s.frame.returnAddress (some v.confirmed)) core.relieved activations =
          ⟨delivered, activations, .loop (.finish top v.confirmed)⟩ :=
      Machine.exec_ok hrun activations
    refine ⟨4, by omega, delivered, activations, .loop, hloop, hrest, ?_⟩
    change (Machine.after ⟨core, activations, .loop (s.confirming v)⟩ 3).next = _
    rw [hafter, hdelivered]
    exact congrArg (Machine.exec .loop · delivered activations) hfinish

/-- The function's result comes through the library in a few steps. -/
theorem Returns.gives {native : Native H}
    (hnative : m.core.world.native? s.ok = some native)
    (hbody : native.body = .library .protectedOk)
    (hdepth : s.under.length < m.core.world.settings.maxCallDepth) (hv : v.Flat)
    (h : s.Returns v m) : ∃ n ≤ 5, s.Gives v.confirmed (m.after n) := by
  obtain ⟨f, hf, core, activations, route, hloop, hframes, hfinish⟩ := h
  rw [Machine.exec_ok (hf.finish_run v core)] at hfinish
  subst hfinish
  obtain ⟨n, hn, hgives⟩ := gives_of_confirming hnative hbody hloop hframes hdepth hv
  cases route with
  | loop => exact ⟨n, by omega, hgives⟩
  | settling =>
      refine ⟨n + 1, by omega, ?_⟩
      rw [← Machine.after_next]
      exact hgives

end Attempt

/-- When the function of an attempt has been called and has returned, the attempt's result is
true and then the function's results without those that are Void.  All of them are in their
places just if there is only nil behind a Void. -/
theorem Machine.Reachable.passesResults [Host H] [LawfulHost H] {m₀ m : Machine H}
    (h₀ : m₀.Reachable) {s : Attempt H} (hm : s.Begins m₀) (h : m₀.Leads m)
    (hcalled : ∀ e, ¬s.Fails e (m₀.after 3)) {v : Value} (hv : v.Flat)
    (hreturns : s.Returns v m) :
    ∃ n ≤ 5, ∃ r, s.Gives r (m.after n) ∧ r.tupleItem 0 = .boolean true ∧
      (∀ i, r.tupleItem (i + 1) =
        (Value.tuple ((flattenArgs [v]).filter fun w => !w.isVoid)).tupleItem i) ∧
      ((∀ i, r.tupleItem (i + 1) = v.tupleItem i) ↔
        ∀ i j, i < j → (flattenArgs [v])[i]? = some .void → v.tupleItem j = .nil) := by
  have hretains := h.retains h₀
  obtain ⟨native, hnative, hbody⟩ := hm.ok
  obtain ⟨f, -, -, -, hdepth⟩ :=
    hm.starts.resolve_right fun ⟨e, hfails⟩ => hcalled e hfails
  rw [← hretains.settings] at hdepth
  obtain ⟨n, hn, hgives⟩ :=
    hreturns.gives (hretains.native? _ _ hnative) hbody hdepth hv
  exact ⟨n, hn, v.confirmed, hgives, v.tupleItem_confirmed_zero,
    v.tupleItem_confirmed_succ, v.confirmed_iff⟩

/-! ## A host that asserts Void -/

namespace Attempt

/-- The call of `assert` with true, Void and 2, which returns all three. -/
def asserting : Attempt HostTypes.alone where
  function := .native ⟨9⟩
  args := [.boolean true, .void, .number 2]
  observer? := none
  frame :=
    { callee := .native ⟨5⟩, base := 0, returnAddress := 0
      flags := { entryPoint := true } }
  below := []
  ok := ⟨3⟩
  failed := ⟨4⟩
  loop := .nested ⟨0, none, 0, 0⟩
    (.action fun r => (Action.ofResult r).bind Library.one) []

def confirmingVoid : Machine HostTypes.alone :=
  attempting ⟨5⟩ [.native ⟨9⟩, .boolean true, .void, .number 2]

theorem begins_confirmingVoid : asserting.Begins (confirmingVoid.after 10) where
  invoke := ⟨⟨5⟩, _, _, _, rfl, rfl, rfl, .pcall rfl rfl rfl rfl⟩
  ok := ⟨_, rfl, rfl⟩
  failed := ⟨_, rfl, rfl⟩
  frames := rfl
  loop := .nested _ _ _

theorem called_confirmingVoid (e : ScriptError) :
    ¬asserting.Fails e (confirmingVoid.after 13) := by
  rintro (⟨_, _, _, -, hcontrol⟩ | ⟨_, -, hcontrol⟩) <;> cases hcontrol

theorem returns_confirmingVoid :
    asserting.Returns (.tuple [.boolean true, .void, .number 2])
      (confirmingVoid.after 15) := by
  let frame : Frame :=
    { callee := .native ⟨9⟩, base := 0, returnAddress := 0
      flags := { entryPoint := true }
      handlers :=
        { continuation? := some (.native ⟨3⟩), errorHandler? := some ⟨4⟩ } }
  exact ⟨frame, ⟨rfl, rfl, rfl⟩, (confirmingVoid.after 15).core,
    (confirmingVoid.after 15).activations, .loop, .nested _ _ _, rfl, rfl⟩

end Attempt

/-- The 2 that `assert` returned is not in its place. -/
theorem Machine.passesResults_asserting :
    ∃ n ≤ 5, ∃ r, Attempt.asserting.Gives r ((Attempt.confirmingVoid.after 15).after n) ∧
      ¬∀ i, r.tupleItem (i + 1) =
        (Value.tuple [.boolean true, .void, .number 2]).tupleItem i := by
  have hreach : (Attempt.confirmingVoid.after 10).Reachable :=
    Attempt.reachable_attempting _ _ 10
  obtain ⟨n, hn, r, hgives, -, -, hplaces⟩ :=
    hreach.passesResults Attempt.begins_confirmingVoid (Machine.leads_after _ 5)
      Attempt.called_confirmingVoid
      (by simp [Value.Flat, Value.Single, Value.isTuple]) Attempt.returns_confirmingVoid
  refine ⟨n, hn, r, hgives, fun hsame => ?_⟩
  cases hplaces.mp hsame 1 2 (by decide) rfl

/-- The host gets two values behind the true and not three. -/
theorem Attempt.drops_void :
    ((Machine.run 30 confirmingVoid).bind fun
      | (.ok v, _) => some v
      | (.error _, _) => none) =
        some (.tuple [.boolean true, .boolean true, .number 2]) := by
  decide +kernel

end ScriptEngine
