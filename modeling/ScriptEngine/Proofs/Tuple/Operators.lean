import ScriptEngine.Proofs.Tuple.Supply

/-!
# Operators on flat values

What an operator comes to in a flat world is flat: a value at once, the arguments of the
call that finds out, or an error.  The arguments that a function gets in the end are single,
however many definitions of the call operator stand between.
-/

namespace ScriptEngine

variable {H : HostTypes}

def Resolved.Flat : Resolved → Prop
  | .value v => v.Flat
  | .call p => ∀ v ∈ p.args, v.Flat

/-- What remains of a definition's result is no tuple. -/
theorem PostReturn.single_apply (p : PostReturn) (v : Value) :
    FlatScript (fun v? => ∀ v, v? = some v → v.Single) (p.apply v) := by
  cases p with
  | scalar =>
    rintro v' ⟨⟩
    exact v.single_toStorable
  | length =>
    simp only [PostReturn.apply]
    split
    · rintro v' ⟨⟩
      rfl
    · exact ScriptError.flat_of_payload rfl
  | discard => nofun
  | _ =>
    rintro v' ⟨⟩
    rfl

/-- A storable value goes under the key that a value comes to. -/
def World.Assignment.Flat : Assignment H → Prop
  | .entry _ key written value =>
    (∃ k, Key.ofValue? k = some key ∧ written = k.toScalar) ∧ value.Storable
  | .object _ _ => True
  | .call p => ∀ v ∈ p.args, v.Flat

namespace World

variable [HostObjects H] {w : World H}

/-! ## Definitions of operators -/

theorem single_of_present {v h : Value} (hv : v.Single) (hpresent : present? v = some h) :
    h.Single := by
  unfold present? at hpresent
  split at hpresent
  · cases hpresent
  · cases hpresent
    exact hv

theorem Flat.metatableHook? (hw : w.Flat) {v h : Value} {op : Operator}
    (hhook : w.metatableHook? v op = some h) : h.Single := by
  unfold World.metatableHook? at hhook
  split at hhook
  · exact single_of_present ((hw.table _).getName _).1 hhook
  · cases hhook

theorem Flat.objectHook? (hw : w.Flat) {v h : Value} {op : Operator}
    (hhook : w.objectHook? v op = some h) : h.Single := by
  unfold World.objectHook? at hhook
  split at hhook
  · split at hhook
    · next o ho =>
      obtain ⟨g, hg, hpresent⟩ := Option.bind_eq_some_iff.mp hhook
      exact single_of_present (hw.answers.metamethod o op g hg) hpresent
    · cases hhook
  · cases hhook

theorem Flat.hook? (hw : w.Flat) {v h : Value} {op : Operator}
    (hhook : w.hook? v op = some h) : h.Single := by
  rcases Option.or_eq_some_iff.mp hhook with hown | ⟨-, hobject⟩
  · exact hw.metatableHook? hown
  · exact hw.objectHook? hobject

theorem Flat.single_callee (hw : w.Flat) {hops : Nat} {v : Value} {args args' : List Value}
    {callee : Callee} (hv : v.Single) (hargs : ∀ a ∈ args, a.Single)
    (h : w.callee hops v args = .ok (callee, args')) : ∀ a ∈ args', a.Single := by
  fun_induction World.callee w hops v args with
  | case1 hops args f =>
    cases h
    exact hargs
  | case2 hops args f =>
    cases h
    exact hargs
  | case3 => cases h
  | case4 v args hops _ _ g hhook ih =>
    exact ih (hw.hook? hhook) (List.forall_mem_cons.mpr ⟨hv, hargs⟩) h
  | case5 => cases h

/-! ## Operators -/

omit [HostObjects H] in
theorem flat_pair {a b : Value} (ha : a.Flat) (hb : b.Flat) : ∀ v ∈ [a, b], v.Flat := by
  simp [ha, hb]

theorem flat_resolveArith (w : World H) (op : Operator) (a b : Value) :
    FlatResult Resolved.Flat (w.resolveArith op a b) := by
  have hargs := flat_pair a.single_toScalar.flat b.single_toScalar.flat
  unfold resolveArith
  dsimp only
  split
  · trivial
  · split
    · exact hargs
    · exact ScriptError.flat_of_payload rfl

theorem flat_resolveNegate (w : World H) (a : Value) :
    FlatResult Resolved.Flat (w.resolveNegate a) := by
  have hargs := flat_pair a.single_toScalar.flat a.single_toScalar.flat
  unfold resolveNegate
  dsimp only
  split
  · trivial
  · split
    · exact hargs
    · exact ScriptError.flat_of_payload rfl

theorem flat_resolveConcat (w : World H) (a b : Value) :
    FlatResult Resolved.Flat (w.resolveConcat a b) := by
  have hargs := flat_pair a.single_toScalar.flat b.single_toScalar.flat
  unfold resolveConcat
  dsimp only
  split
  · trivial
  · split
    · exact hargs
    · exact ScriptError.flat_of_payload rfl

theorem flat_resolveLength (w : World H) (a : Value) :
    FlatResult Resolved.Flat (w.resolveLength a) := by
  have harg := a.single_toScalar.flat
  unfold resolveLength
  split
  · trivial
  · split
    · simp [FlatResult, Resolved.Flat, Value.Flat]
    · trivial
  · split
    · simpa [FlatResult, Resolved.Flat] using harg
    · exact ScriptError.flat_of_payload rfl

theorem flat_resolveEqual (w : World H) (a b : Value) : (w.resolveEqual a b).Flat := by
  have hargs := flat_pair a.single_toScalar.flat b.single_toScalar.flat
  unfold resolveEqual
  dsimp only
  split
  · trivial
  · split
    · exact hargs
    · trivial

theorem flat_resolveLess (w : World H) (a b : Value) :
    FlatResult Resolved.Flat (w.resolveLess a b) := by
  have hargs := flat_pair a.single_toScalar.flat b.single_toScalar.flat
  unfold resolveLess
  dsimp only
  split
  · trivial
  · trivial
  · split
    · exact hargs
    · exact ScriptError.flat_of_payload rfl

theorem flat_resolveLessEqual (w : World H) (a b : Value) :
    FlatResult Resolved.Flat (w.resolveLessEqual a b) := by
  have ha := a.single_toScalar.flat
  have hb := b.single_toScalar.flat
  unfold resolveLessEqual
  dsimp only
  split
  · trivial
  · trivial
  · split
    · exact flat_pair ha hb
    · split
      · exact flat_pair hb ha
      · exact ScriptError.flat_of_payload rfl

theorem flat_resolveText (w : World H) (a : Value) : (w.resolveText a).Flat := by
  have harg := a.single_toScalar.flat
  unfold resolveText
  dsimp only
  split
  · simpa [Resolved.Flat] using harg
  · trivial

/-! ## Indexing -/

theorem Flat.userIndex (hw : w.Flat) (u : UserDataRef) {key : Value} (hkey : key.Flat) :
    FlatResult Value.Flat (w.userIndex u key) := by
  unfold World.userIndex
  split
  · exact hw.answers.index _ hkey
  · trivial

theorem Flat.userAssign (hw : w.Flat) (u : UserDataRef) {key value : Value} (hkey : key.Flat)
    (hvalue : value.Single) : FlatResult (fun _ => True) (w.userAssign u key value) := by
  unfold World.userAssign
  split
  · exact hw.answers.setIndex _ hkey hvalue
  · trivial

theorem Flat.indexWithin (hw : w.Flat) {key object : Value} (hkey : key.Flat)
    (hobject : object.Single) (hops : Nat) :
    FlatResult Resolved.Flat (w.indexWithin key hops object) := by
  induction hops generalizing object with
  | zero => exact ScriptError.flat_of_payload rfl
  | succ hops ih =>
    have hfollow {h : Value} (hh : h.Single) : FlatResult Resolved.Flat
        (if h.isCallable then .ok (.call ⟨h, [object, key], .scalar⟩)
          else w.indexWithin key hops h) := by
      split
      · exact flat_pair hobject.flat hkey
      · exact ih hh
    unfold World.indexWithin
    dsimp only
    split
    · split
      · exact ((hw.table _).get key).1.flat
      · split
        · next h hhook => exact hfollow (hw.metatableHook? hhook)
        · trivial
    · exact (hw.userIndex _ hkey).map fun v hv => hv
    · split
      · next h hhook => exact hfollow (hw.metatableHook? hhook)
      · exact ScriptError.flat_of_payload rfl

theorem Flat.resolveIndex (hw : w.Flat) {key : Value} (hkey : key.Flat) (object : Value) :
    FlatResult Resolved.Flat (w.resolveIndex object key) :=
  hw.indexWithin hkey object.single_toScalar _

theorem Flat.setIndexWithin (hw : w.Flat) {key value object : Value} (hkey : key.Flat)
    (hvalue : value.Storable) (hobject : object.Single) (hops : Nat) :
    FlatResult Assignment.Flat (w.setIndexWithin key value hops object) := by
  induction hops generalizing object with
  | zero => exact ScriptError.flat_of_payload rfl
  | succ hops ih =>
    have hfollow {h : Value} (hh : h.Single) : FlatResult (Assignment.Flat (H := H))
        (if h.isCallable then .ok (.call ⟨h, [object, key, value], .discard⟩)
          else w.setIndexWithin key value hops h) := by
      split
      · simp [FlatResult, Assignment.Flat, hobject.flat, hkey, hvalue.1.flat]
      · exact ih hh
    unfold World.setIndexWithin
    dsimp only
    split
    · split
      · next h hhook =>
        split at hhook
        · exact hfollow (hw.metatableHook? hhook)
        · cases hhook
      · split
        · next k hk => exact ⟨⟨key, hk, rfl⟩, hvalue⟩
        · exact ScriptError.flat_of_payload rfl
    · exact (hw.userAssign _ hkey hvalue.1).map fun o ho => trivial
    · split
      · next h hhook => exact hfollow (hw.metatableHook? hhook)
      · exact ScriptError.flat_of_payload rfl

theorem Flat.resolveSetIndex (hw : w.Flat) {key : Value} (hkey : key.Flat)
    (object value : Value) : FlatResult Assignment.Flat (w.resolveSetIndex object key value) :=
  hw.setIndexWithin hkey value.storable_toStorable object.single_toScalar _

theorem Flat.assign (hw : w.Flat) {assignment : Assignment H} (h : assignment.Flat) :
    (w.assign assignment).Flat := by
  cases assignment with
  | entry t key written value =>
    obtain ⟨⟨k, hk, rfl⟩, hvalue⟩ := h
    exact hw.modifyTable t fun t ht => ht.setKey hk hvalue
  | object u o => exact hw.setUserObject u o
  | call p => exact hw

end World

end ScriptEngine
