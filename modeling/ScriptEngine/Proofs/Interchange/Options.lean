import ScriptEngine.Proofs.Interchange.Containers

/-!
# Lists with missing items

A missing item is written as nil, and a table to which nil is appended is the table that it
was.  So the items that are there close up: they come back in their order, each of them as
many places further to the front as items were missing before it.  The list that comes back
is the one that was written just if no item was missing.
-/

namespace ScriptEngine

variable {H : HostTypes} {α : Type} {P : α → Prop}

theorem ReadsAs.some [FromValue α] {w : World H} {a : α} {v : Value} (h : ReadsAs w a v) :
    ReadsAs w (some a) v := by
  refine ⟨h.storable, h.live, fun w' hw => ?_⟩
  have hscalar : v.toScalar = v := by
    apply Value.toScalar_eq_self
    intro items hv
    exact v.toStorable_ne_tuple items (h.storable.trans hv)
  change (if v.toScalar.isNil then .ok none else (fromValue w' v).map Option.some) = _
  rw [hscalar, h.live, h.read w' hw]
  rfl

/-- The values of a list with missing items are those of the items that are there, with nil
in between. -/
theorem valuesOf_options [ToValue α] {items : List (Option α)} {w : World H}
    (hkeeps : ∀ v ∈ (valuesOf items.reduceOption w).1, v.toStorable = v ∧ v.isNil = false) :
    (∀ v ∈ (valuesOf items w).1, v.toStorable = v) ∧
      ((valuesOf items w).1.filter fun v => !v.isNil) = (valuesOf items.reduceOption w).1 ∧
      (valuesOf items w).2 = (valuesOf items.reduceOption w).2 := by
  induction items generalizing w with
  | nil => simp [valuesOf]
  | cons item rest ih =>
    cases item with
    | none =>
      rw [List.reduceOption_cons_of_none] at hkeeps ⊢
      obtain ⟨hstorable, hlive, hworld⟩ := ih hkeeps
      simp only [valuesOf, toValue, List.forall_mem_cons]
      exact ⟨⟨rfl, hstorable⟩, hlive, hworld⟩
    | some a =>
      rw [List.reduceOption_cons_of_some] at hkeeps ⊢
      simp only [valuesOf, List.forall_mem_cons] at hkeeps
      obtain ⟨hstorable, hlive, hworld⟩ := ih hkeeps.2
      simp only [valuesOf, toValue, List.forall_mem_cons]
      refine ⟨⟨hkeeps.1.1, hstorable⟩, ?_, hworld⟩
      rw [List.filter_cons_of_pos (by simp [hkeeps.1.2]), hlive]

/-- The items that are there come back, without the gaps between them. -/
theorem ComesBack.options [FromValue α] [ToValue α] (h : ComesBack α P)
    {items : List (Option α)} (hlength : items.length ≤ Key.maxPosition)
    (hitems : ∀ a ∈ items.reduceOption, P a) (w : World H) :
    w.Precedes (toValue items w).2 ∧
      ∀ w', (toValue items w).2.Precedes w' →
        fromValue w' (toValue items w).1 = .ok (items.reduceOption.map Option.some) := by
  obtain ⟨hlater, hreads⟩ := h.row hitems w
  obtain ⟨hstorable, hlive, hworld⟩ := valuesOf_options (ReadsAs.keeps hreads)
  obtain ⟨r, hvalue, hprecedes, hdenotes⟩ := toValue_list hlength hstorable
  rw [hworld] at hprecedes
  rw [hlive] at hdenotes
  refine ⟨hlater.trans hprecedes, fun w' hw => ?_⟩
  rw [hvalue]
  have hsome : List.Forall₂ (ReadsAs (valuesOf items.reduceOption w).2)
      (items.reduceOption.map Option.some) (valuesOf items.reduceOption w).1 :=
    List.forall₂_map_left_iff.mpr (hreads.imp fun _ _ ha => ha.some)
  exact fromValue_of_sequence (hdenotes w' hw) (ReadsAs.reads hsome (hprecedes.trans hw))

theorem map_some_reduceOption_eq_self_iff {items : List (Option α)} :
    items.reduceOption.map Option.some = items ↔ none ∉ items := by
  constructor
  · intro hsame hnone
    rw [← hsame, List.mem_map] at hnone
    obtain ⟨a, -, ha⟩ := hnone
    cases ha
  · intro hnone
    induction items with
    | nil => rfl
    | cons item rest ih =>
      cases item with
      | none => simp at hnone
      | some a =>
        rw [List.reduceOption_cons_of_some, List.map_cons, ih fun h => hnone (by simp [h])]

namespace HostType

/-- Of a list with missing items those that are there come back, in their order and closed
up; it is the list that was written if and only if none was missing. -/
theorem present_return (type : HostType) {items : List (Option type.Data)}
    (hlength : items.length ≤ Key.maxPosition)
    (hitems : ∀ a ∈ items.reduceOption, type.Exact a) (w : World H) :
    fromValue (toValue items w).2 (toValue items w).1 =
        .ok (items.reduceOption.map Option.some) ∧
      (fromValue (toValue items w).2 (toValue items w).1 = .ok items ↔ none ∉ items) := by
  have hread := (ComesBack.options type.comesBack hlength hitems w).2 _ (.refl _)
  rw [hread]
  refine ⟨rfl, ?_⟩
  rw [Except.ok.injEq, map_some_reduceOption_eq_self_iff]

/-- Of three items the one in the middle is there. -/
def gapped : List (Option float.Data) :=
  [none, some (5 : Float), none]

theorem present_return_gapped :
    gapped.length ≤ Key.maxPosition ∧
      let w : World Workbench.types := .start { modules := ⟨false, false, false⟩ } {}
      fromValue (toValue gapped w).2 (toValue gapped w).1 = .ok [some (5 : Float)] :=
  ⟨by decide, (present_return float (by decide) (fun _ _ => trivial) _).1⟩

/-- What stood in second place comes back in first. -/
theorem moves_second :
    let w : World Workbench.types := .start { modules := ⟨false, false, false⟩ } {}
    let items : List (Option Float) := [none, some 5]
    fromValue (toValue items w).2 (toValue items w).1 = .ok [some (5 : Float)] ∧
      [some (5 : Float)] ≠ items :=
  ⟨(ComesBack.options comesBack_float (by decide) (fun _ _ => trivial) _).2 _ (.refl _), by simp⟩

end HostType

end ScriptEngine
