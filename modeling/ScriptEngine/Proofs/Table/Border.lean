import ScriptEngine.Proofs.Table.Refinement

/-!
# The length of a table

The length that a table remembers follows its writes step by step, and it is never more
than a shortcut: whenever it is asked for, in whatever history, the answer is the number
that counting on from position 1 would give.
-/

namespace ScriptEngine

section Histories

variable {σ : Type} (perform : σ → TableOperation → TableAnswer × σ)

theorem performAll_append (s : σ) (before after : List TableOperation) :
    performAll perform s (before ++ after) =
      ((performAll perform s before).1 ++
          (performAll perform (performAll perform s before).2 after).1,
        (performAll perform (performAll perform s before).2 after).2) := by
  induction before generalizing s with
  | nil => rfl
  | cons op rest ih => simp [performAll, ih]

/-- Every operation is answered. -/
theorem length_performAll (s : σ) (history : List TableOperation) :
    (performAll perform s history).1.length = history.length := by
  induction history generalizing s with
  | nil => rfl
  | cons op rest ih => simp [performAll, ih]

end Histories

namespace Table

/-- The positions from 1 to `n` have values and the one behind them has none. -/
structure EndsAt (t : Table) (n : Nat) : Prop where
  live : ∀ i : Nat, 1 ≤ i → i ≤ n → (t.getInt i).isNil = false
  ended : (t.getInt (n + 1)).isNil = true

/-- There is one number where the positions end. -/
theorem EndsAt.unique {t : Table} {m n : Nat} (hm : t.EndsAt m) (hn : t.EndsAt n) : m = n := by
  by_contra hne
  rcases Nat.lt_or_gt_of_ne hne with hlt | hgt
  · have hlive := hn.live (m + 1) (by omega) hlt
    simp [hm.ended] at hlive
  · have hlive := hm.live (n + 1) (by omega) hgt
    simp [hn.ended] at hlive

theorem getInt_position (t : Table) {i : Nat} (hi : 1 ≤ i) :
    t.getInt i = t.getKey (.position i) := by
  have hpos : (1 : Int) ≤ i := by omega
  simp [getInt, hpos]

namespace Indexed

variable {t : Table}

theorem isNil_getInt_iff (ht : t.Indexed) {i : Nat} (hi : 1 ≤ i) :
    (t.getInt i).isNil = true ↔ ¬ t.bindings.Bound (.position i) := by
  rw [getInt_position t hi, ← ht.isLiveAt_iff, isLiveAt]
  simp

theorem endsAt_border (ht : t.Indexed) : t.EndsAt t.bindings.border := by
  obtain ⟨hended, hlive⟩ :=
    Association.border_eq_iff.mp (rfl : t.bindings.border = t.bindings.border)
  constructor
  · intro i hpos hle
    rw [← Bool.not_eq_true, ht.isNil_getInt_iff hpos, not_not]
    obtain ⟨m, rfl⟩ : ∃ m, i = m + 1 := ⟨i - 1, by omega⟩
    exact hlive m (by omega)
  · exact (ht.isNil_getInt_iff (i := t.bindings.border + 1) (by omega)).mpr hended

end Indexed

theorem Consistent.endsAt_length {t : Table} (ht : t.Consistent) : t.EndsAt t.length := by
  rw [ht.length_eq_border]
  exact ht.endsAt_border

/-- Counting on from position 1 finds the length, whatever is remembered. -/
theorem Consistent.length_eq_probeLength {t : Table} (ht : t.Consistent) :
    t.length = t.probeLength 0 := by
  rw [ht.length_eq_border, ht.probeLength_eq_border (Nat.zero_le _)]

/-- Wherever in a history the length is asked for, the answer is the one number where the
positions end then, and the number that counting from 1 finds. -/
theorem endsAt_performAll (before after : List TableOperation) :
    let t := (performAll perform {} before).2
    ∃ n, (performAll perform {} (before ++ .askLength :: after)).1[before.length]? =
        some (.length n) ∧
      t.EndsAt n ∧ (∀ m, t.EndsAt m → m = n) ∧ n = t.probeLength 0 := by
  intro t
  have ht : t.Consistent := (denotes_empty.performAll before).2.consistent
  refine ⟨t.length, ?_, ht.endsAt_length, fun m hm => hm.unique ht.endsAt_length,
    ht.length_eq_probeLength⟩
  have hanswered := length_performAll perform ({} : Table) before
  rw [performAll_append, List.getElem?_append_right (by omega), hanswered, Nat.sub_self]
  rfl

end Table

end ScriptEngine
