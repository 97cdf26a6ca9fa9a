import ScriptEngine.Proofs.Table.Editing

/-!
# The values that a table holds

A write puts one value in the place of another, and taking a key out takes its value
along: up to their order, the values before and after differ by those two.  Moving items
is a row of such writes, and all that is left of it is that the value written over first
has gone and the one read last stands there twice.  What is taken out of a sequence is
therefore what the table has lost.
-/

namespace ScriptEngine

namespace Association

variable {a : Association} {key : Key} {written value : Value}

def values (a : Association) : List Value := a.map (·.value)

/-- A key that is bound is bound once. -/
theorem exists_split (hnodup : (a.map (·.key)).Nodup) (hbound : a.Bound key) :
    ∃ (before behind : Association) (b : Binding), a = before ++ b :: behind ∧
      b.key = key ∧ a.read key = b.value ∧ ¬ before.Bound key ∧ ¬ behind.Bound key := by
  obtain ⟨b, hmem, rfl⟩ := hbound
  have hread : a.read b.key = b.value := by
    unfold read
    rw [(lookup?_eq_some_iff hnodup).mpr ⟨b, hmem, rfl, rfl⟩]
    rfl
  obtain ⟨before, behind, rfl⟩ := List.append_of_mem hmem
  refine ⟨before, behind, b, rfl, rfl, hread, ?_⟩
  rw [List.map_append, List.map_cons, List.nodup_append, List.nodup_cons] at hnodup
  obtain ⟨-, ⟨hbehind, -⟩, hbefore⟩ := hnodup
  constructor
  · rintro ⟨c, hc, hkey⟩
    exact hbefore c.key (List.mem_map_of_mem hc) b.key List.mem_cons_self hkey
  · rintro ⟨c, hc, hkey⟩
    exact hbehind (hkey ▸ List.mem_map_of_mem hc)

theorem values_around (before behind : Association) (b : Binding) :
    values (before ++ b :: behind) = before.values ++ b.value :: behind.values := by
  simp [values]

/-- A new value stands where the old one stood. -/
theorem values_write_perm (hnodup : (a.map (·.key)).Nodup) (hbound : a.Bound key)
    (hlive : value.isNil = false) :
    (a.read key :: (a.write key written value).values).Perm (value :: a.values) := by
  have hwrite : a.write key written value =
      a.map fun b => if b.key = key then { b with value } else b := by
    unfold write
    rw [if_neg (by simp [hlive]), if_pos (isSome_lookup?.mpr hbound)]
  obtain ⟨before, behind, b, rfl, hkey, hread, hbefore, hbehind⟩ := exists_split hnodup hbound
  rw [hwrite, hread, List.map_append, List.map_cons, if_pos hkey,
    map_replace_eq_self_of_not_bound hbefore, map_replace_eq_self_of_not_bound hbehind,
    values_around, values_around]
  calc
    List.Perm (b.value :: (before.values ++ value :: behind.values))
        (b.value :: value :: (before.values ++ behind.values)) :=
      List.perm_middle.cons _
    List.Perm _ (value :: b.value :: (before.values ++ behind.values)) :=
      List.Perm.swap _ _ _
    List.Perm _ (value :: (before.values ++ b.value :: behind.values)) :=
      List.perm_middle.symm.cons _

/-- A key that goes takes its value along. -/
theorem values_clear_perm (hnodup : (a.map (·.key)).Nodup) (hbound : a.Bound key) :
    (a.read key :: (a.write key written .nil).values).Perm a.values := by
  have hwrite : a.write key written .nil = a.filter fun b => b.key ≠ key := rfl
  obtain ⟨before, behind, b, rfl, hkey, hread, hbefore, hbehind⟩ := exists_split hnodup hbound
  have hgone : (List.filter (fun b : Binding => b.key ≠ key) (before ++ b :: behind)) =
      before ++ behind := by
    rw [List.filter_append, List.filter_cons, filter_eq_self_of_not_bound hbefore,
      filter_eq_self_of_not_bound hbehind, if_neg (by simp [hkey])]
  rw [hwrite, hread, hgone, values_around]
  have hvalues : values (before ++ behind) = before.values ++ behind.values := by
    simp [values]
  rw [hvalues]
  exact List.perm_middle.symm

end Association

namespace Table

variable {t : Table} {first n place : Nat} {v : Value}

/-- The values of the live entries. -/
def values (t : Table) : List Value := t.pairs.map (·.2)

theorem length_values (t : Table) : t.values.length = t.count := by
  simp [values, pairs, count]

@[simp] theorem pairs_noteLength (t : Table) : t.noteLength.pairs = t.pairs := rfl

@[simp] theorem count_noteLength (t : Table) : t.noteLength.count = t.count := rfl

namespace Consistent

theorem values_eq_bindings (ht : t.Consistent) : t.values = t.bindings.values := by
  unfold values Association.values
  rw [pairs_eq_bindings ht.toIndexed, List.map_map]
  rfl

theorem bound_position (ht : t.Consistent) {i : Nat} (hpos : 1 ≤ i)
    (hlive : (t.getKey (.position i)).isNil = false) : t.bindings.Bound (.position i) := by
  by_contra hunbound
  rw [← ht.toIndexed.isNil_getInt_iff hpos, getInt_position t hpos, hlive] at hunbound
  cases hunbound

theorem bindings_setInt (ht : t.Consistent) {i : Nat} (hpos : 1 ≤ i)
    (hlast : i ≤ Key.maxPosition) (v : Value) :
    (t.setInt i v).bindings =
      t.bindings.write (.position i) (.number (Float.ofInt i)) v.toStorable := by
  rw [(ht.denotes.setInt i v).bindings, Association.writeInteger, integerKey?_eq_ofValue?,
    Key.ofValue?_position hpos hlast]

/-- A write over a live value puts the new one in its place. -/
theorem values_setInt_perm (ht : t.Consistent) {i : Nat} (hpos : 1 ≤ i)
    (hlast : i ≤ Key.maxPosition) (hold : (t.getKey (.position i)).isNil = false)
    (hv : v.toStorable.isNil = false) :
    (t.getKey (.position i) :: (t.setInt i v).values).Perm (v.toStorable :: t.values) := by
  rw [(ht.setInt i v).values_eq_bindings, ht.values_eq_bindings, ht.bindings_setInt hpos hlast,
    ht.getKey_eq_read]
  exact Association.values_write_perm ht.nodup_keys (ht.bound_position hpos hold) hv

theorem values_clear_perm (ht : t.Consistent) {i : Nat} (hpos : 1 ≤ i)
    (hlast : i ≤ Key.maxPosition) (hold : (t.getKey (.position i)).isNil = false) :
    (t.getKey (.position i) :: (t.setInt i .nil).values).Perm t.values := by
  rw [(ht.setInt i .nil).values_eq_bindings, ht.values_eq_bindings,
    ht.bindings_setInt hpos hlast, ht.getKey_eq_read]
  exact Association.values_clear_perm ht.nodup_keys (ht.bound_position hpos hold)

/-- Two exchanges in a row: what came in first and went again counts for nothing. -/
theorem perm_exchange {x y z : Value} {before between behind : List Value}
    (hfirst : (x :: between).Perm (y :: before)) (hthen : (y :: behind).Perm (z :: between)) :
    (x :: behind).Perm (z :: before) := by
  refine List.Perm.cons_inv (a := y) ?_
  calc
    List.Perm (y :: x :: behind) (x :: y :: behind) := List.Perm.swap _ _ _
    List.Perm _ (x :: z :: between) := hthen.cons x
    List.Perm _ (z :: x :: between) := List.Perm.swap _ _ _
    List.Perm _ (z :: y :: before) := hfirst.cons z
    List.Perm _ (y :: z :: before) := List.Perm.swap _ _ _

/-- Moving items down costs the one that stood lowest and doubles the last one. -/
theorem values_shiftDown_perm (ht : t.Consistent) (hfirst : 1 ≤ first)
    (hlast : first + n ≤ Key.maxPosition)
    (hlive : ∀ i, first ≤ i → i ≤ first + n → (t.getKey (.position i)).isNil = false) :
    (t.getKey (.position first) :: (Table.shiftDown first n t).values).Perm
      (t.getKey (.position (first + n)) :: t.values) := by
  induction n generalizing first t with
  | zero => exact List.Perm.refl _
  | succ n ih =>
    have hnext := ht.toStorable_getInt_position (i := first + 1) (by omega)
    have hstep := ht.values_setInt_perm (v := t.getInt (first + 1 : Nat)) hfirst (by omega)
      (hlive first (by omega) (by omega)) (hnext ▸ hlive (first + 1) (by omega) (by omega))
    rw [hnext] at hstep
    have hwritten := ht.setInt (first : Int) (t.getInt (first + 1 : Nat))
    have hread : ∀ i, first < i → (t.setInt first (t.getInt (first + 1 : Nat))).getKey
        (.position i) = t.getKey (.position i) := by
      intro i hi
      rw [ht.getKey_setInt_position hfirst (by omega),
        if_neg (by simp only [Key.position.injEq]; omega)]
    have hmoved := ih hwritten (by omega : 1 ≤ first + 1) (by omega) (by
      intro i hlow hhigh
      rw [hread i (by omega)]
      exact hlive i (by omega) (by omega))
    rw [hread _ (by omega), hread _ (by omega)] at hmoved
    have hend : first + 1 + n = first + (n + 1) := by omega
    rw [hend] at hmoved
    exact perm_exchange hstep hmoved

/-- What is taken out is what the values have lost. -/
theorem values_removeAt_perm (ht : t.Consistent) (hfirst : 1 ≤ place)
    (hplace : place ≤ t.length) :
    (t.getKey (.position place) :: (t.removeAt place).2.values).Perm t.values := by
  have hmax := ht.length_le
  have hend : place + (t.length - place) = t.length := by omega
  have hlive : ∀ i, place ≤ i → i ≤ t.length → (t.getKey (.position i)).isNil = false :=
    fun i hlow hhigh => ht.isNil_getKey_position (by omega) hhigh
  have hmoved := ht.noteLength.values_shiftDown_perm (n := t.length - place) hfirst
    (by omega) (by simpa only [getKey_noteLength, hend] using hlive)
  obtain ⟨hconsistent, hread⟩ := ht.noteLength.shiftDown (n := t.length - place) hfirst
    (by omega)
  have hlast : (Table.shiftDown place (t.length - place) t.noteLength).getKey (.position t.length) =
      t.getKey (.position t.length) := by
    rw [hread, Key.above_eq_self, getKey_noteLength]
    simp only [ne_eq, Key.position.injEq]
    omega
  have hcleared := hconsistent.values_clear_perm (i := t.length) (by omega) hmax
    (hlast ▸ hlive t.length hplace (le_refl _))
  rw [removeAt_snd hplace]
  rw [hlast] at hcleared
  rw [getKey_noteLength, getKey_noteLength, hend] at hmoved
  refine List.Perm.cons_inv (a := t.getKey (.position t.length)) ?_
  exact (List.Perm.swap _ _ _).trans ((hcleared.cons _).trans hmoved)

end Consistent

/-- Taking a value out at a position: the table loses that value and no other, and it
loses nothing where there is none. -/
structure Conserves (t t' : Table) (position : Int) (v : Value) : Prop where
  taken : v.isNil = false → v = t.getInt position
  values : v.isNil = false → (v :: t'.values).Perm t.values
  count : v.isNil = false → t'.count + 1 = t.count
  untouched : v.isNil = true → t'.pairs = t.pairs

theorem Conserves.of_perm {t' : Table} {position : Int} (htaken : v = t.getInt position)
    (hperm : (v :: t'.values).Perm t.values) (hlive : v.isNil = false) :
    t.Conserves t' position v where
  taken _ := htaken
  values _ := hperm
  count _ := by
    have hlength := hperm.length_eq
    rwa [List.length_cons, length_values, length_values] at hlength
  untouched hnil := by
    rw [hlive] at hnil
    cases hnil

theorem Conserves.of_nil {t' : Table} {position : Int} (hnil : v.isNil = true)
    (hpairs : t'.pairs = t.pairs) : t.Conserves t' position v := by
  constructor
  case untouched => exact fun _ => hpairs
  all_goals
    intro hlive
    rw [hnil] at hlive
    cases hlive

/-- A table that still holds what was taken from it has not conserved it. -/
theorem Conserves.isNil_of_pairs_eq {t' : Table} {position : Int}
    (h : t.Conserves t' position v) (hpairs : t'.pairs = t.pairs) : v.isNil = true := by
  by_contra hlive
  have hcount := h.count (by simpa using hlive)
  have hsame : t'.count = t.count := by
    have hlength := congrArg List.length hpairs
    rwa [pairs, pairs, List.length_map, List.length_map] at hlength
  omega

/-- Within the length a value goes; behind the last item there is none to go. -/
theorem Consistent.conserves_removeAt (ht : t.Consistent) (hfirst : 1 ≤ place)
    (hplace : place ≤ t.length + 1) :
    t.Conserves (t.removeAt place).2 place (t.removeAt place).1 := by
  have htaken := ht.removeAt_fst hplace
  by_cases hwithin : place ≤ t.length
  · refine .of_perm htaken ?_ ?_
    · rw [htaken, getInt_position t hfirst]
      exact ht.values_removeAt_perm hfirst hwithin
    · rw [htaken, getInt_position t hfirst]
      exact ht.isNil_getKey_position hfirst hwithin
  · have hend : place = t.length + 1 := by omega
    have hnil : (t.removeAt place).1.isNil = true := by
      rw [htaken, hend]
      exact ht.endsAt_length.ended
    have hkept : (t.removeAt place).2 = t.noteLength := by
      have hzero : t.length - place = 0 := by omega
      simp only [removeAt, length_noteLength, hzero]
      exact if_neg hwithin
    rw [hkept]
    exact .of_nil hnil rfl

end Table

end ScriptEngine
