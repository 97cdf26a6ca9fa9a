import ScriptEngine.Proofs.Table.Entries

/-!
# Writes of a table

Every write of a consistent table leaves a consistent table that stands for
the written association list.  The length that is remembered has to follow the
border: a write moves the border only at the end of the run of positions.
-/

namespace ScriptEngine

/-- Positions are counted from 1 up to the last one. -/
theorem Key.bounds_of_ofValue?_eq_position {v : Value} {i : Nat}
    (h : Key.ofValue? v = some (.position i)) : 1 ≤ i ∧ i ≤ maxPosition := by
  unfold Key.ofValue? at h
  split at h
  case h_4 n _ =>
    unfold Key.ofNumber? at h
    split at h
    · cases h
    · generalize (if Double.isWhole n then (Dyadic.ofFloat n).truncate else 0) =
        whole at h
      by_cases hwhole : 1 ≤ whole ∧ whole ≤ maxPosition
      · simp only [if_pos hwhole] at h
        cases h
        omega
      · simp only [if_neg hwhole] at h
        cases h
  all_goals cases h

namespace Table

variable {t : Table} {key : Key} {place : Nat} {written value : Value}

/-! ## The remembered length -/

theorem Indexed.congr {t' : Table} (ht : t.Indexed)
    (hentries : t'.entries = t.entries) (hindex : t'.index = t.index) :
    t'.Indexed := by
  constructor
  · rw [hentries]
    exact ht.keyed
  · rw [hentries]
    exact ht.scalar
  · rw [hentries]
    exact ht.storable
  · rw [hentries, hindex]
    exact ht.indexed
  · rw [hentries, hindex]
    exact ht.reached
  · rw [hindex]
    exact ht.plain

theorem Consistent.noteLength (ht : t.Consistent) : t.noteLength.Consistent := by
  refine ⟨ht.toIndexed.congr rfl rfl, ?_⟩
  intro n hn
  rw [bindings_noteLength, ← ht.length_eq_border]
  exact Option.some.inj hn

theorem length?_shrinkFor {a : Association}
    (hlength : ∀ n, t.length? = some n → a.border = n)
    (hkey : Key.ofValue? written = some key) {n : Nat}
    (hn : (t.shrinkFor key).length? = some n) :
    Association.border (a.filter fun b => b.key ≠ key) = n := by
  cases key with
  | position i =>
      have hpos := (Key.bounds_of_ofValue?_eq_position hkey).1
      rw [Association.border_filter_position hpos]
      simp only [shrinkFor, shrinkLength] at hn
      cases hold : t.length? with
      | none => simp [hold] at hn
      | some m =>
          have hm := hlength m hold
          simp only [hold] at hn
          rw [hm]
          split at hn
          · next hle =>
              rw [if_pos hle]
              exact Option.some.inj hn
          · next hgt =>
              rw [if_neg hgt]
              exact Option.some.inj (hold.symm.trans hn)
  | name s =>
      rw [Association.border_filter_of_ne (by simp)]
      exact hlength n hn
  | plain k =>
      rw [Association.border_filter_of_ne (by simp)]
      exact hlength n hn

/-- The run of positions goes on from the new one, if that is where it
ended. -/
theorem length?_growFor {a : Association} (ht : t.Indexed) {b : Binding}
    (hbindings : t.bindings = a ++ [b])
    (hlength : ∀ n, t.length? = some n → a.border = n)
    {n : Nat} (hn : (t.growFor b.key).length? = some n) :
    t.bindings.border = n := by
  cases hkey : b.key with
  | position i =>
      simp only [hkey, growFor, growLength] at hn
      cases hold : t.length? with
      | none => simp [hold] at hn
      | some m =>
          have hm := hlength m hold
          simp only [hold] at hn
          split at hn
          · next hnext =>
              have hle : i - 1 ≤ t.bindings.border := by
                have := Association.border_le_append (a := a) (b := b)
                rw [hbindings]
                omega
              rw [← ht.probeLength_eq_border hle]
              exact Option.some.inj hn
          · next hother =>
              have hsame : m = n := Option.some.inj (hold.symm.trans hn)
              have hne : b.key ≠ .position (a.border + 1) := by
                rw [hkey, hm]
                simpa using hother
              rw [hbindings, Association.border_append_of_ne hne, hm, hsame]
  | name s =>
      rw [hkey] at hn
      rw [hbindings, Association.border_append_of_ne (by simp [hkey])]
      exact hlength n hn
  | plain k =>
      rw [hkey] at hn
      rw [hbindings, Association.border_append_of_ne (by simp [hkey])]
      exact hlength n hn

theorem Consistent.sweep (ht : t.Consistent) : t.sweep.Consistent := by
  refine ⟨ht.toIndexed.sweep, ?_⟩
  intro n hn
  rw [bindings_sweep]
  exact ht.length n hn

theorem Consistent.appendEntry (ht : t.Consistent)
    (hnew : ¬ t.bindings.Bound key) (hkey : Key.ofValue? written = some key)
    (hwritten : written.toScalar = written) (hvalue : value.toStorable = value)
    (hlive : value.isNil = false) :
    (t.appendEntry key written value).Consistent := by
  have hindexed := ht.toIndexed.pushEntry hnew hkey hwritten hvalue
  refine ⟨hindexed, ?_⟩
  intro n hn
  have hbindings := bindings_appendEntry (t := t) hkey hlive
  let pushed : Table :=
    { t with
      index := t.index.insert key t.entries.size
      entries := t.entries.push ⟨written, value⟩ }
  have hsame : pushed.bindings = (t.appendEntry key written value).bindings := by
    simp [bindings, pushed, Table.appendEntry]
  have hpushed : pushed.Indexed :=
    hindexed.congr (by simp [pushed, Table.appendEntry])
      (by simp [pushed, Table.appendEntry])
  rw [← hsame]
  exact length?_growFor (b := ⟨key, written, value⟩) hpushed
    (hsame.trans hbindings) ht.length hn

/-! ## Writing under a canonical key -/

/-- A dead entry that the index names. -/
theorem Indexed.valueAt_isNil (ht : t.Indexed)
    (hfind : t.index.find? key = some place) :
    (t.valueAt place).isNil = true ↔ ¬ t.bindings.Bound key := by
  obtain ⟨e, hplace, hkey⟩ := ht.indexed key place hfind
  have hvalue : t.valueAt place = e.value := by
    rw [Array.getElem?_toList] at hplace
    simp [valueAt, hplace]
  rw [hvalue]
  constructor
  · intro hnil
    exact ht.not_bound_of_dead hfind hplace (by simpa [Entry.isLive] using hnil)
  · intro hunbound
    by_contra hlive
    have hb : e.binding? = some ⟨key, e.key, e.value⟩ :=
      Entry.binding?_eq_some_iff.mpr
        ⟨by simpa [Entry.isLive] using hlive, hkey, rfl, rfl⟩
    exact hunbound ⟨_, mem_bindings.mpr ⟨place, e, hplace, hb⟩, rfl⟩

/-- The entry of a key dies in its place. -/
theorem Consistent.clear (ht : t.Consistent)
    (hfind : t.index.find? key = some place)
    (hkey : Key.ofValue? written = some key) :
    ({ t.setAt place .nil with hasDead := true }.shrinkFor key).Consistent ∧
      ({ t.setAt place .nil with hasDead := true }.shrinkFor key).bindings =
        t.bindings.filter fun b => b.key ≠ key := by
  have hdead : (t.setAt place .nil).Indexed := ht.toIndexed.setAt hfind rfl
  have hbindings :
      ({ t.setAt place .nil with hasDead := true }.shrinkFor key).bindings =
        t.bindings.filter fun b => b.key ≠ key := by
    rw [bindings_shrinkFor]
    exact ht.toIndexed.bindings_setAt_nil hfind
  refine ⟨⟨hdead.congr (by simp) (by simp), ?_⟩, hbindings⟩
  intro n hn
  rw [hbindings]
  have hkept : ∀ m, ({ t.setAt place .nil with hasDead := true } : Table).length? =
      some m → t.bindings.border = m := ht.length
  exact length?_shrinkFor hkept hkey hn

theorem Consistent.replace (ht : t.Consistent)
    (hfind : t.index.find? key = some place)
    (hbound : t.bindings.Bound key) (hvalue : value.toStorable = value)
    (hlive : value.isNil = false) :
    (t.setAt place value).Consistent ∧
      (t.setAt place value).bindings =
        t.bindings.map fun b =>
          if b.key = key then { b with value } else b := by
  have hold : (t.valueAt place).isNil = false := by
    have := ht.toIndexed.valueAt_isNil hfind
    simpa [hbound] using this
  have hbindings := ht.toIndexed.bindings_setAt_live hfind hold hlive
  refine ⟨⟨ht.toIndexed.setAt hfind hvalue, ?_⟩, hbindings⟩
  intro n hn
  rw [hbindings, ← ht.length n hn]
  apply Association.border_congr
  intro m
  exact Association.bound_map_replace

theorem Consistent.setKey (ht : t.Consistent)
    (hkey : Key.ofValue? written = some key)
    (hwritten : written.toScalar = written)
    (hvalue : value.toStorable = value) :
    (t.setKey key written value).Consistent ∧
      (t.setKey key written value).bindings =
        t.bindings.write key written value := by
  have hfresh : ∀ t' : Table, t'.Consistent → t'.bindings = t.bindings →
      ¬ t.bindings.Bound key → value.isNil = false →
        (t'.appendEntry key written value).Consistent ∧
          (t'.appendEntry key written value).bindings =
            t.bindings.write key written value := by
    intro t' ht' hsame hunbound hlive
    rw [← hsame] at hunbound
    refine ⟨ht'.appendEntry hunbound hkey hwritten hvalue hlive, ?_⟩
    rw [bindings_appendEntry hkey hlive, hsame, Association.write,
      if_neg (by simp [hlive]), if_neg]
    rw [Association.isSome_lookup?, ← hsame]
    exact hunbound
  unfold Table.setKey
  cases hfind : t.index.find? key with
  | none =>
      have hunbound := ht.toIndexed.not_bound_of_find?_eq_none hfind
      by_cases hnil : value.isNil = true
      · simp only [hnil, if_true, Association.write]
        exact ⟨ht, (Association.filter_eq_self_of_not_bound hunbound).symm⟩
      · have hlive : value.isNil = false := by simpa using hnil
        simp only [hlive, Bool.false_eq_true, if_false]
        split
        · exact hfresh t.sweep ht.sweep (bindings_sweep t) hunbound hlive
        · exact hfresh t ht rfl hunbound hlive
  | some place =>
      have hdead := ht.toIndexed.valueAt_isNil hfind
      by_cases hbound : t.bindings.Bound key
      · have hwas : (t.valueAt place).isNil = false := by
          simpa [hbound] using hdead
        by_cases hnil : value.isNil = true
        · simp only [hnil, hwas, if_true, Bool.false_eq_true, if_false,
            Association.write]
          exact ht.clear hfind hkey
        · have hlive : value.isNil = false := by simpa using hnil
          simp only [hlive, hwas, Bool.false_eq_true, if_false,
            Association.write, Association.isSome_lookup?, if_pos hbound]
          exact ht.replace hfind hbound hvalue hlive
      · have hwas := hdead.mpr hbound
        by_cases hnil : value.isNil = true
        · simp only [hnil, hwas, if_true, Association.write]
          exact ⟨ht, (Association.filter_eq_self_of_not_bound hbound).symm⟩
        · have hlive : value.isNil = false := by simpa using hnil
          simp only [hlive, hwas, Bool.false_eq_true, if_false, if_true]
          exact hfresh t.sweep ht.sweep (bindings_sweep t) hbound hlive

/-! ## Taking a key out -/

/-- Without its entry in the index a dead key is as unbound as with it. -/
theorem Indexed.eraseDead (ht : t.Indexed)
    (hunbound : ¬ t.bindings.Bound key) :
    ({ t with index := t.index.erase key, hasDead := true } : Table).Indexed := by
  constructor
  · exact ht.keyed
  · exact ht.scalar
  · exact ht.storable
  · intro key' other hother
    simp only [KeyIndex.find?_erase] at hother
    split at hother
    · cases hother
    · exact ht.indexed key' other hother
  · intro other e key' hother hlive hkey'
    have hreached := ht.reached other e key' hother hlive hkey'
    simp only [KeyIndex.find?_erase]
    rw [if_neg, hreached]
    rintro rfl
    have hb : e.binding? = some ⟨key, e.key, e.value⟩ :=
      Entry.binding?_eq_some_iff.mpr ⟨hlive, hkey', rfl, rfl⟩
    exact hunbound ⟨_, mem_bindings.mpr ⟨other, e, hother, hb⟩, rfl⟩
  · intro code other hother
    cases key with
    | name s => exact ht.plain code other hother
    | position i => exact ht.plain code other hother
    | plain k =>
        simp only [KeyIndex.erase, Std.TreeMap.getElem?_erase] at hother
        split at hother
        · cases hother
        · exact ht.plain code other hother

theorem Consistent.remove (ht : t.Consistent) (v : Value) :
    (t.remove v).2.Consistent ∧
      (t.remove v).2.bindings =
        (match Key.ofValue? v with
        | some key => t.bindings.filter fun b => b.key ≠ key
        | none => t.bindings) ∧
      ((t.remove v).1 = true ↔
        ∃ key, Key.ofValue? v = some key ∧ t.bindings.Bound key) := by
  unfold Table.remove
  cases hkey : Key.ofValue? v with
  | none => exact ⟨ht, rfl, by simp⟩
  | some key =>
      cases hfind : t.index.find? key with
      | none =>
          have hunbound := ht.toIndexed.not_bound_of_find?_eq_none hfind
          simp only [hfind]
          refine ⟨ht, (Association.filter_eq_self_of_not_bound hunbound).symm, ?_⟩
          simpa using hunbound
      | some place =>
          have hdead := ht.toIndexed.valueAt_isNil hfind
          have hset : (t.setAt place .nil).Indexed :=
            ht.toIndexed.setAt hfind rfl
          have hbindings := ht.toIndexed.bindings_setAt_nil hfind
          have hunbound : ¬ (t.setAt place .nil).bindings.Bound key := by
            rw [hbindings, Association.bound_filter_ne]
            simp
          have herased := hset.eraseDead hunbound
          simp only [hfind]
          refine ⟨⟨?_, ?_⟩, ?_, ?_⟩
          · split
            · exact herased.congr (by simp) (by simp [setAt])
            · exact herased
          · intro n hn
            split at hn
            · next hlive =>
                rw [if_pos hlive, bindings_shrinkFor]
                have hkept : ∀ m, ({ t.setAt place .nil with
                    index := t.index.erase key
                    hasDead := true } : Table).length? = some m →
                      t.bindings.border = m := ht.length
                exact (congrArg Association.border hbindings).trans
                  (length?_shrinkFor hkept hkey hn)
            · next hnil =>
                rw [if_neg hnil]
                have hgone : ¬ t.bindings.Bound key := by simpa [hdead] using hnil
                rw [← ht.length n hn]
                have := hbindings.trans (Association.filter_eq_self_of_not_bound hgone)
                exact congrArg Association.border this
          · split
            · rw [bindings_shrinkFor]
              exact hbindings
            · exact hbindings
          · have : (!(t.valueAt place).isNil) = true ↔ t.bindings.Bound key := by
              rw [Bool.not_eq_true', ← Bool.not_eq_true, hdead, not_not]
            simpa using this

end Table

end ScriptEngine
