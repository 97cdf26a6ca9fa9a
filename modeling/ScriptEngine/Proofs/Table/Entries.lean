import Mathlib.Data.List.Induction
import ScriptEngine.Proofs.Table.Consistency

/-!
# Changes of single entries

The four elementary changes of a table: the value at a place is replaced, an
entry dies, the dead entries are swept, and an entry comes in at the end.  Each
of them keeps the indexes, and its effect on the association list is known.
-/

namespace ScriptEngine.Table

variable {t : Table} {key : Key} {place : Nat} {written value : Value}

/-! ## One entry among the others -/

/-- What the entries before and behind a place of a key say is about other
keys. -/
theorem Indexed.key_ne_of_ne_place (ht : t.Indexed)
    (hfind : t.index.find? key = some place) {other : Nat} {e : Entry}
    {b : Binding} (hother : t.entries.toList[other]? = some e)
    (hb : e.binding? = some b) (hne : other ≠ place) : b.key ≠ key := by
  intro hkey
  have hsame := ht.find?_of_binding hother hb
  rw [hkey, hfind] at hsame
  exact hne (Option.some.inj hsame).symm

theorem Indexed.key_ne_of_mem_take (ht : t.Indexed)
    (hfind : t.index.find? key = some place) {b : Binding}
    (hb : b ∈ (t.entries.toList.take place).filterMap Entry.binding?) :
    b.key ≠ key := by
  obtain ⟨e, hmem, hb⟩ := List.mem_filterMap.mp hb
  obtain ⟨other, hother, hget⟩ := List.mem_take_iff_getElem.mp hmem
  have hget? : t.entries.toList[other]? = some e := by
    rw [List.getElem?_eq_getElem (by omega), hget]
  exact ht.key_ne_of_ne_place hfind hget? hb (by omega)

theorem Indexed.key_ne_of_mem_drop (ht : t.Indexed)
    (hfind : t.index.find? key = some place) {b : Binding}
    (hb : b ∈ (t.entries.toList.drop (place + 1)).filterMap Entry.binding?) :
    b.key ≠ key := by
  obtain ⟨e, hmem, hb⟩ := List.mem_filterMap.mp hb
  obtain ⟨other, hother, hget⟩ := List.mem_drop_iff_getElem.mp hmem
  have hget? : t.entries.toList[place + 1 + other]? = some e := by
    rw [List.getElem?_eq_getElem (by omega), ← hget]
  exact ht.key_ne_of_ne_place hfind hget? hb (by omega)

/-- The bindings around the entry at a place. -/
theorem bindings_eq_around {e : Entry}
    (hplace : t.entries.toList[place]? = some e) :
    t.bindings =
      (t.entries.toList.take place).filterMap Entry.binding? ++
        (e.binding?.toList ++
          (t.entries.toList.drop (place + 1)).filterMap Entry.binding?) := by
  obtain ⟨hlt, hget⟩ := List.getElem?_eq_some_iff.mp hplace
  have hsplit :
      t.entries.toList =
        t.entries.toList.take place ++
          e :: t.entries.toList.drop (place + 1) := by
    rw [← hget, ← List.drop_eq_getElem_cons hlt, List.take_append_drop]
  conv_lhs => rw [bindings, hsplit, List.filterMap_append, List.filterMap_cons]
  cases e.binding? <;> rfl

theorem bindings_setAt_eq_around {e : Entry}
    (hplace : t.entries.toList[place]? = some e) :
    (t.setAt place value).bindings =
      (t.entries.toList.take place).filterMap Entry.binding? ++
        (({ e with value } : Entry).binding?.toList ++
          (t.entries.toList.drop (place + 1)).filterMap Entry.binding?) := by
  obtain ⟨hlt, hget⟩ := List.getElem?_eq_some_iff.mp hplace
  have hmodify :
      (t.setAt place value).entries.toList =
        t.entries.toList.take place ++
          ({ e with value } : Entry) :: t.entries.toList.drop (place + 1) := by
    simp only [setAt, Array.toList_modify]
    rw [List.modify_eq_take_cons_drop hlt, hget]
  rw [bindings, hmodify, List.filterMap_append, List.filterMap_cons]
  cases ({ e with value } : Entry).binding? <;> rfl

/-! ## The elementary changes -/

theorem Indexed.bindings_setAt_nil (ht : t.Indexed)
    (hfind : t.index.find? key = some place) :
    (t.setAt place .nil).bindings = t.bindings.filter fun b => b.key ≠ key := by
  obtain ⟨e, hplace, hkey⟩ := ht.indexed key place hfind
  have hbefore := fun b hb => ht.key_ne_of_mem_take (b := b) hfind hb
  have hbehind := fun b hb => ht.key_ne_of_mem_drop (b := b) hfind hb
  have hentry : (e.binding?.toList.filter fun b => b.key ≠ key) = [] := by
    cases hb : e.binding? with
    | none => rfl
    | some b =>
        have hsame := (Entry.binding?_eq_some_iff.mp hb).2.1
        rw [hkey, Option.some.injEq] at hsame
        simp [hsame]
  have hdead : ({ e with value := .nil } : Entry).binding? = none := rfl
  rw [bindings_setAt_eq_around hplace, bindings_eq_around hplace, hdead,
    List.filter_append, List.filter_append, hentry,
    List.filter_eq_self.mpr (by simpa using hbefore),
    List.filter_eq_self.mpr (by simpa using hbehind)]
  rfl

theorem Indexed.bindings_setAt_live (ht : t.Indexed)
    (hfind : t.index.find? key = some place)
    (hlive : (t.valueAt place).isNil = false) (hvalue : value.isNil = false) :
    (t.setAt place value).bindings =
      t.bindings.map fun b => if b.key = key then { b with value } else b := by
  obtain ⟨e, hplace, hkey⟩ := ht.indexed key place hfind
  have hbefore := fun b hb => ht.key_ne_of_mem_take (b := b) hfind hb
  have hbehind := fun b hb => ht.key_ne_of_mem_drop (b := b) hfind hb
  have helive : e.isLive = true := by
    rw [Array.getElem?_toList] at hplace
    simpa [Entry.isLive, valueAt, hplace] using hlive
  have hold : e.binding? = some ⟨key, e.key, e.value⟩ :=
    Entry.binding?_eq_some_iff.mpr ⟨helive, hkey, rfl, rfl⟩
  have hnew :
      ({ e with value } : Entry).binding? = some ⟨key, e.key, value⟩ :=
    Entry.binding?_eq_some_iff.mpr
      ⟨by simpa [Entry.isLive] using hvalue, hkey, rfl, rfl⟩
  have hmap : ∀ a : Association, (∀ b ∈ a, b.key ≠ key) →
      (a.map fun b => if b.key = key then { b with value } else b) = a := by
    intro a hne
    apply Association.map_replace_eq_self_of_not_bound
    rintro ⟨b, hb, hkey⟩
    exact hne b hb hkey
  rw [bindings_setAt_eq_around hplace, bindings_eq_around hplace, hold, hnew,
    List.map_append, List.map_append, hmap _ hbefore, hmap _ hbehind]
  simp

@[simp] theorem bindings_sweep (t : Table) : t.sweep.bindings = t.bindings := by
  simp only [bindings, sweep, Array.toList_filter, List.filterMap_filter]
  congr 1
  funext e
  cases hlive : e.isLive <;> simp [Entry.binding?, hlive]

theorem bindings_appendEntry (hkey : Key.ofValue? written = some key)
    (hvalue : value.isNil = false) :
    (t.appendEntry key written value).bindings =
      t.bindings ++ [⟨key, written, value⟩] := by
  have hnew :
      ({ key := written, value } : Entry).binding? =
        some ⟨key, written, value⟩ :=
    Entry.binding?_eq_some_iff.mpr
      ⟨by simpa [Entry.isLive] using hvalue, hkey, rfl, rfl⟩
  simp [bindings, appendEntry, hnew]

@[simp] theorem bindings_shrinkFor (t : Table) (key : Key) :
    (t.shrinkFor key).bindings = t.bindings := by
  simp [bindings]

@[simp] theorem bindings_noteLength (t : Table) :
    t.noteLength.bindings = t.bindings := rfl

/-! ## The rebuilt index -/

theorem indexOf_concat (entries : List Entry) (e : Entry) :
    indexOf (entries ++ [e]) =
      match Key.ofValue? e.key with
      | some key => (indexOf entries).insert key entries.length
      | none => indexOf entries := by
  unfold indexOf
  rw [List.zipIdx_append, List.foldl_append, Nat.zero_add]
  rfl

/-- The rebuilt index names the last entry of a key. -/
theorem find?_indexOf_eq_some {entries : List Entry}
    (h : (indexOf entries).find? key = some place) :
    ∃ e, entries[place]? = some e ∧ Key.ofValue? e.key = some key := by
  induction entries using List.reverseRecOn with
  | nil => simp [indexOf] at h
  | append_singleton entries last ih =>
      rw [indexOf_concat] at h
      cases hlast : Key.ofValue? last.key with
      | none =>
          rw [hlast] at h
          obtain ⟨e, hplace, hkey⟩ := ih h
          exact ⟨e, List.getElem?_append_left
            (List.getElem?_eq_some_iff.mp hplace).1 ▸ hplace, hkey⟩
      | some k =>
          simp only [hlast, KeyIndex.find?_insert] at h
          split at h
          · next hk =>
              cases h
              exact ⟨last, by simp, hk ▸ hlast⟩
          · obtain ⟨e, hplace, hkey⟩ := ih h
            exact ⟨e, List.getElem?_append_left
              (List.getElem?_eq_some_iff.mp hplace).1 ▸ hplace, hkey⟩

theorem find?_indexOf_of_last {entries : List Entry} {e : Entry}
    (hplace : entries[place]? = some e) (hkey : Key.ofValue? e.key = some key)
    (hlast : ∀ other e', entries[other]? = some e' →
      Key.ofValue? e'.key = some key → other ≤ place) :
    (indexOf entries).find? key = some place := by
  -- The index is built from the front, so a later entry of the key wins.
  induction entries using List.reverseRecOn with
  | nil => simp at hplace
  | append_singleton entries last ih =>
      rw [indexOf_concat]
      have hlt := (List.getElem?_eq_some_iff.mp hplace).1
      rw [List.length_append, List.length_singleton] at hlt
      by_cases hend : place = entries.length
      · subst hend
        have hsame : last = e := by simpa using hplace
        simp [hsame, hkey, KeyIndex.find?_insert]
      · rw [List.getElem?_append_left (by omega)] at hplace
        have hrest : (indexOf entries).find? key = some place := by
          apply ih hplace
          intro other e' hother hkey'
          apply hlast other e' _ hkey'
          rw [List.getElem?_append_left
            (List.getElem?_eq_some_iff.mp hother).1]
          exact hother
        cases hk : Key.ofValue? last.key with
        | none => exact hrest
        | some k =>
            simp only [KeyIndex.find?_insert]
            rw [if_neg]
            · exact hrest
            · rintro rfl
              have := hlast entries.length last (by simp) hk
              omega

theorem plain_insert {index : KeyIndex} {key : Key} {code other : Nat}
    (h : (index.insert key place).plain[code]? = some other) :
    (∃ key : PlainKey, key.code = code) ∨ index.plain[code]? = some other := by
  cases key with
  | name s => exact Or.inr h
  | position i => exact Or.inr h
  | plain k =>
      simp only [KeyIndex.insert, Std.TreeMap.getElem?_insert] at h
      split at h
      · next hcode => exact Or.inl ⟨k, by simpa using hcode⟩
      · exact Or.inr h

theorem plain_indexOf {entries : List Entry} {code : Nat}
    (h : (indexOf entries).plain[code]? = some place) :
    ∃ key : PlainKey, key.code = code := by
  induction entries using List.reverseRecOn with
  | nil => simp [indexOf] at h
  | append_singleton entries last ih =>
      rw [indexOf_concat] at h
      cases hlast : Key.ofValue? last.key with
      | none => exact ih (by simpa [hlast] using h)
      | some k =>
          simp only [hlast] at h
          exact (plain_insert h).elim id ih

/-! ## Invariance of the indexes -/

theorem Indexed.sweep (ht : t.Indexed) : t.sweep.Indexed := by
  have hmem : ∀ e ∈ t.sweep.entries.toList,
      e ∈ t.entries.toList ∧ e.isLive = true := by
    intro e he
    simpa [Table.sweep] using he
  constructor
  · exact fun e he => ht.keyed e (hmem e he).1
  · exact fun e he => ht.scalar e (hmem e he).1
  · exact fun e he => ht.storable e (hmem e he).1
  · exact fun key place h => find?_indexOf_eq_some h
  · intro place e key hplace hlive hkey
    apply find?_indexOf_of_last hplace hkey
    intro other e' hother hkey'
    by_contra hlt
    have hdistinct : t.sweep.entries.toList.Pairwise fun e e' =>
        ∀ b, e.binding? = some b → ∀ c, e'.binding? = some c →
          b.key ≠ c.key := by
      rw [Table.sweep, Array.toList_filter]
      exact ht.pairwise_keys.filter _
    rw [List.pairwise_iff_getElem] at hdistinct
    obtain ⟨hi, hget⟩ := List.getElem?_eq_some_iff.mp hplace
    obtain ⟨hj, hget'⟩ := List.getElem?_eq_some_iff.mp hother
    have hlive' := (hmem e' (List.mem_of_getElem? hother)).2
    have hb : e.binding? = some ⟨key, e.key, e.value⟩ :=
      Entry.binding?_eq_some_iff.mpr ⟨hlive, hkey, rfl, rfl⟩
    have hc : e'.binding? = some ⟨key, e'.key, e'.value⟩ :=
      Entry.binding?_eq_some_iff.mpr ⟨hlive', hkey', rfl, rfl⟩
    have hne := hdistinct place other hi hj (by omega)
    rw [hget, hget'] at hne
    exact hne _ hb _ hc rfl
  · exact fun code place h => plain_indexOf h

/-- The entry at a place after the value at another or the same place was
replaced. -/
theorem getElem?_setAt (t : Table) (place other : Nat) (value : Value) :
    (t.setAt place value).entries.toList[other]? =
      (t.entries.toList[other]?).map fun e =>
        if place = other then { e with value } else e := by
  simp only [setAt, Array.toList_modify, List.getElem?_modify]
  by_cases hplace : place = other
  · simp [hplace]
  · simp [hplace]

theorem Indexed.setAt (ht : t.Indexed)
    (hfind : t.index.find? key = some place)
    (hvalue : value.toStorable = value) :
    (t.setAt place value).Indexed := by
  have hold : ∀ (other : Nat) (e' : Entry),
      (t.setAt place value).entries.toList[other]? = some e' →
        ∃ e, t.entries.toList[other]? = some e ∧
          (if place = other then { e with value } else e) = e' := by
    intro other e' hother
    rw [getElem?_setAt] at hother
    exact Option.map_eq_some_iff.mp hother
  constructor
  · intro e' he'
    obtain ⟨other, hother⟩ := List.getElem?_of_mem he'
    obtain ⟨e, he, rfl⟩ := hold other e' hother
    obtain ⟨key, hkey⟩ := ht.keyed e (List.mem_of_getElem? he)
    refine ⟨key, ?_⟩
    split <;> exact hkey
  · intro e' he'
    obtain ⟨other, hother⟩ := List.getElem?_of_mem he'
    obtain ⟨e, he, rfl⟩ := hold other e' hother
    have hscalar := ht.scalar e (List.mem_of_getElem? he)
    split <;> exact hscalar
  · intro e' he'
    obtain ⟨other, hother⟩ := List.getElem?_of_mem he'
    obtain ⟨e, he, rfl⟩ := hold other e' hother
    split
    · exact hvalue
    · exact ht.storable e (List.mem_of_getElem? he)
  · intro key' other hindex
    obtain ⟨e, he, hkey⟩ := ht.indexed key' other hindex
    refine ⟨if place = other then { e with value } else e, ?_, ?_⟩
    · rw [getElem?_setAt, he]
      rfl
    · split <;> exact hkey
  · intro other e' key' hother hlive' hkey'
    obtain ⟨e, he, rfl⟩ := hold other e' hother
    by_cases hplace : place = other
    · subst hplace
      obtain ⟨e₀, he₀, hkey₀⟩ := ht.indexed key place hfind
      rw [he] at he₀
      cases he₀
      have hsame : key = key' := by simpa [hkey₀] using hkey'
      exact hsame ▸ hfind
    · rw [if_neg hplace] at hlive' hkey'
      exact ht.reached other e key' he hlive' hkey'
  · exact ht.plain

theorem Indexed.pushEntry (ht : t.Indexed) (hnew : ¬ t.bindings.Bound key)
    (hkey : Key.ofValue? written = some key)
    (hwritten : written.toScalar = written)
    (hvalue : value.toStorable = value) :
    (t.appendEntry key written value).Indexed := by
  have hentries : (t.appendEntry key written value).entries.toList =
      t.entries.toList ++ [⟨written, value⟩] := by
    simp [appendEntry]
  have hindex : (t.appendEntry key written value).index =
      t.index.insert key t.entries.toList.length := by
    simp [appendEntry]
  have hall {P : Entry → Prop} (h : ∀ e ∈ t.entries.toList, P e) (hlast : P ⟨written, value⟩) :
      ∀ e ∈ (t.appendEntry key written value).entries.toList, P e := by
    rw [hentries]
    exact List.forall_mem_append.mpr ⟨h, List.forall_mem_singleton.mpr hlast⟩
  constructor
  · exact hall ht.keyed ⟨key, hkey⟩
  · exact hall ht.scalar hwritten
  · exact hall ht.storable hvalue
  · intro key' other hother
    rw [hindex, KeyIndex.find?_insert] at hother
    rw [hentries]
    split at hother
    · next hsame =>
        cases hother
        exact ⟨⟨written, value⟩, by simp, hsame ▸ hkey⟩
    · obtain ⟨e, he, hkey'⟩ := ht.indexed key' other hother
      rw [List.getElem?_append_left (List.getElem?_eq_some_iff.mp he).1]
      exact ⟨e, he, hkey'⟩
  · intro other e key' hother hlive hkey'
    rw [hentries] at hother
    rw [hindex, KeyIndex.find?_insert]
    by_cases hlt : other < t.entries.toList.length
    · rw [List.getElem?_append_left hlt] at hother
      have hreached := ht.reached other e key' hother hlive hkey'
      rw [if_neg, hreached]
      rintro rfl
      have hb : e.binding? = some ⟨key, e.key, e.value⟩ :=
        Entry.binding?_eq_some_iff.mpr ⟨hlive, hkey', rfl, rfl⟩
      exact hnew ⟨_, mem_bindings.mpr ⟨other, e, hother, hb⟩, rfl⟩
    · have hlast := (List.getElem?_eq_some_iff.mp hother).1
      rw [List.length_append, List.length_singleton] at hlast
      have hend : other = t.entries.toList.length := by omega
      subst hend
      have hsame : e = ⟨written, value⟩ := by simpa using hother.symm
      subst hsame
      have hkeys : key = key' := by simpa [hkey] using hkey'
      rw [if_pos hkeys]
  · intro code other hother
    rw [hindex] at hother
    exact (plain_insert hother).elim id (ht.plain code other)

end ScriptEngine.Table
