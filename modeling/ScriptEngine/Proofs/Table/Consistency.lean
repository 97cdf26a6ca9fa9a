import ScriptEngine.Proofs.Table.Association

/-!
# The joint invariant of a table

Three indexes hold places in one row of entries that is swept only now and
then.  `Table.Indexed` says what every operation keeps of them: an index names
places of entries with that very key, and a live entry is named by the index.
`Table.Consistent` adds that a remembered length is the border.  What such a
table means is the association list of its live entries, `Table.bindings`.
-/

namespace ScriptEngine

/-- What a live entry says; a dead one says nothing. -/
def Entry.binding? (e : Entry) : Option Binding :=
  if e.isLive then
    (Key.ofValue? e.key).map fun key => ⟨key, e.key, e.value⟩
  else none

theorem Entry.binding?_eq_some_iff {e : Entry} {b : Binding} :
    e.binding? = some b ↔
      e.isLive = true ∧ Key.ofValue? e.key = some b.key ∧
        b.written = e.key ∧ b.value = e.value := by
  obtain ⟨key, written, value⟩ := b
  unfold Entry.binding?
  by_cases hlive : e.isLive = true
  · rw [if_pos hlive, Option.map_eq_some_iff]
    constructor
    · rintro ⟨k, hk, hb⟩
      cases hb
      exact ⟨hlive, hk, rfl, rfl⟩
    · rintro ⟨-, hk, hwritten, hvalue⟩
      refine ⟨key, hk, ?_⟩
      simp only at hwritten hvalue
      rw [hwritten, hvalue]
  · simp [hlive]

namespace Table

/-- The association list that a table stands for. -/
def bindings (t : Table) : Association :=
  t.entries.toList.filterMap Entry.binding?

structure Indexed (t : Table) : Prop where
  keyed : ∀ e ∈ t.entries.toList, ∃ key, Key.ofValue? e.key = some key
  scalar : ∀ e ∈ t.entries.toList, e.key.toScalar = e.key
  storable : ∀ e ∈ t.entries.toList, e.value.toStorable = e.value
  indexed : ∀ key place, t.index.find? key = some place →
    ∃ e, t.entries.toList[place]? = some e ∧ Key.ofValue? e.key = some key
  reached : ∀ place e key, t.entries.toList[place]? = some e →
    e.isLive = true → Key.ofValue? e.key = some key →
      t.index.find? key = some place
  plain : ∀ code place, t.index.plain[code]? = some place →
    ∃ key : PlainKey, key.code = code

structure Consistent (t : Table) : Prop extends Indexed t where
  length : ∀ n, t.length? = some n → t.bindings.border = n

theorem consistent_empty : Consistent {} := by
  refine ⟨?_, by simp⟩
  constructor <;> simp

/-! ## The meaning of a table -/

theorem mem_bindings {t : Table} {b : Binding} :
    b ∈ t.bindings ↔
      ∃ (place : Nat) (e : Entry), t.entries.toList[place]? = some e ∧
        e.binding? = some b := by
  simp only [bindings, List.mem_filterMap]
  constructor
  · rintro ⟨e, hmem, hb⟩
    obtain ⟨place, hplace⟩ := List.getElem?_of_mem hmem
    exact ⟨place, e, hplace, hb⟩
  · rintro ⟨place, e, hplace, hb⟩
    exact ⟨e, List.mem_of_getElem? hplace, hb⟩

namespace Indexed

variable {t : Table}

/-- The place of a binding is the one the index gives to its key. -/
theorem find?_of_binding (ht : t.Indexed) {place : Nat} {e : Entry}
    {b : Binding} (hplace : t.entries.toList[place]? = some e)
    (hb : e.binding? = some b) : t.index.find? b.key = some place := by
  obtain ⟨hlive, hkey, -, -⟩ := Entry.binding?_eq_some_iff.mp hb
  exact ht.reached place e b.key hplace hlive hkey

theorem pairwise_keys (ht : t.Indexed) :
    t.entries.toList.Pairwise fun e e' =>
      ∀ b, e.binding? = some b → ∀ c, e'.binding? = some c → b.key ≠ c.key := by
  rw [List.pairwise_iff_getElem]
  intro i j hi hj hij b hb c hc hkey
  have hfirst :=
    ht.find?_of_binding (List.getElem?_eq_getElem hi) hb
  have hsecond :=
    ht.find?_of_binding (List.getElem?_eq_getElem hj) hc
  rw [hkey, hsecond] at hfirst
  have : j = i := by simpa using hfirst
  omega

theorem nodup_keys (ht : t.Indexed) :
    (t.bindings.map (·.key)).Nodup := by
  rw [List.Nodup, List.pairwise_map, bindings, List.pairwise_filterMap]
  exact ht.pairwise_keys

/-- A key that no live entry has is unbound. -/
theorem not_bound_of_find?_eq_none (ht : t.Indexed) {key : Key}
    (hfind : t.index.find? key = none) : ¬ t.bindings.Bound key := by
  rintro ⟨b, hmem, rfl⟩
  obtain ⟨place, e, hplace, hb⟩ := mem_bindings.mp hmem
  rw [ht.find?_of_binding hplace hb] at hfind
  cases hfind

theorem not_bound_of_dead (ht : t.Indexed) {key : Key} {place : Nat}
    {e : Entry} (hfind : t.index.find? key = some place)
    (hplace : t.entries.toList[place]? = some e) (hdead : e.isLive = false) :
    ¬ t.bindings.Bound key := by
  rintro ⟨b, hmem, rfl⟩
  obtain ⟨place', e', hplace', hb⟩ := mem_bindings.mp hmem
  have hsame : place' = place := by
    have := ht.find?_of_binding hplace' hb
    rw [hfind] at this
    exact (Option.some.inj this).symm
  subst hsame
  rw [hplace] at hplace'
  cases hplace'
  have hlive := (Entry.binding?_eq_some_iff.mp hb).1
  rw [hdead] at hlive
  cases hlive

theorem lookup?_of_live (ht : t.Indexed) {key : Key} {place : Nat}
    {e : Entry} (hplace : t.entries.toList[place]? = some e)
    (hkey : Key.ofValue? e.key = some key) (hlive : e.isLive = true) :
    t.bindings.lookup? key = some e.value := by
  have hb : e.binding? = some ⟨key, e.key, e.value⟩ :=
    Entry.binding?_eq_some_iff.mpr ⟨hlive, hkey, rfl, rfl⟩
  rw [Association.lookup?_eq_some_iff ht.nodup_keys]
  exact ⟨_, mem_bindings.mpr ⟨place, e, hplace, hb⟩, rfl, rfl⟩

/-- Looking a key up is looking it up in the association list. -/
theorem getKey_eq_read (ht : t.Indexed) (key : Key) :
    t.getKey key = t.bindings.read key := by
  unfold getKey Association.read
  cases hfind : t.index.find? key with
  | none =>
      have hlookup : t.bindings.lookup? key = none :=
        Association.lookup?_eq_none.mpr (ht.not_bound_of_find?_eq_none hfind)
      simp [hlookup]
  | some place =>
      obtain ⟨e, hplace, hkey⟩ := ht.indexed key place hfind
      have hvalue : t.valueAt place = e.value := by
        rw [Array.getElem?_toList] at hplace
        simp [valueAt, hplace]
      simp only [hvalue]
      by_cases hlive : e.isLive = true
      · rw [ht.lookup?_of_live hplace hkey hlive]
        rfl
      · have hdead : e.isLive = false := by simpa using hlive
        have hlookup : t.bindings.lookup? key = none :=
          Association.lookup?_eq_none.mpr
            (ht.not_bound_of_dead hfind hplace hdead)
        have hmem := List.mem_of_getElem? hplace
        have hnil : e.value = .nil := by
          have hstorable := ht.storable e hmem
          have hvoid := Value.toStorable_ne_void e.value
          rw [hstorable] at hvoid
          cases hv : e.value <;> simp_all [Entry.isLive, Value.isNil]
        simp [hlookup, hnil]

theorem isLiveAt_iff (ht : t.Indexed) (i : Nat) :
    t.isLiveAt i = true ↔ t.bindings.Bound (.position i) := by
  unfold isLiveAt
  rw [ht.getKey_eq_read, Association.read]
  cases hlookup : t.bindings.lookup? (.position i) with
  | none =>
      have := Association.lookup?_eq_none.mp hlookup
      simp [this, Value.isNil]
  | some value =>
      obtain ⟨b, hmem, hkey, hvalue⟩ :=
        (Association.lookup?_eq_some_iff ht.nodup_keys).mp hlookup
      obtain ⟨place, e, hplace, hb⟩ := mem_bindings.mp hmem
      obtain ⟨hlive, -, -, hsame⟩ := Entry.binding?_eq_some_iff.mp hb
      have hbound : t.bindings.Bound (.position i) := ⟨b, hmem, hkey⟩
      rw [← hvalue, hsame]
      simpa [hbound, Entry.isLive] using hlive

/-! ## Lengths -/

theorem countUp_eq_border (ht : t.Indexed) (fuel n : Nat)
    (hn : n ≤ t.bindings.border) (hfuel : t.bindings.border ≤ n + fuel) :
    t.countUp fuel n = t.bindings.border := by
  have hborder :=
    Association.border_eq_iff.mp (rfl : t.bindings.border = t.bindings.border)
  induction fuel generalizing n with
  | zero =>
      rw [countUp]
      omega
  | succ fuel ih =>
      rw [countUp]
      by_cases hlt : n < t.bindings.border
      · rw [if_pos ((ht.isLiveAt_iff _).mpr (hborder.2 n hlt))]
        exact ih (n + 1) hlt (by omega)
      · have heq : n = t.bindings.border := by omega
        rw [if_neg]
        · exact heq
        · rw [ht.isLiveAt_iff, heq]
          exact hborder.1

theorem probeLength_eq_border (ht : t.Indexed) {n : Nat}
    (hn : n ≤ t.bindings.border) : t.probeLength n = t.bindings.border := by
  apply ht.countUp_eq_border _ _ hn
  have hlength : t.bindings.length ≤ t.entries.size := by
    simpa [bindings] using
      List.length_filterMap_le Entry.binding? t.entries.toList
  have hborder := t.bindings.border_le_length
  omega

end Indexed

/-- The length of a table is the border, remembered or not. -/
theorem Consistent.length_eq_border {t : Table} (ht : t.Consistent) :
    t.length = t.bindings.border := by
  unfold Table.length
  cases hlength : t.length? with
  | none => exact ht.probeLength_eq_border (Nat.zero_le _)
  | some n => exact (ht.length n hlength).symm

end Table

end ScriptEngine
