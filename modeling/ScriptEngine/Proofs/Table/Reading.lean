import ScriptEngine.Proofs.Number.WholeNumbers
import ScriptEngine.Proofs.Table.Refinement

/-!
# Reading what was written

A table arises from operations and from being given metatables; whatever happened to
it before, a write shows under its own key and under no other.
-/

namespace ScriptEngine

/-- A value that a table keeps is nil as soon as it counts as such. -/
theorem Value.eq_nil_of_isNil {v : Value} (hnil : v.isNil = true) (hv : v.toStorable = v) :
    v = .nil := by
  have hvoid := v.toStorable_ne_void
  rw [hv] at hvoid
  cases v <;> simp_all [isNil]

/-- A table keeps any single value that is not nil as it is. -/
theorem Value.toStorable_eq_self {v : Value} (hscalar : ∀ items, v ≠ .tuple items)
    (hlive : v.isNil = false) : v.toStorable = v := by
  rw [toStorable, toScalar_eq_self hscalar]
  cases v with
  | void => cases hlive
  | _ => rfl

namespace Association

theorem lookup?_filter_ne (a : Association) (key other : Key) :
    lookup? (a.filter fun b => b.key ≠ key) other =
      if other = key then none else a.lookup? other := by
  unfold lookup?
  rw [List.find?_filter]
  split
  · next hsame =>
    subst hsame
    simp
  · next hne =>
    congr 2
    funext b
    by_cases hb : b.key = other
    · simp [hb, hne]
    · simp [hb]

theorem lookup?_map_replace (a : Association) (key other : Key) (value : Value)
    (hbound : (a.lookup? key).isSome = true) :
    lookup? (a.map fun b => if b.key = key then { b with value } else b) other =
      if other = key then some value else a.lookup? other := by
  have hkey : ((fun b : Binding => decide (b.key = other)) ∘
      fun b => if b.key = key then { b with value } else b) =
        fun b => decide (b.key = other) := by
    funext b
    simp only [Function.comp]
    split <;> rfl
  unfold lookup? at hbound ⊢
  rw [List.find?_map, hkey, Option.map_map]
  cases hfind : a.find? fun b => b.key = other with
  | none =>
    split
    · next hsame =>
      subst hsame
      simp [hfind] at hbound
    · rfl
  | some b =>
    have hb : b.key = other := by simpa using List.find?_some hfind
    subst hb
    by_cases hsame : b.key = key <;> simp [hsame]

theorem lookup?_append_new (a : Association) (key other : Key) (written value : Value)
    (hnew : a.lookup? key = none) :
    lookup? (a ++ [⟨key, written, value⟩]) other =
      if other = key then some value else a.lookup? other := by
  unfold lookup? at hnew ⊢
  rw [List.find?_append]
  cases hfind : a.find? fun b => b.key = other with
  | none =>
    by_cases hsame : other = key
    · simp [hsame]
    · simp [hsame, Ne.symm hsame]
  | some b =>
    rw [if_neg]
    · rfl
    · rintro rfl
      simp [hfind] at hnew

/-- A write shows under its own key and under no other. -/
theorem read_write (a : Association) (key other : Key) (written : Value) {value : Value}
    (hvalue : value.toStorable = value) :
    (a.write key written value).read other = if other = key then value else a.read other := by
  unfold write read
  split
  · next hnil =>
    rw [lookup?_filter_ne, Value.eq_nil_of_isNil hnil hvalue]
    split <;> rfl
  · split
    · next hbound =>
      rw [lookup?_map_replace a key other value hbound]
      split <;> rfl
    · next hunbound =>
      rw [lookup?_append_new a key other written value (by simpa using hunbound)]
      split <;> rfl

end Association

/-! ## Keys of integers -/

namespace Key

/-- The number of a position is that position as a key. -/
theorem ofValue?_position {i : Nat} (hpos : 1 ≤ i) (hlast : i ≤ maxPosition) :
    ofValue? (.number (Float.ofInt i)) = some (.position i) := by
  rw [← integerKey?_eq_ofValue?, integerKey?, if_pos (by omega)]
  simp

end Key

/-! ## Tables that come about -/

namespace Table

variable {t : Table} {key other : Key} {written value : Value}

/-- A table that was empty once and came to what it is by operations and metatables. -/
inductive Arises : Table → Prop where
  | empty : Arises {}
  | perform {t : Table} (h : t.Arises) (op : TableOperation) : Arises (t.perform op).2
  | setMetatable {t : Table} (h : t.Arises) (m? : Option TableRef) :
      Arises { t with metatable? := m? }

theorem Consistent.denotes (ht : t.Consistent) : t.Denotes t.bindings := ⟨ht, rfl⟩

theorem Arises.consistent (h : t.Arises) : t.Consistent := by
  induction h with
  | empty => exact consistent_empty
  | perform _ op ih => exact (ih.denotes.perform op).2.consistent
  | setMetatable _ m? ih => exact ⟨ih.toIndexed.congr rfl rfl, ih.length⟩

theorem Arises.performAll (h : t.Arises) (history : List TableOperation) :
    (performAll Table.perform t history).2.Arises := by
  induction history generalizing t with
  | nil => exact h
  | cons op rest ih => exact ih (h.perform op)

namespace Consistent

variable (ht : t.Consistent)

include ht

theorem toStorable_getKey (key : Key) : (t.getKey key).toStorable = t.getKey key := by
  unfold Table.getKey Table.valueAt
  cases t.index.find? key with
  | none => rfl
  | some place =>
    simp only
    cases hplace : t.entries[place]? with
    | none => rfl
    | some e =>
      exact ht.storable e (List.mem_of_getElem? (by rwa [Array.getElem?_toList]))

theorem getKey_setKey (hkey : Key.ofValue? written = some key)
    (hwritten : written.toScalar = written) (hvalue : value.toStorable = value) (other : Key) :
    (t.setKey key written value).getKey other =
      if other = key then value else t.getKey other := by
  have hset := ht.denotes.setKey hkey hwritten hvalue
  rw [hset.getKey, Association.read_write _ _ _ _ hvalue, ht.denotes.getKey]

theorem setInt (i : Int) (v : Value) : (t.setInt i v).Consistent := by
  have hdenotes := ht.denotes.setInt i v
  exact hdenotes.consistent

theorem getKey_setInt {i : Int} (hkey : Key.ofValue? (.number (Float.ofInt i)) = some key)
    (v : Value) (other : Key) :
    (t.setInt i v).getKey other = if other = key then v.toStorable else t.getKey other := by
  have hset : t.setInt i v = t.setKey key (.number (Float.ofInt i)) v.toStorable := by
    simp [Table.setInt, hkey]
  have hwritten : (Value.number (Float.ofInt i)).toScalar = .number (Float.ofInt i) :=
    Value.toScalar_eq_self (by simp)
  rw [hset]
  exact ht.getKey_setKey hkey hwritten (Value.toStorable_toStorable v) other

/-- Beyond the last position there is nothing. -/
theorem getKey_position_of_gt {i : Nat} (hi : Key.maxPosition < i) :
    t.getKey (.position i) = .nil := by
  unfold Table.getKey
  cases hfind : t.index.find? (.position i) with
  | none => rfl
  | some place =>
    obtain ⟨e, -, hkey⟩ := ht.indexed _ place hfind
    have hbounds := Key.bounds_of_ofValue?_eq_position hkey
    omega

end Consistent

end Table

end ScriptEngine
