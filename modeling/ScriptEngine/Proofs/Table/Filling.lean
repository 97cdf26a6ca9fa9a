import ScriptEngine.Proofs.Table.Reading

/-!
# Tables that are filled

A table that is made from data is written key by key, each key once and none of the values
nil.  It stands for just those bindings in that order: values at the positions from 1 on
make a sequence as long as they are, and values under names make no sequence at all.
-/

namespace ScriptEngine

/-- A binding as tables hold them. -/
structure Binding.Fits (b : Binding) : Prop where
  canonical : Key.ofValue? b.written = some b.key
  scalar : b.written.toScalar = b.written
  storable : b.value.toStorable = b.value
  live : b.value.isNil = false

namespace Association

/-- The values at the positions from `i` on. -/
def sequence : Nat → List Value → Association
  | _, [] => []
  | i, v :: rest => ⟨.position i, .number (Float.ofInt i), v⟩ :: sequence (i + 1) rest

/-- The values under their names. -/
def named (names : List String) (values : List Value) : Association :=
  (names.zip values).map fun (name, v) => ⟨.name name, .string name, v⟩

variable {a : Association} {values : List Value} {names : List String}

/-! ## Sequences -/

@[simp] theorem length_sequence (i : Nat) (values : List Value) :
    (sequence i values).length = values.length := by
  induction values generalizing i with
  | nil => rfl
  | cons v rest ih => simp [sequence, ih]

theorem keys_sequence (i : Nat) (values : List Value) :
    (sequence i values).map (·.key) = (List.range' i values.length).map Key.position := by
  induction values generalizing i with
  | nil => rfl
  | cons v rest ih => simp [sequence, ih, List.range'_succ]

theorem nodup_sequence (i : Nat) (values : List Value) :
    ((sequence i values).map (·.key)).Nodup := by
  rw [keys_sequence]
  exact List.Nodup.map (fun i j h => by simpa using h) List.nodup_range'

theorem fits_sequence {i : Nat} (hpos : 1 ≤ i) (hlast : i + values.length ≤ Key.maxPosition + 1)
    (hvalues : ∀ v ∈ values, v.toStorable = v ∧ v.isNil = false) :
    ∀ b ∈ sequence i values, b.Fits := by
  induction values generalizing i with
  | nil => simp [sequence]
  | cons v rest ih =>
    rw [List.length_cons] at hlast
    intro b hb
    rcases List.mem_cons.mp hb with rfl | hrest
    · obtain ⟨hstorable, hlive⟩ := hvalues v List.mem_cons_self
      exact ⟨Key.ofValue?_position hpos (by omega), Value.toScalar_eq_self (by simp),
        hstorable, hlive⟩
    · exact ih (by omega) (by omega) (fun u hu => hvalues u (List.mem_cons_of_mem _ hu)) b hrest

theorem lookup?_sequence (i j : Nat) (values : List Value) :
    (sequence i values).lookup? (.position (i + j)) = values[j]? := by
  induction values generalizing i j with
  | nil => rfl
  | cons v rest ih =>
    cases j with
    | zero => simp [sequence, lookup?]
    | succ j =>
      have hrest := ih (i + 1) j
      have hplace : i + 1 + j = i + (j + 1) := by omega
      rw [hplace] at hrest
      rw [List.getElem?_cons_succ, ← hrest]
      simp [sequence, lookup?]

theorem border_sequence (values : List Value) : (sequence 1 values).border = values.length := by
  have hbound : ∀ j, (sequence 1 values).Bound (.position (j + 1)) ↔ j < values.length := by
    intro j
    rw [← isSome_lookup?, Nat.add_comm, lookup?_sequence]
    simp
  rw [border_eq_iff, hbound]
  exact ⟨by omega, fun j hj => (hbound j).mpr hj⟩

/-! ## Names -/

theorem nodup_named (hnames : names.Nodup) (hlength : names.length = values.length) :
    ((named names values).map (·.key)).Nodup := by
  have hkeys : (named names values).map (·.key) = names.map Key.name := by
    have hfirst : (names.zip values).map Prod.fst = names := List.map_fst_zip hlength.le
    conv_rhs => rw [← hfirst]
    simp [named]
  rw [hkeys]
  exact hnames.map fun s s' h => by simpa using h

theorem fits_named (hvalues : ∀ v ∈ values, v.toStorable = v ∧ v.isNil = false) :
    ∀ b ∈ named names values, b.Fits := by
  intro b hb
  obtain ⟨⟨name, v⟩, hmem, rfl⟩ := List.mem_map.mp hb
  obtain ⟨hstorable, hlive⟩ := hvalues v (List.of_mem_zip hmem).2
  have hscalar : (Value.string name).toScalar = .string name :=
    Value.toScalar_eq_self (by simp)
  exact ⟨by simp [Key.ofValue?, hscalar], hscalar, hstorable, hlive⟩

/-- Names are no positions. -/
theorem border_named (names : List String) (values : List Value) :
    (named names values).border = 0 := by
  rw [border_eq_iff]
  refine ⟨?_, by simp⟩
  rintro ⟨b, hb, hkey⟩
  obtain ⟨⟨name, v⟩, -, rfl⟩ := List.mem_map.mp hb
  cases hkey

end Association

namespace Table

variable {t : Table} {a : Association} {bindings : List Binding}

/-- Writes bindings one after the other. -/
def writeAll : Table → List Binding → Table
  | t, [] => t
  | t, b :: rest => (t.setKey b.key b.written b.value).writeAll rest

/-- Written one after the other, new bindings come in at the end. -/
theorem Denotes.writeAll (h : t.Denotes a) (hfits : ∀ b ∈ bindings, b.Fits)
    (hnodup : ((a ++ bindings).map (·.key)).Nodup) :
    (t.writeAll bindings).Denotes (a ++ bindings) := by
  induction bindings generalizing t a with
  | nil => simpa [Table.writeAll] using h
  | cons b rest ih =>
    have hb := hfits b List.mem_cons_self
    have hnew : ¬ a.Bound b.key := by
      rintro ⟨c, hc, hkey⟩
      rw [List.map_append, List.nodup_append] at hnodup
      exact hnodup.2.2 c.key (List.mem_map_of_mem hc) b.key (by simp) hkey
    have hwrite : a.write b.key b.written b.value = a ++ [b] := by
      unfold Association.write
      rw [if_neg (by simp [hb.live]), if_neg (by rw [Association.isSome_lookup?]; exact hnew)]
    have hset := h.setKey hb.canonical hb.scalar hb.storable
    rw [hwrite] at hset
    have hrest := ih hset (fun c hc => hfits c (List.mem_cons_of_mem _ hc)) (by simpa using hnodup)
    simpa [Table.writeAll] using hrest

end Table

end ScriptEngine
