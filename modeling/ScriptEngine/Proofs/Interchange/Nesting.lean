import ScriptEngine.Interchange.Json
import ScriptEngine.Proofs.Table.Integers
import ScriptEngine.Proofs.Table.Sequence
import ScriptEngine.Proofs.World.Tables
import ScriptEngine.Workbench.Functions

/-!
# Values that have a document

A document is a finite tree, and tables may be nested in any way: they may share tables and
contain themselves.  A value has a document exactly if no table is found within itself and
no more than `maxDepth` are nested, all that is in the tables is data, and all keys of
tables that are no sequences have a text.  A table that is found twice, but on different
ways, is written twice.
-/

namespace ScriptEngine

variable {H : HostTypes}

/-! ## Nested tables -/

namespace World

/-- A path from a value inwards, from table to table; the value itself is the first. -/
inductive Nests (w : World H) : Value → List TableRef → Prop where
  | here {v : Value} {r : TableRef} (hv : v.toStorable = .table r) : Nests w v [r]
  | inner {v u : Value} {r : TableRef} {path : List TableRef} (hv : v.toStorable = .table r)
      (hu : u ∈ (w.table r).values) (h : Nests w u path) : Nests w v (r :: path)

/-- What is found in a value, which is the value itself and all within its tables. -/
inductive Contains (w : World H) : Value → Value → Prop where
  | here (v : Value) : Contains w v v.toStorable
  | inner {v u x : Value} {r : TableRef} (hv : v.toStorable = .table r)
      (hu : u ∈ (w.table r).values) (h : Contains w u x) : Contains w v x

variable {w : World H} {v x : Value} {r : TableRef} {path : List TableRef}

theorem nests_table_iff (hv : v.toStorable = .table r) :
    w.Nests v path ↔ path = [r] ∨
      ∃ u ∈ (w.table r).values, ∃ rest, w.Nests u rest ∧ path = r :: rest := by
  constructor
  · rintro (⟨hv'⟩ | ⟨hv', hu, h⟩)
    · rw [hv] at hv'
      cases hv'
      exact Or.inl rfl
    · rw [hv] at hv'
      cases hv'
      exact Or.inr ⟨_, hu, _, h, rfl⟩
  · rintro (rfl | ⟨u, hu, rest, h, rfl⟩)
    · exact .here hv
    · exact .inner hv hu h

theorem not_nests_of_scalar (hv : ∀ r, v.toStorable ≠ .table r) : ¬ w.Nests v path := by
  rintro (⟨hv'⟩ | ⟨hv', -, -⟩)
  · exact hv _ hv'
  · exact hv _ hv'

theorem contains_table_iff (hv : v.toStorable = .table r) :
    w.Contains v x ↔ x = .table r ∨ ∃ u ∈ (w.table r).values, w.Contains u x := by
  constructor
  · intro hx
    cases hx with
    | here => exact Or.inl hv
    | inner hv' hu h =>
      rw [hv] at hv'
      cases hv'
      exact Or.inr ⟨_, hu, h⟩
  · rintro (rfl | ⟨u, hu, h⟩)
    · rw [← hv]
      exact .here v
    · exact .inner hv hu h

theorem contains_scalar_iff (hv : ∀ r, v.toStorable ≠ .table r) :
    w.Contains v x ↔ x = v.toStorable := by
  constructor
  · intro hx
    cases hx with
    | here => rfl
    | inner hv' => exact absurd hv' (hv _)
  · rintro rfl
    exact .here v

end World

/-! ## What can be written -/

/-- Data that is no container: nil, booleans, texts and numbers that are finite. -/
def Value.IsDatum : Value → Prop
  | .nil | .boolean _ | .string _ => True
  | .number n => n.isFinite = true
  | _ => False

/-- A key that has a text. -/
def Value.IsNamed : Value → Prop
  | .string _ | .number _ => True
  | _ => False

namespace World

/-- A value is a tree of data, with at most `deeper` tables nested and none of the given
ones among them. -/
structure IsTreeWithin (w : World H) (deeper : Nat) (outer : List TableRef) (v : Value) :
    Prop where
  nodup : ∀ path, w.Nests v path → path.Nodup
  length_le : ∀ path, w.Nests v path → path.length ≤ deeper
  apart : ∀ path, w.Nests v path → ∀ r ∈ path, r ∉ outer
  data : ∀ x, w.Contains v x → (∀ r, x ≠ .table r) → x.IsDatum
  named : ∀ r, w.Contains v (.table r) →
    (w.table r).IsSequence ∨ ∀ e ∈ (w.table r).pairs, e.1.IsNamed

/-- A value is a finite tree of data that is not too deep. -/
structure IsTree (w : World H) (v : Value) : Prop where
  nodup : ∀ path, w.Nests v path → path.Nodup
  length_le : ∀ path, w.Nests v path → path.length ≤ JsonValue.maxDepth
  data : ∀ x, w.Contains v x → (∀ r, x ≠ .table r) → x.IsDatum
  named : ∀ r, w.Contains v (.table r) →
    (w.table r).IsSequence ∨ ∀ e ∈ (w.table r).pairs, e.1.IsNamed

variable {w : World H} {v : Value} {r : TableRef} {deeper : Nat} {outer : List TableRef}

theorem isTreeWithin_maxDepth_iff :
    w.IsTreeWithin JsonValue.maxDepth [] v ↔ w.IsTree v := by
  constructor
  · intro h
    exact ⟨h.nodup, h.length_le, h.data, h.named⟩
  · intro h
    refine ⟨h.nodup, h.length_le, fun _ _ _ _ => ?_, h.data, h.named⟩
    exact List.not_mem_nil

theorem isTreeWithin_scalar_iff (hv : ∀ r, v.toStorable ≠ .table r) :
    w.IsTreeWithin deeper outer v ↔ v.toStorable.IsDatum := by
  constructor
  · intro h
    exact h.data _ (.here v) hv
  · intro h
    refine ⟨?_, ?_, ?_, ?_, ?_⟩
    · exact fun path hpath => absurd hpath (not_nests_of_scalar hv)
    · exact fun path hpath => absurd hpath (not_nests_of_scalar hv)
    · exact fun path hpath => absurd hpath (not_nests_of_scalar hv)
    · intro x hx _
      rw [(contains_scalar_iff hv).mp hx]
      exact h
    · intro r hr
      exact absurd ((contains_scalar_iff hv).mp hr).symm (hv r)

theorem not_isTreeWithin_zero (hv : v.toStorable = .table r) : ¬ w.IsTreeWithin 0 outer v := by
  intro h
  have hle := h.length_le _ (.here hv)
  simp at hle

/-- A table is a tree if it is none of the outer ones and its values are trees within it. -/
theorem isTreeWithin_table_iff (hv : v.toStorable = .table r) :
    w.IsTreeWithin (deeper + 1) outer v ↔ r ∉ outer ∧
      ((w.table r).IsSequence ∨ ∀ e ∈ (w.table r).pairs, e.1.IsNamed) ∧
      ∀ u ∈ (w.table r).values, w.IsTreeWithin deeper (r :: outer) u := by
  constructor
  · intro h
    refine ⟨h.apart _ (.here hv) r List.mem_cons_self, ?_, fun u hu => ⟨?_, ?_, ?_, ?_, ?_⟩⟩
    · refine h.named r ?_
      rw [← hv]
      exact .here v
    · intro path hpath
      exact (List.nodup_cons.mp (h.nodup _ (.inner hv hu hpath))).2
    · intro path hpath
      exact Nat.le_of_succ_le_succ (h.length_le _ (.inner hv hu hpath))
    · intro path hpath s hs
      have hdistinct := (List.nodup_cons.mp (h.nodup _ (.inner hv hu hpath))).1
      have houter := h.apart _ (.inner hv hu hpath) s (List.mem_cons_of_mem r hs)
      rintro (_ | ⟨_, hmem⟩)
      · exact hdistinct hs
      · exact houter hmem
    · exact fun x hx => h.data x (.inner hv hu hx)
    · exact fun s hs => h.named s (.inner hv hu hs)
  · rintro ⟨hnew, hkeys, hvalues⟩
    refine ⟨?_, ?_, ?_, ?_, ?_⟩
    · intro path hpath
      rcases (nests_table_iff hv).mp hpath with rfl | ⟨u, hu, rest, hrest, rfl⟩
      · exact List.nodup_singleton r
      · refine List.nodup_cons.mpr ⟨fun hmem => ?_, (hvalues u hu).nodup rest hrest⟩
        exact (hvalues u hu).apart rest hrest r hmem List.mem_cons_self
    · intro path hpath
      rcases (nests_table_iff hv).mp hpath with rfl | ⟨u, hu, rest, hrest, rfl⟩
      · exact Nat.succ_le_succ (Nat.zero_le deeper)
      · exact Nat.succ_le_succ ((hvalues u hu).length_le rest hrest)
    · intro path hpath s hs
      rcases (nests_table_iff hv).mp hpath with rfl | ⟨u, hu, rest, hrest, rfl⟩
      · rw [List.mem_singleton.mp hs]
        exact hnew
      · rcases List.mem_cons.mp hs with rfl | hs
        · exact hnew
        · exact fun hmem =>
            (hvalues u hu).apart rest hrest s hs (List.mem_cons_of_mem r hmem)
    · intro x hx hscalar
      rcases (contains_table_iff hv).mp hx with rfl | ⟨u, hu, hx⟩
      · exact absurd rfl (hscalar r)
      · exact (hvalues u hu).data x hx hscalar
    · intro s hs
      rcases (contains_table_iff hv).mp hs with hsame | ⟨u, hu, hs⟩
      · cases hsame
        exact hkeys
      · exact (hvalues u hu).named s hs

end World

/-! ## Writing -/

namespace JsonValue

theorem ofNumber_ok_iff (n : Float) : (∃ j, ofNumber n = .ok j) ↔ n.isFinite = true := by
  unfold ofNumber
  split
  · next hsmall =>
    rw [Bool.and_eq_true, Double.isWhole, Bool.and_eq_true] at hsmall
    exact iff_of_true ⟨_, rfl⟩ hsmall.1.1
  · split
    · next hfinite => exact iff_of_true ⟨_, rfl⟩ hfinite
    · next hinfinite => exact iff_of_false (by simp) hinfinite

theorem memberName_ok_iff (k : Value) : (∃ name, memberName k = .ok name) ↔ k.IsNamed := by
  cases k <;> simp [memberName, Value.IsNamed]

variable {convert : Value → Except ConversionError JsonValue}

theorem ofAll_ok_iff (values : List Value) :
    (∃ items, ofAll convert values = .ok items) ↔ ∀ v ∈ values, ∃ j, convert v = .ok j := by
  induction values with
  | nil => simp [ofAll]
  | cons v rest ih =>
    rw [List.forall_mem_cons, ← ih, ofAll]
    cases convert v with
    | error e => simp [bind, Except.bind]
    | ok j => cases ofAll convert rest <;> simp [bind, Except.bind, pure, Except.pure]

theorem ofEntries_ok_iff (entries : List (Value × Value)) (before : List (String × JsonValue)) :
    (∃ members, ofEntries convert entries before = .ok members) ↔
      ∀ e ∈ entries, e.1.IsNamed ∧ ∃ j, convert e.2 = .ok j := by
  induction entries generalizing before with
  | nil => simp [ofEntries]
  | cons e rest ih =>
    obtain ⟨k, v⟩ := e
    rw [List.forall_mem_cons, ← memberName_ok_iff, ofEntries]
    cases memberName k with
    | error e => simp [bind, Except.bind]
    | ok name =>
      cases convert v with
      | error e => simp [bind, Except.bind]
      | ok j => simpa [bind, Except.bind] using ih (insertMember name j before)

theorem map_eq_ok_iff {α β : Type} {f : α → β} {x : Except ConversionError α} {b : β} :
    x.map f = .ok b ↔ ∃ a, x = .ok a ∧ f a = b := by
  cases x <;> simp [Except.map]

/-- A table has a document if it is a sequence or all its keys have a text, and all its
values have documents. -/
theorem ofTable_ok_iff {t : Table} (ht : t.Consistent) :
    (∃ j, ofTable t convert = .ok j) ↔
      (t.IsSequence ∨ ∀ e ∈ t.pairs, e.1.IsNamed) ∧
        ∀ v ∈ t.values, ∃ j, convert v = .ok j := by
  have hmap {α : Type} (f : α → JsonValue) (x : Except ConversionError α) :
      (∃ j, x.map f = .ok j) ↔ ∃ a, x = .ok a := by
    simp [map_eq_ok_iff]
  unfold ofTable
  dsimp only
  by_cases hsequence : t.IsSequence
  · obtain ⟨entries, hentries, -, hitems⟩ := ht.exists_arrangement hsequence
    rw [if_pos (ht.isSequence_iff.mp hsequence), hmap, ofAll_ok_iff, ← hitems]
    have hvalues : ∀ v, v ∈ entries.map (·.2) ↔ v ∈ t.values := fun v =>
      (hentries.map (·.2)).mem_iff
    simp only [hvalues]
    exact ⟨fun h => ⟨Or.inl hsequence, h⟩, fun h => h.2⟩
  · rw [if_neg (mt ht.isSequence_iff.mpr hsequence), hmap, ofEntries_ok_iff]
    constructor
    · intro h
      refine ⟨Or.inr fun e he => (h e he).1, fun v hv => ?_⟩
      obtain ⟨e, he, rfl⟩ := List.mem_map.mp hv
      exact (h e he).2
    · rintro ⟨hkeys, hvalues⟩ e he
      exact ⟨hkeys.resolve_left hsequence e he, hvalues e.2 (List.mem_map_of_mem he)⟩

theorem ofValueWithin_scalar (w : World H) {v : Value} (hv : ∀ r, v.toStorable ≠ .table r)
    (deeper : Nat) (outer : List TableRef) :
    (∃ j, ofValueWithin w deeper outer v = .ok j) ↔ v.toStorable.IsDatum := by
  rw [ofValueWithin.eq_def]
  have hvoid := v.toStorable_ne_void
  cases hstorable : v.toStorable with
  | table r => exact absurd hstorable (hv r)
  | void => exact absurd hstorable hvoid
  | number n => simp only [hstorable, ofNumber_ok_iff, Value.IsDatum]
  | _ => simp [hstorable, Value.IsDatum]

theorem ofValueWithin_table (w : World H) {v : Value} {r : TableRef}
    (hv : v.toStorable = .table r) (deeper : Nat) (outer : List TableRef) :
    ofValueWithin w (deeper + 1) outer v =
      if r ∈ outer then .error (.noJson "cyclic table")
      else ofTable (w.table r) (ofValueWithin w deeper (r :: outer)) := by
  rw [ofValueWithin, hv]

theorem ofValueWithin_ok_iff {w : World H} (hw : w.TablesArise) (deeper : Nat)
    (outer : List TableRef) (v : Value) :
    (∃ j, ofValueWithin w deeper outer v = .ok j) ↔ w.IsTreeWithin deeper outer v := by
  by_cases hv : ∃ r, v.toStorable = .table r
  · obtain ⟨r, hv⟩ := hv
    -- On the depth that is left, for any tables outside.
    induction deeper generalizing outer v r with
    | zero =>
      refine iff_of_false ?_ (World.not_isTreeWithin_zero hv)
      rw [ofValueWithin, hv]
      simp
    | succ deeper ih =>
      have hinner (u : Value) :
          (∃ j, ofValueWithin w deeper (r :: outer) u = .ok j) ↔
            w.IsTreeWithin deeper (r :: outer) u := by
        by_cases hu : ∃ s, u.toStorable = .table s
        · obtain ⟨s, hu⟩ := hu
          exact ih (r :: outer) u s hu
        · have hscalar : ∀ s, u.toStorable ≠ .table s := fun s hs => hu ⟨s, hs⟩
          rw [ofValueWithin_scalar w hscalar, World.isTreeWithin_scalar_iff hscalar]
      rw [ofValueWithin_table w hv, World.isTreeWithin_table_iff hv]
      by_cases hr : r ∈ outer
      · rw [if_pos hr]
        exact iff_of_false (by simp) fun h => h.1 hr
      · rw [if_neg hr, ofTable_ok_iff (hw.consistent r)]
        simp only [hinner, hr, not_false_eq_true, true_and]
  · have hscalar : ∀ r, v.toStorable ≠ .table r := fun r hr => hv ⟨r, hr⟩
    rw [ofValueWithin_scalar w hscalar, World.isTreeWithin_scalar_iff hscalar]

/-- Exactly the finite trees of data that are not too deep have a document. -/
theorem ofValue_ok_iff {w : World H} (hw : w.TablesArise) (v : Value) :
    (∃ j, ofValue w v = .ok j) ↔ w.IsTree v := by
  rw [← World.isTreeWithin_maxDepth_iff]
  exact ofValueWithin_ok_iff hw maxDepth [] v

/-- A bare world with a table that holds another one twice, and with that table. -/
def sharing : Value × World Workbench.types :=
  let w : World Workbench.types := .start { modules := ⟨false, false, false⟩ } {}
  let (inner, w) := w.addTable (.writtenAt 1)
  let outer := (({} : Table).setName "left" (.table inner)).setName "right" (.table inner)
  let (r, w) := w.addTable outer
  (.table r, w)

theorem tablesArise_sharing : sharing.2.TablesArise := by
  have hinner := (World.tablesArise_start (H := Workbench.types)
    { modules := ⟨false, false, false⟩ } {}).addTable (Table.arises_writtenAt 1)
  have houter (v : Value) : ((({} : Table).setName "left" v).setName "right" v).Arises :=
    (Table.Arises.empty.perform (.setName "left" v)).perform (.setName "right" v)
  exact hinner.addTable (houter _)

/-- A table that is shared is within none of its own values. -/
theorem isTree_sharing :
    sharing.2.TablesArise ∧ sharing.2.IsTree sharing.1 ∧
      ∃ j, ofValue sharing.2 sharing.1 = .ok j := by
  have hok : ∃ j, ofValue sharing.2 sharing.1 = .ok j := ⟨_, rfl⟩
  exact ⟨tablesArise_sharing, (ofValue_ok_iff tablesArise_sharing _).mp hok, hok⟩

end JsonValue

end ScriptEngine
