import ScriptEngine.Proofs.Table.Reading
import ScriptEngine.Proofs.World.Installation

/-!
# The tables of a world

Whatever is read off a table relies on how it came about.  In a new world every table came
about by operations, with the library in place or without, and this stays so when objects
are added and tables are worked on.  That the runs of an engine keep it is part of what flat
supplies come to.
-/

namespace ScriptEngine.World

variable {H : HostTypes} {w : World H}

/-- Every table came about by operations on tables. -/
def TablesArise (w : World H) : Prop := ∀ r, (w.table r).Arises

theorem tablesArise_iff :
    w.TablesArise ↔ ∀ id t, w.object? id = some (.table t) → t.Arises := by
  constructor
  · intro h id t hobject
    simpa [table, hobject] using h ⟨id⟩
  · intro h r
    unfold table
    split
    · next t hobject => exact h r.id t hobject
    · exact .empty

namespace TablesArise

theorem consistent (hw : w.TablesArise) (r : TableRef) : (w.table r).Consistent :=
  (hw r).consistent

theorem add (hw : w.TablesArise) {o : Object H} (ho : ∀ t, o = .table t → t.Arises) :
    (w.add o).TablesArise := by
  rw [tablesArise_iff] at hw ⊢
  intro id t hobject
  by_cases hid : id = w.nextId
  · rw [hid, object?_add_nextId, Option.some_inj] at hobject
    exact ho t hobject
  · rw [object?_add_of_ne w o hid] at hobject
    exact hw id t hobject

theorem modifyTable (hw : w.TablesArise) (r : TableRef) {f : Table → Table}
    (hf : ∀ t, t.Arises → (f t).Arises) : (w.modifyTable r f).TablesArise := by
  rw [tablesArise_iff] at hw ⊢
  intro id t hobject
  rw [World.modifyTable, object?_modifyObject] at hobject
  split at hobject
  · obtain ⟨o, hold, hnew⟩ := Option.map_eq_some_iff.mp hobject
    cases o with
    | table before =>
      rw [← Object.table.inj hnew]
      exact hf before (hw id before hold)
    | _ => cases hnew
  · exact hw id t hobject

theorem addTable (hw : w.TablesArise) {t : Table} (ht : t.Arises) :
    (w.addTable t).2.TablesArise := by
  apply hw.add
  intro t' hsame
  cases hsame
  exact ht

end TablesArise

/-- A world goes over into one whose tables came about by operations if its own did. -/
theorem installing_tablesArise :
    Installing fun w w' : World H => w.TablesArise → w'.TablesArise where
  refl _ hw := hw
  trans h h' hw := h' (h hw)
  addNative _ _ hw := hw.add fun _ h => by cases h
  newTable _ hw := hw.addTable .empty
  setNamed _ r name v hw := hw.modifyTable r fun _ ht => ht.perform (.setName name v)

/-- In a new world every table came about by operations. -/
theorem tablesArise_start (settings : Settings) (host : H.State) :
    (start settings host).TablesArise := by
  refine installing_tablesArise.installModules _ settings.modules ?_
  intro r
  obtain ⟨_ | _ | _ | id⟩ := r <;> exact .empty

end ScriptEngine.World
