import ScriptEngine.Proofs.Native.Settling
import ScriptEngine.Proofs.Table.Conservation
import ScriptEngine.Workbench.Functions

/-!
# Taking out of a sequence

What a script takes out of a table with the library's function is what the table loses.
There is one way around this: with no item at position 1, position 0 is accepted, and the
value that may stand there is handed out and stays.
-/

namespace ScriptEngine

variable {H : HostTypes}

namespace World

variable {w : World H} {r : TableRef} {t : Table}

theorem noteLength_table (w : World H) (r : TableRef) :
    w.noteLength (.table r) = w.modifyTable r Table.noteLength := by
  unfold noteLength
  rw [Value.toScalar_eq_self (by simp)]

theorem object?_modifyTable (f : Table → Table) (h : w.object? r.id = some (.table t)) :
    (w.modifyTable r f).object? r.id = some (.table (f t)) := by
  unfold modifyTable
  rw [object?_modifyObject, if_pos rfl, h]
  rfl

theorem table_noteLength (h : w.object? r.id = some (.table t)) :
    (w.noteLength (.table r)).table r = t.noteLength := by
  rw [noteLength_table, table_modifyTable_self _ h]

end World

namespace Library

open ScriptEngine.Action

variable {a : Arguments} {w : World H} {r : TableRef} {t : Table}

theorem isPlace_iff {position : Int} {n : Nat} :
    isPlace position n = true ↔ 1 ≤ position ∧ position ≤ n + 1 := by
  simp [isPlace]

/-- The two halves of taking out see the same table. -/
theorem settled_removeFrom (h : w.object? r.id = some (.table t)) (place : Nat) :
    (removeFrom r place : Action H NativeOutcome).settled (w.noteLength (.table r)) =
      (.done (.result (t.removeAt place).1),
        (w.noteLength (.table r)).modifyTable r fun t => (t.removeAt place).2) := by
  have htable := World.table_noteLength h
  rw [removeFrom, settled_bind, settled_ask]
  change (Action.done _, _) = _
  rw [htable]
  rfl

/-- What a call of `remove` comes to, and the world it leaves. -/
theorem settled_remove (hr : a.asTable 0 "remove" = .ok r)
    (h : w.object? r.id = some (.table t)) :
    (remove a : Action H NativeOutcome).settled w =
      match a.asOptionalInteger 1 "remove" t.length with
      | .error e => (.fail (.script e), w.noteLength (.table r))
      | .ok position =>
        if t.length = 0 ∧ (position = 0 ∨ position = 1) then
          (.done (.result (if (a.get 1).isNil then .nil else t.getInt position)),
            w.noteLength (.table r))
        else if isPlace position t.length then
          (.done (.result (t.removeAt position.toNat).1),
            (w.noteLength (.table r)).modifyTable r fun t => (t.removeAt position.toNat).2)
        else
          (.fail (.script (.badArgument 2 "remove" "position out of bounds")),
            w.noteLength (.table r)) := by
  have htable := World.table_noteLength h
  have hlength : ((w.noteLength (.table r)).table r).length = t.length := by
    rw [htable, Table.length_noteLength]
  unfold remove
  rw [hr, settled_bind]
  change (tableLength r >>= _ : Action H NativeOutcome).settled w = _
  rw [settled_bind, settled_tableLength, hlength]
  change (ite _ _ _ : Action H NativeOutcome).settled _ = _
  unfold Arguments.asOptionalInteger
  by_cases hnil : (a.get 1).isNil = true
  · rw [if_pos hnil, if_pos hnil]
    simp only
    by_cases hzero : t.length = 0
    · rw [if_pos hzero, if_pos ⟨hzero, Or.inl (by simp [hzero])⟩, if_pos hnil]
      rfl
    · have hplace : isPlace (t.length : Int) t.length = true :=
        isPlace_iff.mpr (by omega)
      rw [if_neg hzero, if_neg fun h => hzero h.1, if_pos hplace, Int.toNat_natCast]
      exact settled_removeFrom h t.length
  · rw [if_neg hnil, if_neg hnil, settled_bind, settled_ofScript]
    cases a.asInteger 1 "remove" with
    | error e => rfl
    | ok position =>
      simp only
      change (ite _ _ _ : Action H NativeOutcome).settled _ = _
      by_cases hzero : t.length = 0 ∧ (position = 0 ∨ position = 1)
      · rw [if_pos hzero, if_pos hzero, if_neg hnil, settled_bind, settled_ask, htable]
        rfl
      · rw [if_neg hzero, if_neg hzero]
        split
        · exact settled_removeFrom h position.toNat
        · exact settled_raise _ _

/-- With no item at position 1, position 0 hands out what stands there and changes nothing. -/
theorem settled_remove_zeroth (hr : a.asTable 0 "remove" = .ok r)
    (h : w.object? r.id = some (.table t)) (hzero : t.length = 0)
    (hasked : a.asOptionalInteger 1 "remove" t.length = .ok 0)
    (hgiven : (a.get 1).isNil = false) :
    (remove a : Action H NativeOutcome).settled w =
      (.done (.result (t.getInt 0)), w.noteLength (.table r)) := by
  rw [settled_remove hr h, hasked]
  simp only
  rw [if_pos ⟨hzero, Or.inl trivial⟩, if_neg (by simp [hgiven])]

/-- What a call of `remove` comes to, for the position that it is given or else the
length, and what becomes of the table. -/
inductive Removes (a : Arguments) (t t' : Table) : Action H NativeOutcome → Prop where
  | misread {e : ScriptError} (hasked : a.asOptionalInteger 1 "remove" t.length = .error e)
      (hpairs : t'.pairs = t.pairs) : Removes a t t' (.fail (.script e))
  | refused {position : Int} (hasked : a.asOptionalInteger 1 "remove" t.length = .ok position)
      (hplace : isPlace position t.length = false) (hempty : t.length = 0 → position ≠ 0)
      (hpairs : t'.pairs = t.pairs) :
      Removes a t t' (.fail (.script (.badArgument 2 "remove" "position out of bounds")))
  /-- What is handed out is what the table has lost, with one exception: with no item at
  position 1 the value at position 0 stays. -/
  | accepted {position : Int} {v : Value}
      (hasked : a.asOptionalInteger 1 "remove" t.length = .ok position)
      (hplace : isPlace position t.length = true ∨ t.length = 0 ∧ position = 0)
      (hconserves : t.Conserves t' position v ↔ t.length ≠ 0 ∨ v.isNil = true)
      (hempty : t.length = 0 → t'.pairs = t.pairs ∧
        (v.isNil = false → position = 0 ∧ v = t.getInt 0)) :
      Removes a t t' (.done (.result v))

/-- With no item at position 1 nothing changes, and only at position 0 may there be a
value to hand out. -/
theorem removes_empty {position : Int}
    (hasked : a.asOptionalInteger 1 "remove" t.length = .ok position) (ht : t.Consistent)
    (hzero : t.length = 0) (hposition : position = 0 ∨ position = 1) :
    Removes (H := H) a t t.noteLength
      (.done (.result (if (a.get 1).isNil then .nil else t.getInt position))) := by
  have hended : (t.getInt 1).isNil = true := by
    have hended := ht.endsAt_length.ended
    rwa [hzero] at hended
  generalize hv : (if (a.get 1).isNil then .nil else t.getInt position) = v
  refine .accepted hasked ?_ ⟨fun hconserves => ?_, fun hkept => ?_⟩ fun _ => ⟨rfl, fun hlive => ?_⟩
  · refine hposition.symm.imp (fun hone => ?_) fun hnone => ⟨hzero, hnone⟩
    rw [hone, hzero]
    rfl
  · exact Or.inr (hconserves.isNil_of_pairs_eq rfl)
  · exact .of_nil (hkept.resolve_left fun hne => hne hzero) rfl
  · split at hv
    · subst hv
      cases hlive
    · rcases hposition with rfl | rfl
      · exact ⟨rfl, hv.symm⟩
      · rw [hv, hlive] at hended
        cases hended

theorem removes_settled (hr : a.asTable 0 "remove" = .ok r)
    (h : w.object? r.id = some (.table t)) (ht : t.Consistent) :
    let settled := (remove a : Action H NativeOutcome).settled w
    (∀ s, s ≠ r → settled.2.table s = w.table s) ∧
      Removes a t (settled.2.table r) settled.1 := by
  intro settled
  have hnoted := World.table_noteLength h
  have hothers : ∀ s, s ≠ r → (w.noteLength (.table r)).table s = w.table s := by
    intro s hs
    rw [World.noteLength_table, World.table_modifyTable_of_ne _ _ hs.symm]
  have hsettled := settled_remove (H := H) hr h
  change settled = _ at hsettled
  rw [hsettled]
  cases hasked : a.asOptionalInteger 1 "remove" t.length with
  | error e =>
    refine ⟨hothers, .misread hasked ?_⟩
    rw [hnoted, Table.pairs_noteLength]
  | ok position =>
    simp only
    split
    · next hempty =>
      refine ⟨hothers, ?_⟩
      rw [hnoted]
      exact removes_empty hasked ht hempty.1 hempty.2
    · next hempty =>
      split
      · next hplace =>
        have hbounds := isPlace_iff.mp hplace
        obtain ⟨place, rfl⟩ := Int.eq_ofNat_of_zero_le (by omega : 0 ≤ position)
        have hobject : (w.noteLength (.table r)).object? r.id = some (.table t.noteLength) := by
          rw [World.noteLength_table, World.object?_modifyTable _ h]
        have hconserves := ht.conserves_removeAt (by omega : 1 ≤ place) (by omega)
        refine ⟨fun s hs => ?_, ?_⟩
        · rw [World.table_modifyTable_of_ne _ _ hs.symm, hothers s hs]
        · rw [World.table_modifyTable_self _ hobject]
          have hnonempty : t.length ≠ 0 := by
            intro hzero
            exact hempty ⟨hzero, Or.inr (by omega)⟩
          exact .accepted hasked (Or.inl hplace)
            (iff_of_true hconserves (Or.inl hnonempty)) fun hzero => absurd hzero hnonempty
      · next hplace =>
        refine ⟨hothers, .refused hasked (by simpa using hplace) (fun hzero hnone => ?_) ?_⟩
        · exact hempty ⟨hzero, Or.inl hnone⟩
        · rw [hnoted, Table.pairs_noteLength]

end Library

/-- A call of `remove` comes to its end by itself.  If it hands out a value, that value
was the one at its position and is what the table has lost, no more and no less; if it
hands out nil, or fails, the table holds what it held.  The exception is a live value at
position 0 of a table with nothing at position 1: it is handed out, and it stays. -/
theorem Machine.removes [Host H] (core : Core H) (activations : List (Activation H))
    {a : Arguments} {r : TableRef} {t : Table} (hr : a.asTable 0 "remove" = .ok r)
    (h : core.world.object? r.id = some (.table t)) (ht : t.Arises) :
    ∃ n w outcome,
      (⟨core, activations, .running (Library.remove a)⟩ : Machine H).after n =
          ⟨⟨w, core.proc⟩, activations, .running outcome⟩ ∧
        (∀ s, s ≠ r → w.table s = core.world.table s) ∧
        Library.Removes a t (w.table r) outcome := by
  obtain ⟨n, hn⟩ := after_settled core activations (Library.remove a)
  exact ⟨n, _, _, hn, Library.removes_settled hr h ht.consistent⟩

namespace Removal

/-- A bare world with one more table. -/
def holding (t : Table) : TableRef × World Workbench.types :=
  World.addTable (.start { modules := ⟨false, false, false⟩ } {}) t

theorem object?_holding (t : Table) :
    (holding t).2.object? (holding t).1.id = some (.table t) :=
  World.object?_add_nextId _ _

/-- The call that asks for a position of that table. -/
def asking (t : Table) (position : Value) : Arguments := ⟨[.table (holding t).1, position], false⟩

theorem asTable_asking (t : Table) (position : Value) :
    (asking t position).asTable 0 "remove" = .ok (holding t).1 := by
  simp [asking, Arguments.asTable, Arguments.asType, Arguments.get, Value.check,
    Value.toScalar_eq_self, Value.dataType]

end Removal

/-- The last of three items is taken out. -/
theorem Machine.removes_last :
    ∃ n w outcome,
      (Machine.start (Removal.holding Table.gapped).2
        (Library.remove (Removal.asking Table.gapped .nil))).after n =
          ⟨⟨w, {}⟩, [], .running outcome⟩ ∧
        Library.Removes (Removal.asking Table.gapped .nil) Table.gapped
          (w.table (Removal.holding Table.gapped).1) outcome := by
  obtain ⟨n, w, outcome, hafter, -, hremoves⟩ :=
    Machine.removes ⟨(Removal.holding Table.gapped).2, {}⟩ [] (Removal.asTable_asking _ .nil)
      (Removal.object?_holding _) Table.arises_gapped
  exact ⟨n, w, outcome, hafter, hremoves⟩

/-- The only value of a table stands at position 0: taken out there, it is still there. -/
theorem Machine.keeps_zeroth :
    ∃ n w,
      (Machine.start (Removal.holding (Table.writtenAt 0)).2
        (Library.remove (Removal.asking (Table.writtenAt 0) (.number 0)))).after n =
          ⟨⟨w, {}⟩, [], .running (.done (.result (.boolean true)))⟩ ∧
        (w.table (Removal.holding (Table.writtenAt 0)).1).getNumber 0 = .boolean true ∧
        (w.table (Removal.holding (Table.writtenAt 0)).1).count =
          (Table.writtenAt 0).count := by
  obtain ⟨n, hn⟩ := after_settled ⟨(Removal.holding (Table.writtenAt 0)).2, {}⟩ []
    (Library.remove (Removal.asking (Table.writtenAt 0) (.number 0)))
  have hasked : (Removal.asking (Table.writtenAt 0) (.number 0)).asOptionalInteger 1 "remove"
      (Table.writtenAt 0).length = .ok 0 := by
    decide +kernel
  have hvalue : (Table.writtenAt 0).getInt 0 = .boolean true := by decide +kernel
  rw [Library.settled_remove_zeroth (Removal.asTable_asking _ _) (Removal.object?_holding _)
    (by decide +kernel) hasked rfl, hvalue] at hn
  refine ⟨n, _, hn, ?_, ?_⟩
  · rw [World.table_noteLength (Removal.object?_holding _)]
    decide +kernel
  · rw [World.table_noteLength (Removal.object?_holding _)]
    exact Table.count_noteLength _

end ScriptEngine
