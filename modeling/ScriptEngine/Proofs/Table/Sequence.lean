import ScriptEngine.Proofs.Table.Conservation

/-!
# Tables that are sequences

A table is a sequence if its keys are the positions from 1 on up to the number of its
entries.  That is the case as soon as the length and the number of entries agree, and then
the items that are read at the positions are the values of the entries, each once.
-/

namespace ScriptEngine

theorem Association.bound_iff_mem_keys {a : Association} {key : Key} :
    a.Bound key ↔ key ∈ a.map (·.key) := by
  simp [Bound]

namespace Table

variable {t : Table}

/-- The keys are the positions from 1 to the number of entries, each of them once and in
any order. -/
def IsSequence (t : Table) : Prop :=
  0 < t.count ∧
    (t.pairs.map fun e => Key.ofValue? e.1).Perm
      ((List.range t.count).map fun i => some (.position (i + 1)))

namespace Consistent

theorem keys_pairs (ht : t.Consistent) :
    (t.pairs.map fun e => Key.ofValue? e.1) = (t.bindings.map (·.key)).map some := by
  have hrepresents := ht.denotes.represents
  rw [hrepresents.pairs, List.map_map, List.map_map]
  exact List.map_congr_left hrepresents.canonical

theorem isSequence_iff_perm (ht : t.Consistent) :
    t.IsSequence ↔ 0 < t.count ∧
      (t.bindings.map (·.key)).Perm
        ((List.range t.count).map fun i => Key.position (i + 1)) := by
  have hpositions : ((List.range t.count).map fun i => some (Key.position (i + 1))) =
      ((List.range t.count).map fun i => Key.position (i + 1)).map some := by
    rw [List.map_map]
    rfl
  unfold IsSequence
  rw [ht.keys_pairs, hpositions, List.map_perm_map_iff (Option.some_injective Key)]

/-- A table is a sequence exactly if it has no entries besides those up to its length. -/
theorem isSequence_iff (ht : t.Consistent) :
    t.IsSequence ↔ 0 < t.length ∧ t.length = t.count := by
  have hcount : t.count = (t.bindings.map (·.key)).length := by
    rw [ht.denotes.represents.count, List.length_map]
  have hborder := Association.border_eq_iff.mp ht.length_eq_border.symm
  rw [ht.isSequence_iff_perm]
  constructor
  · rintro ⟨hpos, hperm⟩
    have hbound (n : Nat) : t.bindings.Bound (.position (n + 1)) ↔ n < t.count := by
      rw [Association.bound_iff_mem_keys, hperm.mem_iff]
      simp
    have hlength : t.length = t.count := by
      rw [ht.length_eq_border, Association.border_eq_iff, hbound]
      exact ⟨Nat.lt_irrefl _, fun n hn => (hbound n).mpr hn⟩
    exact ⟨hlength ▸ hpos, hlength⟩
  · rintro ⟨hpos, hlength⟩
    have hsubset : ((List.range t.count).map fun i => Key.position (i + 1)) ⊆
        t.bindings.map (·.key) := by
      intro key hkey
      obtain ⟨n, hn, rfl⟩ := List.mem_map.mp hkey
      rw [List.mem_range, ← hlength] at hn
      exact Association.bound_iff_mem_keys.mp (hborder.2 n hn)
    have hsubperm := List.subperm_of_subset (Association.nodup_positions t.count) hsubset
    refine ⟨hlength ▸ hpos, (hsubperm.perm_of_length_le ?_).symm⟩
    simp [hcount]

theorem getKey_of_mem_pairs (ht : t.Consistent) {e : Value × Value} (he : e ∈ t.pairs)
    {key : Key} (hkey : Key.ofValue? e.1 = some key) : t.getKey key = e.2 := by
  have hrepresents := ht.denotes.represents
  rw [hrepresents.pairs] at he
  obtain ⟨b, hb, rfl⟩ := List.mem_map.mp he
  have hsame : b.key = key := Option.some.inj ((hrepresents.canonical b hb).symm.trans hkey)
  rw [ht.denotes.getKey, Association.read,
    (Association.lookup?_eq_some_iff hrepresents.distinct).mpr ⟨b, hb, hsame, rfl⟩]
  rfl

/-- The entries of a sequence can be put in the order of their positions; then their values
are the items. -/
theorem exists_arrangement (ht : t.Consistent) (hsequence : t.IsSequence) :
    ∃ entries : List (Value × Value), entries.Perm t.pairs ∧
      (entries.map fun e => Key.ofValue? e.1) =
        ((List.range t.length).map fun i => some (.position (i + 1))) ∧
      entries.map (·.2) = (List.range t.length).map fun i => t.getInt (Int.ofNat i + 1) := by
  obtain ⟨-, hlength⟩ := ht.isSequence_iff.mp hsequence
  have hperm := hsequence.2
  rw [← hlength] at hperm
  have hkeys : List.Forall₂ (fun key e => Key.ofValue? e.1 = key)
      (t.pairs.map fun e => Key.ofValue? e.1) t.pairs :=
    List.forall₂_map_left_iff.mpr (List.forall₂_same.mpr fun _ _ => rfl)
  obtain ⟨entries, harranged, hentries⟩ := List.perm_comp_forall₂ hperm.symm hkeys
  have hplaced : (entries.map fun e => Key.ofValue? e.1) =
      ((List.range t.length).map fun i => some (.position (i + 1))) := by
    rw [← List.forall₂_eq_eq_eq, List.forall₂_map_left_iff]
    exact harranged.flip
  refine ⟨entries, hentries, hplaced, ?_⟩
  have hsize : entries.length = t.length := by simpa using congrArg List.length hplaced
  apply List.ext_getElem
  · simpa using hsize
  · intro i hi hi'
    have hentry : i < entries.length := by simpa using hi
    have hitem : i < t.length := by simpa using hi'
    have hmem : entries[i] ∈ t.pairs := hentries.mem_iff.mp (List.getElem_mem hentry)
    have hkey : Key.ofValue? entries[i].1 = some (.position (i + 1)) := by
      have hat := congrArg (·[i]?) hplaced
      simpa [hentry, hitem] using hat
    have hposition : Int.ofNat i + 1 = ((i + 1 : Nat) : Int) := rfl
    rw [List.getElem_map, List.getElem_map, List.getElem_range, hposition,
      getInt_position t (by omega), ht.getKey_of_mem_pairs hmem hkey]

end Consistent

end Table

end ScriptEngine
