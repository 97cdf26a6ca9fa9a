import ScriptEngine.Library.Sequences
import ScriptEngine.Proofs.Table.Border
import ScriptEngine.Proofs.Table.Reading

/-!
# Integers as keys

Library functions read and write a table by integers, scripts by numbers.  A write goes
through the number of its integer, and so does a read that is not at a positive integer;
a read at a positive integer looks for a position at once.  The two come to the same up
to the last position.  Beyond it a number is no position, and what a script finds there
the read by integer does not see.
-/

namespace ScriptEngine.Table

variable {t : Table}

/-- What a script reads under the number of an integer. -/
def getNumber (t : Table) (i : Int) : Value := t.get (.number (Float.ofInt i))

/-- What a script reads under the numbers of `n` integers from `first` on. -/
def row (t : Table) (first : Int) (n : Nat) : List Value :=
  (List.range n).map fun i => t.getNumber (first + Int.ofNat i)

/-- The texts of values that stand from `i` on, or the position of one that has none. -/
def textsOf : List Value → Int → Except Int (List String)
  | [], _ => .ok []
  | v :: rest, i =>
    match v.toText? with
    | none => .error i
    | some text =>
      match textsOf rest (i + 1) with
      | .ok texts => .ok (text :: texts)
      | .error i => .error i

/-- The texts are those of the values that are unpacked. -/
theorem texts_eq_textsOf (t : Table) (n : Nat) (i : Int) :
    t.texts n i = textsOf (t.slice i n) i := by
  induction n generalizing i with
  | zero => rfl
  | succ n ih =>
    have hslice : t.slice i (n + 1) = t.getInt i :: t.slice (i + 1) n := by
      simp only [slice, List.range_succ_eq_map, List.map_cons, List.map_map]
      congr 1
      · simp
      · refine List.map_congr_left fun j _ => congrArg t.getInt ?_
        simp only [Int.ofNat_eq_natCast]
        omega
    rw [hslice]
    cases htext : (t.getInt i).toText? with
    | none => simp only [texts, textsOf, htext]
    | some text =>
      cases hrest : textsOf (t.slice (i + 1) n) (i + 1) with
      | ok texts => simp only [Table.texts, textsOf, htext, ih (i + 1), hrest]
      | error place => simp only [Table.texts, textsOf, htext, ih (i + 1), hrest]

/-! ## The number of an integer as a key -/

/-- No integer is refused as a key: its number is no NaN. -/
theorem exists_key_ofInt (i : Int) :
    ∃ key, Key.ofValue? (.number (Float.ofInt i)) = some key := by
  have hscalar : (Value.number (Float.ofInt i)).toScalar = .number (Float.ofInt i) :=
    Value.toScalar_eq_self (by simp)
  rw [← Option.ne_none_iff_exists', ne_eq, Key.ofValue?_eq_none_iff, Value.isNoKey, hscalar]
  simp only [Double.isNaN_ofInt, Bool.false_eq_true, not_false_eq_true]

/-- Up to the last position an integer and its number lead to the same entry. -/
theorem getInt_eq_getNumber (t : Table) {i : Int} (hi : i ≤ Key.maxPosition) :
    t.getInt i = t.getNumber i := by
  by_cases hpos : 1 ≤ i
  · obtain ⟨n, rfl⟩ := Int.eq_ofNat_of_zero_le (by omega : 0 ≤ i)
    have hkey := Key.ofValue?_position (i := n) (by omega) (by omega)
    have hnumber : t.getNumber n = t.getKey (.position n) := by
      unfold getNumber get
      rw [hkey]
    rw [hnumber, getInt_position t (by omega)]
  · simp only [getInt, if_neg hpos, getNumber]

namespace Consistent

variable (ht : t.Consistent)

include ht

theorem getInt_of_gt {i : Int} (hi : Key.maxPosition < i) : t.getInt i = .nil := by
  obtain ⟨n, rfl⟩ := Int.eq_ofNat_of_zero_le (by omega : 0 ≤ i)
  rw [getInt_position t (by omega)]
  exact ht.getKey_position_of_gt (by omega)

theorem getInt_eq_getNumber_iff (i : Int) :
    t.getInt i = t.getNumber i ↔ i ≤ Key.maxPosition ∨ t.getNumber i = .nil := by
  by_cases hi : i ≤ Key.maxPosition
  · exact iff_of_true (t.getInt_eq_getNumber hi) (Or.inl hi)
  · rw [ht.getInt_of_gt (by omega)]
    exact ⟨fun h => Or.inr h.symm, fun h => (h.resolve_left hi).symm⟩

/-- A script finds what was written under an integer, whichever integer it was. -/
theorem getNumber_setInt (i : Int) (v : Value) : (t.setInt i v).getNumber i = v.toStorable := by
  obtain ⟨key, hkey⟩ := exists_key_ofInt i
  unfold getNumber get
  rw [hkey]
  simp only
  rw [ht.getKey_setInt hkey, if_pos rfl]

end Consistent

/-- A read by integer finds what a script's read by the same number finds, and what was
written under that integer, if the integer is at most the last position or there is
nothing to find; what is unpacked or joined is what a script reads at those numbers if
this holds of each of them.  A read by number finds it in any case. -/
theorem Arises.integers_agree (ht : t.Arises) (i : Int) (v : Value) :
    (t.getInt i = t.getNumber i ↔ i ≤ Key.maxPosition ∨ t.getNumber i = .nil) ∧
      ((t.setInt i v).getInt i = v.toStorable ↔
        i ≤ Key.maxPosition ∨ v.toStorable = .nil) ∧
      (t.setInt i v).getNumber i = v.toStorable ∧
      ∀ n,
        (t.slice i n = t.row i n ↔
          ∀ j < n, i + Int.ofNat j ≤ Key.maxPosition ∨
            t.getNumber (i + Int.ofNat j) = .nil) ∧
        (t.slice i n = t.row i n → t.texts n i = textsOf (t.row i n) i) := by
  have hc := ht.consistent
  have hwritten := hc.getNumber_setInt i v
  refine ⟨hc.getInt_eq_getNumber_iff i, ?_, hwritten, fun n => ⟨?_, fun hrow => ?_⟩⟩
  · have hiff := (hc.setInt i v).getInt_eq_getNumber_iff i
    rwa [hwritten] at hiff
  · unfold slice row
    rw [List.map_inj_left]
    simp only [List.mem_range, hc.getInt_eq_getNumber_iff]
  · rw [texts_eq_textsOf, hrow]

/-- The table that was written under one integer. -/
def writtenAt (i : Int) : Table := ({} : Table).setInt i (.boolean true)

theorem arises_writtenAt (i : Int) : (writtenAt i).Arises :=
  Arises.empty.perform (.setInteger i (.boolean true))

/-- At the last position both reads find what is there. -/
theorem integers_agree_last :
    let t := writtenAt Key.maxPosition
    t.Arises ∧ t.getInt Key.maxPosition = t.getNumber Key.maxPosition ∧
      t.slice Key.maxPosition 1 = t.row Key.maxPosition 1 := by
  intro t
  have ht := arises_writtenAt Key.maxPosition
  obtain ⟨hread, -, -, hrows⟩ := Arises.integers_agree ht Key.maxPosition .nil
  refine ⟨ht, hread.mpr (Or.inl (le_refl _)), (hrows 1).1.mpr ?_⟩
  intro j hj
  exact Or.inl (by simp only [Int.ofNat_eq_natCast]; omega)

/-- Two positions on, a script reads what was written and the read by integer does not. -/
theorem integers_disagree_large :
    (writtenAt 9007199254740994).Arises ∧
      (writtenAt 9007199254740994).getNumber 9007199254740994 = .boolean true ∧
      (writtenAt 9007199254740994).getInt 9007199254740994 = .nil := by
  refine ⟨arises_writtenAt _, ?_, ?_⟩
  · decide +kernel
  · decide +kernel

end ScriptEngine.Table
