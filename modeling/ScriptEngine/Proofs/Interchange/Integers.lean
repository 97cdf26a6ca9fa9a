import ScriptEngine.Native.Arguments
import ScriptEngine.Proofs.Interchange.Containers
import ScriptEngine.Proofs.Number.LargeNumbers

/-!
# Integers on their way through numbers

An integer of 64 bits is written as the double nearest to it, and a double is read as an
integer if it is whole and no further from zero than `2 ^ 53`.  Up to there every integer is
a number of its own.  From `2 ^ 53 + 2` on the double is out of range.  In between lies one
integer on either side of zero, half way between two doubles; it is rounded toward zero,
onto the last double in range.
-/

namespace ScriptEngine

namespace Double

theorem isInteger_rounded : IsInteger (Float.ofInt (2 ^ 53 + 1)) (2 ^ 53) := by
  have hrounded : Float.ofInt (2 ^ 53 + 1) = Float.ofInt (2 ^ 53) := by decide +kernel
  rw [hrounded]
  exact isInteger_ofInt (by decide)

theorem isInteger_neg_rounded : IsInteger (Float.ofInt (-(2 ^ 53 + 1))) (-2 ^ 53) := by
  have hrounded : Float.ofInt (-(2 ^ 53 + 1)) = Float.ofInt (-2 ^ 53) := by decide +kernel
  rw [hrounded]
  exact isInteger_ofInt (by decide)

/-- A large integer is beyond the last number that is read as an integer. -/
theorem not_between_ofInt {i : Int} (hlow : 2 ^ 53 + 2 ≤ i.natAbs) (hhigh : i.natAbs ≤ 2 ^ 63) :
    ¬ (-exactLimit ≤ Float.ofInt i ∧ Float.ofInt i ≤ exactLimit) := by
  have hlog : i.natAbs.log2 ≤ 1000 := by
    have hlast : i.natAbs.log2 < 64 := (Nat.log2_lt (by omega)).mpr (by omega)
    omega
  obtain ⟨habove, hbelow⟩ := limit_lt_ofNat hlow hlog
  rintro ⟨hleft, hright⟩
  cases i with
  | ofNat n => exact not_lt_of_le hright habove
  | negSucc n => exact not_lt_of_le hleft hbelow

/-- An integer that is a number of its own is itself its floor. -/
theorem floorInt64_ofInt {i : Int} (hlt : i.natAbs < 2 ^ 53) :
    Arguments.floorInt64 (Float.ofInt i) = i := by
  by_cases hzero : i = 0
  · subst hzero
    decide +kernel
  · obtain ⟨sign, hwhole, hsign⟩ := isWholeNumber_ofInt hzero hlt
    have htruncate := hwhole.truncate (by omega) hlt
    have hparts : (Dyadic.ofFloat (Float.ofInt i)).isWhole = true := by
      have hisWhole := hwhole.isWhole
      rw [isWhole, hwhole.isFinite, Bool.true_and] at hisWhole
      exact hisWhole
    have hfloor : floor (Float.ofInt i) = Float.ofInt i := by
      simp [floor, hwhole.isFinite, hparts]
    rw [Arguments.floorInt64, hfloor]
    simp only [clampToInt, isNaN_ofInt, hwhole.isFinite, htruncate, hsign]
    simp
    omega

end Double

variable {H : HostTypes}

/-- An integer comes back as itself up to `2 ^ 53` and is refused from `2 ^ 53 + 2` on; the
one in between comes back as its neighbour. -/
theorem int64_returns (w w' : World H) (n : Int64) :
    fromValue w' (toValue n w).1 =
      if n.toInt.natAbs ≤ 2 ^ 53 then .ok n
      else if n.toInt.natAbs = 2 ^ 53 + 1 then .ok (Int64.ofInt (n.toInt.sign * 2 ^ 53))
      else .error (.outOfRange (Float.ofInt n.toInt) "i64") := by
  change fromValue w' (.number (Float.ofInt n.toInt)) = _
  by_cases hsmall : n.toInt.natAbs ≤ 2 ^ 53
  · rw [if_pos hsmall, fromValue_of_isInteger w' (Double.isInteger_ofInt hsmall),
      Int64.ofInt_toInt]
  rw [if_neg hsmall]
  by_cases hnext : n.toInt.natAbs = 2 ^ 53 + 1
  · rw [if_pos hnext]
    rcases Int.natAbs_eq n.toInt with hn | hn
    · rw [hn, hnext, Nat.cast_add, Nat.cast_pow]
      exact fromValue_of_isInteger w' Double.isInteger_rounded
    · rw [hn, hnext, Nat.cast_add, Nat.cast_pow]
      exact fromValue_of_isInteger w' Double.isInteger_neg_rounded
  · rw [if_neg hnext]
    have hlow := n.le_toInt
    have hhigh := n.toInt_lt
    have hbetween := Double.not_between_ofInt (i := n.toInt) (by omega) (by omega)
    rw [fromValue_number_int64, if_neg]
    intro hrange
    simp only [Bool.and_eq_true, decide_eq_true_eq] at hrange
    exact hbetween ⟨hrange.1.2, hrange.2⟩

/-- The first integer that is no number of its own comes back as the last one that is. -/
theorem int64_rounds :
    let w : World Workbench.types := .start { modules := ⟨false, false, false⟩ } {}
    let n : Int64 := 9007199254740993
    fromValue w (toValue n w).1 = .ok (9007199254740992 : Int64) ∧
      n ≠ (9007199254740992 : Int64) :=
  ⟨fromValue_of_isInteger _ Double.isInteger_rounded, by decide⟩

end ScriptEngine
