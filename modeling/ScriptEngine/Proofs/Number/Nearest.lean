import ScriptEngine.Number.Rounding
import ScriptEngine.Proofs.Number.WholeNumbers

/-!
# Numbers read from digits, and their order

An integer that is small enough is read as just that double, and it is recognised: the
double is whole, below `2 ^ 53` in magnitude, and has the integer as its whole part.  The
order of doubles is that of their parts; turned around, it is the other order, so nothing
is below what it is not above.
-/

namespace ScriptEngine.Double

open Float.Model Float.Model.UnpackedFloat

variable {sign : Sign} {m n : Nat} {e : Int} {x y : Float}

/-! ## The order -/

theorem compare_swap (a b : UnpackedFloat) :
    b.compare a = (a.compare b).map Ordering.swap := by
  have hparts : ∀ (e₁ e₂ : Int) (m₁ m₂ : Nat),
      ((compare e₁ e₂).then (compare m₁ m₂)).swap =
        (compare e₂ e₁).then (compare m₂ m₁) := by
    intro e₁ e₂ m₁ m₂
    rw [Ordering.swap_then, Int.compare_swap, Nat.compare_swap]
  rcases a with ⟨_ | _⟩ | _ | ⟨_ | _⟩ | ⟨_ | _, m₁, e₁, h₁⟩ <;>
    rcases b with ⟨_ | _⟩ | _ | ⟨_ | _⟩ | ⟨_ | _, m₂, e₂, h₂⟩
  all_goals first | rfl | simp only [UnpackedFloat.compare, Option.map_some, hparts]

theorem lt_iff_compare :
    x < y ↔ x.toModel.unpack.compare y.toModel.unpack = some .lt := by
  change decide (x.toModel < y.toModel) = true ↔ _
  rw [decide_eq_true_iff]
  exact beq_iff_eq

theorem le_iff_compare :
    x ≤ y ↔ (x.toModel.unpack.compare y.toModel.unpack).any (·.isLE) = true := by
  change decide (x.toModel ≤ y.toModel) = true ↔ _
  rw [decide_eq_true_iff]
  exact Iff.rfl

theorem not_lt_of_le (h : x ≤ y) : ¬ y < x := by
  rw [le_iff_compare] at h
  rw [lt_iff_compare, compare_swap, Option.map_eq_some_iff]
  rintro ⟨o, hcompare, hswap⟩
  rw [hcompare] at h
  cases o <;> cases hswap
  cases h

/-- Smaller numbers have smaller exponents. -/
theorem IsNormal.lt_of_exponent {m' : Nat} {e' : Int} (hx : IsNormal x .positive m e)
    (hy : IsNormal y .positive m' e') (he : e < e') : x < y := by
  have hlt : compare e e' = .lt := Int.compare_eq_lt.mpr he
  rw [lt_iff_compare, hx.unpack, hy.unpack]
  simp [UnpackedFloat.compare, hlt]

/-! ## Reading -/

theorem ratioLog2_one (hn : 0 < n) : ratioLog2 n 1 = n.log2 := by
  have hlow := Nat.log2_self_le (n := n) (by omega)
  have hone : Nat.log2 1 = 0 := rfl
  unfold ratioLog2
  rw [if_pos]
  · simp [hone]
  · simp only [powLeRatio, hone, Int.ofNat_eq_natCast, decide_eq_true_eq]
    have hzero : (-((n.log2 : Int) - (0 : Nat))).toNat = 0 := by omega
    have hlog : ((n.log2 : Int) - (0 : Nat)).toNat = n.log2 := by omega
    rw [hzero, hlog]
    simpa using hlow

theorem ratioBits_one (hn : 0 < n) (hlt : n < 2 ^ 53) :
    ratioBits n 1 = (n.log2 + 1022) * 2 ^ 52 + n * 2 ^ (52 - n.log2) := by
  have hlog := log2_le_of_lt hn hlt
  have hsignificand := log2_significand hn hlt
  have hpos := significand_pos hn
  have hplace : lastPlace n 1 = (n.log2 : Int) - 52 := by
    simp only [lastPlace, ratioLog2_one hn, Dyadic.minExponent]
    omega
  have hnegative : (-((n.log2 : Int) - 52)).toNat = 52 - n.log2 := by omega
  have hnonnegative : ((n.log2 : Int) - 52).toNat = 0 := by omega
  have hbiased : ((n.log2 : Int) - 52 - Dyadic.minExponent).toNat = n.log2 + 1022 := by
    simp only [Dyadic.minExponent]
    omega
  have hrange := (Nat.log2_eq_iff (by omega)).mp hsignificand
  have hdenominator : 1 * Nat.pow 2 0 = 1 := rfl
  unfold ratioBits
  rw [if_neg (by omega)]
  simp only [hplace, hnegative, hnonnegative, hbiased, hdenominator]
  rw [divNearestEven_of_dvd Nat.one_pos (Nat.one_dvd _), Nat.div_one]
  refine Nat.min_eq_right ?_
  have hlast : infinityBits = 2047 * 2 ^ 52 := rfl
  rw [hlast]
  simp only [Nat.pow_eq] at hrange ⊢
  omega

theorem toNat_toBits_ofNat (hn : 0 < n) (hlt : n < 2 ^ 53) :
    (Float.ofNat n).toBits.toNat = (n.log2 + 1022) * 2 ^ 52 + n * 2 ^ (52 - n.log2) := by
  have hlog := log2_le_of_lt hn hlt
  have hpos := significand_pos hn
  have hrange := (Nat.log2_eq_iff (by omega)).mp (log2_significand hn hlt)
  have hbiased : ((n.log2 : Int) - 52 + 1075).toNat = n.log2 + 1023 := by omega
  have hsign : Sign.positive.toBitVec.toNat = 0 := rfl
  rw [(isNormal_ofNat hn hlt).toNat_toBits, hbiased, hsign]
  omega

/-- The double read for a small number is the one that the number is. -/
theorem ofRatio_one (hn : 0 < n) (hlt : n < 2 ^ 53) : ofRatio n 1 = Float.ofNat n := by
  rw [ofRatio, ratioBits_one hn hlt, ← toNat_toBits_ofNat hn hlt, UInt64.ofNat_toNat]
  exact (isNormal_ofNat hn hlt).ofBits_toBits

/-- From here on there are integers that are no double. -/
theorem isNormal_limit : IsNormal 9007199254740992 .positive (2 ^ 52) 1 where
  pos := by decide
  log := by decide +kernel
  low := by decide
  high := by decide
  model := by decide +kernel

/-- Whole numbers that are exact are below the limit. -/
theorem IsNormal.abs_lt_limit (hn : 0 < n) (hlt : n < 2 ^ 53) (h : IsWholeNumber x sign n) :
    x.abs < 9007199254740992 := by
  have hlog := log2_le_of_lt hn hlt
  exact h.abs.lt_of_exponent isNormal_limit (by omega)

end ScriptEngine.Double
