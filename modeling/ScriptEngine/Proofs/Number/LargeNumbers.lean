import ScriptEngine.Proofs.Number.Nearest

/-!
# Whole numbers that are rounded

From `2 ^ 53` on a double has no room for all digits of a whole number.  The digits behind
the first 53 are cut off, and what is left may go up by one; if that makes a power of two,
the exponent takes the last place.  A number that is rounded is therefore never below its
first 53 digits, which is enough to tell on which side of `2 ^ 53` it comes to lie.
-/

namespace ScriptEngine.Double

open Float.Model Float.Model.UnpackedFloat

variable {sign : Sign} {m n k : Nat} {e : Int} {x y : Float}

/-! ## Cutting off and rounding -/

theorem mantissa_shiftRight (em : ExtendedMantissa) (k : Nat) :
    (em >>> k).mantissa = em.mantissa / 2 ^ k := by
  induction k with
  | zero => simp [HShiftRight.hShiftRight, Nat.repeat]
  | succ k ih =>
    change (em >>> k).mantissa / 2 = _
    rw [ih, Nat.div_div_eq_div_mul, pow_succ]

theorem roundedMantissa_near (em : ExtendedMantissa) :
    em.mantissa ≤ em.roundedMantissa ∧ em.roundedMantissa ≤ em.mantissa + 1 := by
  obtain ⟨m, round, sticky⟩ := em
  cases round <;> cases sticky <;>
    simp [ExtendedMantissa.roundedMantissa, ExtendedMantissa.accuracy,
      Accuracy.roundToNearestEven]
  omega

theorem shiftToTargetExponent_of_carry (he : -1074 ≤ e) :
    shiftToTargetExponent Format.binary64 (2 ^ 53) e .exact =
      (⟨2 ^ 52, false, false⟩, e + 1) := by
  have htarget : Format.binary64.targetExponent (totalExponent (2 ^ 53) e) = e + 1 := by
    simp only [Format.targetExponent, totalExponent, Nat.log2_two_pow, Format.mantissaBits,
      Format.minExponent]
    omega
  have hamount : (e + 1 - e).toNat = 1 := by omega
  simp only [shiftToTargetExponent, htarget, shiftToExponent, hamount]
  rfl

theorem roundWithAccuracy_eq {em : ExtendedMantissa} {e₁ e₂ : Int} {r : Nat} {hr : 0 < r}
    (hfirst : shiftToTargetExponent Format.binary64 m e .exact = (em, e₁))
    (hsecond : shiftToTargetExponent Format.binary64 em.roundedMantissa e₁ .exact =
      (⟨r, false, false⟩, e₂)) :
    roundWithAccuracy Format.binary64 sign m e .exact = .finite sign r e₂ hr := by
  simp only [roundWithAccuracy, hfirst, hsecond]
  rw [dif_neg (by omega)]

/-- The first 53 digits of a longer number. -/
theorem leading_bounds (hlog : m.log2 = 52 + k) :
    2 ^ 52 ≤ m / 2 ^ k ∧ m / 2 ^ k < 2 ^ 53 := by
  have hm : m ≠ 0 := by
    rintro rfl
    simp at hlog
    omega
  have hpow := Nat.two_pow_pos k
  obtain ⟨hlow, hhigh⟩ := (Nat.log2_eq_iff hm).mp hlog
  constructor
  · rw [Nat.le_div_iff_mul_le hpow, ← pow_add]
    exact hlow
  · rw [Nat.div_lt_iff_lt_mul hpow, ← pow_add]
    have hplace : 53 + k = 52 + k + 1 := by omega
    rwa [hplace]

/-- A number with `k` digits too many keeps its first 53 digits, or is rounded up from them. -/
theorem roundWithAccuracy_of_long (sign : Sign) (hlog : m.log2 = 52 + k) (he : -1074 ≤ e) :
    ∃ (m' : Nat) (e' : Int) (hm : 0 < m'),
      roundWithAccuracy Format.binary64 sign m e .exact = .finite sign m' e' hm ∧
        m'.log2 = 52 ∧ (e' = e + k ∧ m / 2 ^ k ≤ m' ∨ e' = e + k + 1) := by
  have htarget : Format.binary64.targetExponent (totalExponent m e) = e + k := by
    simp only [Format.targetExponent, totalExponent, hlog, Format.mantissaBits,
      Format.minExponent]
    omega
  have hamount : (e + k - e).toNat = k := by omega
  have hshift : shiftToTargetExponent Format.binary64 m e .exact =
      ((⟨m, false, false⟩ : ExtendedMantissa) >>> k, e + k) := by
    simp only [shiftToTargetExponent, htarget, shiftToExponent, hamount]
    rfl
  obtain ⟨hfirst, hlast⟩ := leading_bounds hlog
  obtain ⟨hlow, hhigh⟩ := roundedMantissa_near ((⟨m, false, false⟩ : ExtendedMantissa) >>> k)
  rw [mantissa_shiftRight] at hlow hhigh
  simp only at hlow hhigh
  generalize (⟨m, false, false⟩ : ExtendedMantissa) >>> k = em at *
  by_cases hcarry : em.roundedMantissa = 2 ^ 53
  · refine ⟨2 ^ 52, e + k + 1, by decide, ?_, by decide +kernel, .inr rfl⟩
    apply roundWithAccuracy_eq hshift
    rw [hcarry]
    exact shiftToTargetExponent_of_carry (by omega)
  · have hr : em.roundedMantissa.log2 = 52 :=
      (Nat.log2_eq_iff (by omega)).mpr ⟨by omega, by omega⟩
    refine ⟨em.roundedMantissa, e + k, by omega, ?_, hr, .inl ⟨rfl, hlow⟩⟩
    apply roundWithAccuracy_eq hshift
    exact shiftToTargetExponent_of_canonical hr (by omega)

/-! ## Large whole numbers -/

theorem isNormal_ofNat_of_le (hlow : 2 ^ 53 ≤ n) (hhigh : n.log2 ≤ 1000) :
    ∃ (m : Nat) (e : Int), IsNormal (Float.ofNat n) .positive m e ∧
      (e = n.log2 - 52 ∧ n / 2 ^ (n.log2 - 52) ≤ m ∨ e = n.log2 - 51) := by
  have hn : n ≠ 0 := by omega
  have hlog : 53 ≤ n.log2 := (Nat.le_log2 hn).mpr hlow
  have hslow : Float.ofNat n =
      .ofModel (.pack (UnpackedFloat.ofScientific Format.binary64 n 0)) := by
    simp only [Float.ofNat, OfScientific.ofScientific, Float.ofScientific]
    rw [dif_neg (by omega)]
    rfl
  have hlong : (n * 2 ^ 53 * 1).log2 = 52 + (n.log2 + 1) := by
    rw [Nat.mul_one, log2_mul_two_pow (by omega)]
    omega
  obtain ⟨m, e, hm, hround, hcanonical, hplace⟩ :=
    roundWithAccuracy_of_long .positive hlong (by omega : -1074 ≤ (-53 : Int) + 0)
  have hproduct : UnpackedFloat.ofScientific Format.binary64 n 0 = .finite .positive m e hm := by
    have hwidth : (0 : Int) < 2 ^ Format.binary64.exponentBits := by decide
    unfold UnpackedFloat.ofScientific
    rw [dif_neg hn, if_neg (by omega), if_neg (by omega), if_pos (le_refl 0)]
    rw [← hround]
    simp only [UnpackedFloat.mul, Nat.shiftLeft_eq]
    rfl
  have hcut : n * 2 ^ 53 * 1 / 2 ^ (n.log2 + 1) = n / 2 ^ (n.log2 - 52) := by
    have hplaces : n.log2 + 1 = 53 + (n.log2 - 52) := by omega
    rw [hplaces, pow_add, ← Nat.div_div_eq_div_mul, Nat.mul_one,
      Nat.mul_div_cancel _ (Nat.two_pow_pos 53)]
  refine ⟨m, e, ⟨hm, hcanonical, by omega, by omega, ?_⟩, ?_⟩
  · rw [hslow, hproduct]
  · rw [hcut] at hplace
    rcases hplace with ⟨he, hle⟩ | he
    · exact .inl ⟨by omega, hle⟩
    · exact .inr (by omega)

theorem exists_isNormal_ofNat (hn : 0 < n) (hhigh : n.log2 ≤ 1000) :
    ∃ m e, IsNormal (Float.ofNat n) .positive m e := by
  by_cases hlow : 2 ^ 53 ≤ n
  · obtain ⟨m, e, hnormal, -⟩ := isNormal_ofNat_of_le hlow hhigh
    exact ⟨m, e, hnormal⟩
  · exact ⟨_, _, isNormal_ofNat hn (by omega)⟩

/-- The parts of a double say which double it is. -/
theorem IsNormal.eq (hx : IsNormal x sign m e) (hy : IsNormal y sign m e) : x = y := by
  have hmodel : x.toModel = y.toModel := by rw [hx.model, hy.model]
  cases x
  exact congrArg Float.ofModel hmodel

theorem IsNormal.lt_of_parts {m' : Nat} {e' : Int} (hx : IsNormal x .positive m e)
    (hy : IsNormal y .positive m' e') (h : e < e' ∨ e = e' ∧ m < m') : x < y ∧ -y < -x := by
  have hcompare : (compare e e').then (compare m m') = .lt := by
    rcases h with he | ⟨rfl, hm⟩
    · simp [Int.compare_eq_lt.mpr he]
    · simp [Nat.compare_eq_lt.mpr hm]
  have hswap : (compare e' e).then (compare m' m) = .gt := by
    rw [← Ordering.swap_eq_lt, Ordering.swap_then, Int.compare_swap, Nat.compare_swap]
    exact hcompare
  constructor
  · rw [lt_iff_compare, hx.unpack, hy.unpack]
    simp [UnpackedFloat.compare, hcompare]
  · rw [lt_iff_compare, hx.neg.unpack, hy.neg.unpack]
    change UnpackedFloat.compare (.finite .negative _ _ _) (.finite .negative _ _ _) = _
    simp [UnpackedFloat.compare, hswap]

/-- The number next to the limit is rounded to it; those behind stay beyond it. -/
theorem limit_lt_ofNat (hlow : 2 ^ 53 + 2 ≤ n) (hhigh : n.log2 ≤ 1000) :
    9007199254740992 < Float.ofNat n ∧ -Float.ofNat n < -9007199254740992 := by
  obtain ⟨m, e, hnormal, hplace⟩ := isNormal_ofNat_of_le (by omega) hhigh
  have hlog : 53 ≤ n.log2 := (Nat.le_log2 (by omega)).mpr (by omega)
  apply isNormal_limit.lt_of_parts hnormal
  by_cases he : e = 1
  · have hplaces : n.log2 - 52 = 1 := by omega
    rw [hplaces] at hplace
    exact .inr ⟨he.symm, by omega⟩
  · exact .inl (by omega)

/-! ## Equality and negation -/

theorem beq_self (hx : x.isNaN = false) : (x == x) = true := by
  change (x.toModel.unpack.compare x.toModel.unpack == some .eq) = true
  have hunpacked : x.toModel.unpack.isNaN = false := hx
  generalize x.toModel.unpack = f at hunpacked
  cases f with
  | notANumber => cases hunpacked
  | infinity s => cases s <;> rfl
  | zero s => rfl
  | finite s m e hm => cases s <;> simp [UnpackedFloat.compare]

theorem ofInt_beq_self (i : Int) : (Float.ofInt i == Float.ofInt i) = true :=
  beq_self (isNaN_ofInt i)

/-- The negation of a whole number is that of the negated integer, up to the sign of zero. -/
theorem neg_ofInt_beq (n : Nat) : (-Float.ofInt n == Float.ofInt (-n)) = true := by
  cases n with
  | zero => decide +kernel
  | succ n => exact ofInt_beq_self (-(n + 1 : Nat))

theorem neg_ofInt_neg_beq {n : Nat} (hn : n ≤ 2 ^ 63) :
    (-Float.ofInt (-n) == Float.ofInt n) = true := by
  by_cases hzero : n = 0
  · subst hzero
    decide +kernel
  · have hlog : n.log2 ≤ 1000 := by
      have hlast : n.log2 < 64 := (Nat.log2_lt hzero).mpr (by omega)
      omega
    obtain ⟨m, e, hnormal⟩ := exists_isNormal_ofNat (by omega) hlog
    have hnegated : Float.ofInt (-n) = -Float.ofNat n := by
      cases n with
      | zero => cases hzero rfl
      | succ n => rfl
    have hdouble : -Float.ofInt (-n) = Float.ofInt n := by
      rw [hnegated]
      exact hnormal.neg.neg.eq hnormal
    rw [hdouble]
    exact ofInt_beq_self n

end ScriptEngine.Double
