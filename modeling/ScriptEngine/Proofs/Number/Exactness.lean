import Mathlib
import ScriptEngine.Number.Shortest
import ScriptEngine.Proofs.Number.Bits

/-!
# Numbers that are read exactly

The double nearest to a fraction depends on the number alone, not on the numerator and
denominator it is given by, and so does the double of a decimal: zeros at its end may be
moved into its exponent.  A fraction that is a double is that double.
-/

namespace ScriptEngine

variable {n d n' d' k : Nat} {s : Nat} {e : Int}

/-! ## Rounding a quotient -/

theorem divNearestEven_mul_right (n d : Nat) (hk : 0 < k) :
    divNearestEven (n * k) (d * k) = divNearestEven n d := by
  have hrest : 2 * (n * k % (d * k)) = 2 * (n % d) * k := by
    rw [Nat.mul_mod_mul_right, Nat.mul_assoc]
  simp only [divNearestEven, hrest, Nat.mul_div_mul_right _ _ hk, Nat.mul_lt_mul_right hk]

theorem divNearestEven_congr (hd : 0 < d) (hd' : 0 < d') (h : n * d' = n' * d) :
    divNearestEven n d = divNearestEven n' d' := by
  calc
    divNearestEven n d = divNearestEven (n * d') (d * d') :=
      (divNearestEven_mul_right n d hd').symm
    _ = divNearestEven (n' * d) (d' * d) := by rw [h, Nat.mul_comm d d']
    _ = divNearestEven n' d' := divNearestEven_mul_right n' d' hd

namespace Double

/-! ## The leading place of a fraction -/

theorem cast_pow_toNat (b : Nat) (hb : b ≠ 0) (k : Int) :
    ((b ^ k.toNat : Nat) : ℚ) = (b : ℚ) ^ k * ((b ^ (-k).toNat : Nat) : ℚ) := by
  have hbase : (b : ℚ) ≠ 0 := by exact_mod_cast hb
  push_cast
  rw [← zpow_natCast, ← zpow_natCast, ← zpow_add₀ hbase]
  congr 1
  omega

theorem powLeRatio_iff (k : Int) (n : Nat) (hd : 0 < d) :
    powLeRatio k n d = true ↔ (2 : ℚ) ^ k ≤ n / d := by
  have hden : (0 : ℚ) < d := by exact_mod_cast hd
  have hpow : (0 : ℚ) < ((2 ^ (-k).toNat : Nat) : ℚ) := by positivity
  have hshift := cast_pow_toNat 2 two_ne_zero k
  rw [powLeRatio, decide_eq_true_eq, le_div_iff₀ hden, ← Nat.cast_le (α := ℚ)]
  simp only [Nat.pow_eq]
  rw [Nat.cast_mul, Nat.cast_mul, hshift, mul_right_comm, mul_le_mul_iff_left₀ hpow]
  rfl

theorem two_zpow_le_iff {r : ℚ} (hr : 0 < r) (k : Int) : 2 ^ k ≤ r ↔ k ≤ Int.log 2 r := by
  simpa using Int.zpow_le_iff_le_log (b := 2) one_lt_two hr

theorem lt_two_zpow_iff {r : ℚ} (hr : 0 < r) (k : Int) : r < 2 ^ k ↔ Int.log 2 r < k := by
  simpa using Int.lt_zpow_iff_log_lt (b := 2) one_lt_two hr

theorem ratioLog2_eq_log (hn : 0 < n) (hd : 0 < d) :
    ratioLog2 n d = Int.log 2 ((n : ℚ) / d) := by
  have hden : (0 : ℚ) < d := by exact_mod_cast hd
  have hnum : (0 : ℚ) < n := by exact_mod_cast hn
  have hratio : (0 : ℚ) < n / d := div_pos hnum hden
  have hnlow : (2 : ℚ) ^ n.log2 ≤ n := by exact_mod_cast Nat.log2_self_le hn.ne'
  have hnhigh : (n : ℚ) < 2 ^ (n.log2 + 1) := by exact_mod_cast Nat.lt_log2_self
  have hdlow : (2 : ℚ) ^ d.log2 ≤ d := by exact_mod_cast Nat.log2_self_le hd.ne'
  have hdhigh : (d : ℚ) < 2 ^ (d.log2 + 1) := by exact_mod_cast Nat.lt_log2_self
  have hlow : (2 : ℚ) ^ ((n.log2 : Int) - d.log2 - 1) ≤ n / d := by
    rw [le_div_iff₀ hden]
    calc
      (2 : ℚ) ^ ((n.log2 : Int) - d.log2 - 1) * d
          ≤ 2 ^ ((n.log2 : Int) - d.log2 - 1) * 2 ^ (d.log2 + 1) := by gcongr
      _ = 2 ^ n.log2 := by
        rw [← zpow_natCast, ← zpow_natCast, ← zpow_add₀ two_ne_zero]
        congr 1
        push_cast
        omega
      _ ≤ n := hnlow
  have hhigh : (n : ℚ) / d < 2 ^ ((n.log2 : Int) - d.log2 + 1) := by
    rw [div_lt_iff₀ hden]
    calc
      (n : ℚ) < 2 ^ (n.log2 + 1) := hnhigh
      _ = 2 ^ ((n.log2 : Int) - d.log2 + 1) * 2 ^ d.log2 := by
        rw [← zpow_natCast, ← zpow_natCast, ← zpow_add₀ two_ne_zero]
        congr 1
        push_cast
        omega
      _ ≤ 2 ^ ((n.log2 : Int) - d.log2 + 1) * d := by gcongr
  rw [two_zpow_le_iff hratio] at hlow
  rw [lt_two_zpow_iff hratio] at hhigh
  unfold ratioLog2
  simp only [powLeRatio_iff _ _ hd, two_zpow_le_iff hratio, Int.ofNat_eq_natCast]
  split <;> omega

/-! ## The double of a fraction -/

@[simp] theorem ratioBits_zero (d : Nat) : ratioBits 0 d = 0 := if_pos rfl

theorem ratioBits_congr (hd : 0 < d) (hd' : 0 < d') (h : n * d' = n' * d) :
    ratioBits n d = ratioBits n' d' := by
  by_cases hn : n = 0
  · have hn' : n' = 0 := by
      subst hn
      rw [Nat.zero_mul, eq_comm, Nat.mul_eq_zero] at h
      omega
    rw [hn, hn', ratioBits_zero, ratioBits_zero]
  · have hn' : n' ≠ 0 := by
      rintro rfl
      rw [Nat.zero_mul, Nat.mul_eq_zero] at h
      omega
    have hratio : (n : ℚ) / d = n' / d' := by
      rw [div_eq_div_iff (by positivity) (by positivity)]
      exact_mod_cast h
    have hplace : lastPlace n d = lastPlace n' d' := by
      simp only [lastPlace, ratioLog2_eq_log (Nat.pos_of_ne_zero hn) hd,
        ratioLog2_eq_log (Nat.pos_of_ne_zero hn') hd', hratio]
    have hpow (k : Nat) : 0 < Nat.pow 2 k := Nat.two_pow_pos k
    have hquotient (i j : Nat) : divNearestEven (n * Nat.pow 2 i) (d * Nat.pow 2 j) =
        divNearestEven (n' * Nat.pow 2 i) (d' * Nat.pow 2 j) := by
      apply divNearestEven_congr (Nat.mul_pos hd (hpow _)) (Nat.mul_pos hd' (hpow _))
      rw [mul_mul_mul_comm, h, mul_mul_mul_comm]
    unfold ratioBits
    rw [if_neg hn, if_neg hn', hplace]
    simp only [hquotient]

theorem lastPlace_of_fits (hfits : Fits s e) (hs : 0 < s) (hn : 0 < n) (hd : 0 < d)
    (h : (n : ℚ) / d = s * 2 ^ e) : lastPlace n d = e := by
  have hsig : (0 : ℚ) < s := by exact_mod_cast hs
  have hpow : (0 : ℚ) < 2 ^ e := by positivity
  have hratio : (0 : ℚ) < n / d := by
    rw [h]
    positivity
  have hwidth : (s : ℚ) < 2 ^ 53 := by exact_mod_cast hfits.width
  have hhigh : Int.log 2 ((n : ℚ) / d) < e + 53 := by
    rw [← lt_two_zpow_iff hratio, h, add_comm, zpow_add₀ two_ne_zero]
    gcongr
    exact_mod_cast hwidth
  have hlow : e + 52 ≤ Int.log 2 ((n : ℚ) / d) ∨ e = Dyadic.minExponent := by
    refine hfits.leading.imp_left fun hleading => ?_
    have hleading : (2 : ℚ) ^ 52 ≤ s := by exact_mod_cast hleading
    rw [← two_zpow_le_iff hratio, h, add_comm, zpow_add₀ two_ne_zero]
    gcongr
    exact_mod_cast hleading
  have hmin := hfits.low
  rw [lastPlace, ratioLog2_eq_log hn hd]
  omega

/-- A fraction that fits has the bits of its significand and exponent. -/
theorem ratioBits_of_fits (hfits : Fits s e) (hd : 0 < d)
    (h : n * Nat.pow 2 (-e).toNat = s * (d * Nat.pow 2 e.toNat)) :
    ratioBits n d = bitsOf s e := by
  have hpow (k : Nat) : 0 < Nat.pow 2 k := Nat.two_pow_pos k
  by_cases hs : s = 0
  · have hn : n = 0 := by
      rw [hs, Nat.zero_mul, Nat.mul_eq_zero] at h
      exact h.resolve_right (hpow _).ne'
    have he : e = Dyadic.minExponent := by
      refine hfits.leading.resolve_left ?_
      rw [hs]
      decide
    rw [hn, hs, he, ratioBits_zero, bitsOf, sub_self]
    rfl
  · have hn : n ≠ 0 := by
      rintro rfl
      rw [Nat.zero_mul, eq_comm, Nat.mul_eq_zero, Nat.mul_eq_zero] at h
      have := hpow e.toNat
      omega
    have hratio : (n : ℚ) / d = s * 2 ^ e := by
      have hden : (d : ℚ) ≠ 0 := by exact_mod_cast hd.ne'
      have hshift := cast_pow_toNat 2 two_ne_zero e
      have hunit : ((2 ^ (-e).toNat : Nat) : ℚ) ≠ 0 := by positivity
      have hcast : (n : ℚ) * ((2 ^ (-e).toNat : Nat) : ℚ) =
          s * (d * ((2 ^ e.toNat : Nat) : ℚ)) := by exact_mod_cast h
      rw [div_eq_iff hden]
      apply mul_right_cancel₀ hunit
      rw [hcast, hshift]
      push_cast
      ring
    have hplace := lastPlace_of_fits hfits (Nat.pos_of_ne_zero hs) (Nat.pos_of_ne_zero hn) hd hratio
    have hden : 0 < d * Nat.pow 2 e.toNat := Nat.mul_pos hd (hpow _)
    have hquotient : divNearestEven (n * Nat.pow 2 (-e).toNat) (d * Nat.pow 2 e.toNat) = s := by
      rw [h, divNearestEven_of_dvd hden (Nat.dvd_mul_left _ _), Nat.mul_div_cancel _ hden]
    unfold ratioBits
    rw [if_neg hn]
    simp only [hplace, hquotient]
    apply Nat.min_eq_right
    have hlast : infinityBits = 2047 * 2 ^ 52 := rfl
    have hmin : Dyadic.minExponent = -1074 := rfl
    have hwidth := hfits.width
    have hhigh := hfits.high
    simp only [Nat.pow_eq]
    omega

theorem ofRatio_congr (hd : 0 < d) (hd' : 0 < d') (h : n * d' = n' * d) :
    ofRatio n d = ofRatio n' d' := by
  rw [ofRatio, ratioBits_congr hd hd' h, ofRatio]

/-! ## The double of a decimal -/

theorem decimalLength_eq_succ_iff (hn : 0 < n) :
    decimalLength n = k + 1 ↔ 10 ^ k ≤ n ∧ n < 10 ^ (k + 1) := by
  have hlength (j : Nat) (hj : 0 < j) : (Nat.toDigits 10 n).length ≤ j ↔ n < 10 ^ j :=
    Nat.length_toDigits_le_iff (by decide) hj
  have hpos : 0 < (Nat.toDigits 10 n).length := Nat.length_toDigits_pos
  have hnext := hlength (k + 1) (by omega)
  rw [decimalLength, if_neg hn.ne']
  by_cases hk : k = 0
  · subst hk
    omega
  · have hthis := hlength k (by omega)
    omega

theorem exists_decimalLength (hn : 0 < n) :
    ∃ k, decimalLength n = k + 1 ∧ 10 ^ k ≤ n ∧ n < 10 ^ (k + 1) := by
  have hpos : 0 < decimalLength n := by
    rw [decimalLength, if_neg hn.ne']
    exact Nat.length_toDigits_pos
  have hlength : decimalLength n = decimalLength n - 1 + 1 := by omega
  exact ⟨decimalLength n - 1, hlength, (decimalLength_eq_succ_iff hn).mp hlength⟩

theorem decimalLength_mul_pow (hn : 0 < n) (j : Nat) :
    decimalLength (n * 10 ^ j) = decimalLength n + j := by
  obtain ⟨k, hlength, hlow, hhigh⟩ := exists_decimalLength hn
  have hpow : 0 < 10 ^ j := by positivity
  rw [hlength, Nat.add_right_comm, decimalLength_eq_succ_iff (Nat.mul_pos hn hpow),
    Nat.add_right_comm, pow_add, pow_add]
  exact ⟨Nat.mul_le_mul_right _ hlow, Nat.mul_lt_mul_of_pos_right hhigh hpow⟩

theorem ofDecimal_zero (exponent : Int) : ofDecimal 0 exponent = ofRatio 0 1 := by
  simp [ofDecimal]

/-- Zeros at the end of the digits count as much as in the exponent. -/
theorem ofDecimal_mul_pow (digits j : Nat) (exponent : Int) :
    ofDecimal (digits * 10 ^ j) exponent = ofDecimal digits (exponent + j) := by
  by_cases hdigits : digits = 0
  · subst hdigits
    rw [Nat.zero_mul, ofDecimal_zero, ofDecimal_zero]
  · have hpos := Nat.pos_of_ne_zero hdigits
    have hpow (i : Nat) : 0 < Nat.pow 10 i := Nat.pow_pos (by decide)
    have hfirst : Int.ofNat (decimalLength (digits * 10 ^ j)) + exponent =
        Int.ofNat (decimalLength digits) + (exponent + j) := by
      rw [decimalLength_mul_pow hpos]
      simp only [Int.ofNat_eq_natCast]
      omega
    have hratio : ofRatio (digits * 10 ^ j * Nat.pow 10 exponent.toNat)
          (Nat.pow 10 (-exponent).toNat) =
        ofRatio (digits * Nat.pow 10 (exponent + j).toNat)
          (Nat.pow 10 (-(exponent + j)).toNat) := by
      apply ofRatio_congr (hpow _) (hpow _)
      simp only [Nat.pow_eq, mul_assoc, ← pow_add]
      congr 2
      omega
    have hproduct : digits * 10 ^ j ≠ 0 := (Nat.mul_pos hpos (by positivity)).ne'
    simp only [ofDecimal, hfirst, hratio, hdigits, hproduct]

/-- The powers of two that doubles reach are within the range of decimals. -/
theorem two_zpow_lt_ten_zpow : (2 : ℚ) ^ (1280 : Int) < 10 ^ (400 : Int) := by
  calc
    (2 : ℚ) ^ (1280 : Int) = (2 ^ (256 : Int)) ^ (5 : Int) := by rw [← zpow_mul]; rfl
    _ < (10 ^ (80 : Int)) ^ (5 : Int) := by
      apply zpow_lt_zpow_left₀ <;> norm_num
    _ = 10 ^ (400 : Int) := by rw [← zpow_mul]; rfl

/-- The first digit of a double has its place within the range. -/
theorem first_of_fits {digits : Nat} {exponent : Int} (hfits : Fits s e) (hs : 0 < s)
    (hdigits : 0 < digits) (h : (digits : ℚ) * 10 ^ exponent = s * 2 ^ e) :
    -decimalRange ≤ Int.ofNat (decimalLength digits) + exponent ∧
      Int.ofNat (decimalLength digits) + exponent ≤ decimalRange := by
  obtain ⟨k, hlength, hlow, hhigh⟩ := exists_decimalLength hdigits
  have hlow : (10 : ℚ) ^ k ≤ digits := by exact_mod_cast hlow
  have hhigh : (digits : ℚ) < 10 ^ (k + 1) := by exact_mod_cast hhigh
  have hone : (1 : ℚ) ≤ s := by exact_mod_cast hs
  have hwidth : (s : ℚ) < 2 ^ 53 := by exact_mod_cast hfits.width
  have hten : (10 : ℚ) ≠ 0 := by norm_num
  have hceil : (10 : ℚ) ^ ((k : Int) + exponent) < 10 ^ (400 : Int) := by
    calc
      (10 : ℚ) ^ ((k : Int) + exponent) = 10 ^ k * 10 ^ exponent := by
        rw [zpow_add₀ hten, zpow_natCast]
      _ ≤ digits * 10 ^ exponent := by gcongr
      _ = s * 2 ^ e := h
      _ ≤ 2 ^ (53 : Int) * 2 ^ (971 : Int) := by
        gcongr
        · exact_mod_cast hwidth.le
        · norm_num
        · exact hfits.high
      _ = 2 ^ (53 + 971 : Int) := (zpow_add₀ two_ne_zero _ _).symm
      _ ≤ 2 ^ (1280 : Int) := zpow_le_zpow_right₀ one_le_two (by decide)
      _ < 10 ^ (400 : Int) := two_zpow_lt_ten_zpow
  have hfloor : (10 : ℚ) ^ (-400 : Int) < 10 ^ ((k : Int) + 1 + exponent) := by
    calc
      (10 : ℚ) ^ (-400 : Int) ≤ 2 ^ (-1280 : Int) := by
        rw [zpow_neg, zpow_neg]
        exact inv_anti₀ (by positivity) two_zpow_lt_ten_zpow.le
      _ ≤ 2 ^ Dyadic.minExponent := zpow_le_zpow_right₀ one_le_two (by decide)
      _ ≤ 2 ^ e := zpow_le_zpow_right₀ one_le_two hfits.low
      _ = 1 * 2 ^ e := (one_mul _).symm
      _ ≤ s * 2 ^ e := by gcongr
      _ = digits * 10 ^ exponent := h.symm
      _ < 10 ^ (k + 1) * 10 ^ exponent := by gcongr
      _ = 10 ^ ((k : Int) + 1 + exponent) := by
        rw [zpow_add₀ hten, ← zpow_natCast]
        push_cast
        rfl
  rw [zpow_lt_zpow_iff_right₀ (by norm_num)] at hceil hfloor
  have hrange : decimalRange = 400 := rfl
  rw [hlength, Int.ofNat_eq_natCast]
  push_cast
  omega

/-- A decimal that fits is read as just that double. -/
theorem ofDecimal_of_fits {digits : Nat} {exponent : Int} (hfits : Fits s e)
    (h : digits * Nat.pow 10 exponent.toNat * Nat.pow 2 (-e).toNat =
      s * (Nat.pow 10 (-exponent).toNat * Nat.pow 2 e.toNat)) :
    ofDecimal digits exponent = Float.ofBits (UInt64.ofNat (bitsOf s e)) := by
  have hten (i : Nat) : 0 < Nat.pow 10 i := Nat.pow_pos (by decide)
  have hbits := ratioBits_of_fits hfits (hten _) h
  by_cases hdigits : digits = 0
  · subst hdigits
    rw [Nat.zero_mul, ratioBits_zero] at hbits
    rw [ofDecimal_zero, ofRatio, ratioBits_zero, hbits]
  · have hs : s ≠ 0 := by
      rintro rfl
      have hproduct := Nat.mul_pos (Nat.mul_pos (Nat.pos_of_ne_zero hdigits) (hten exponent.toNat))
        (Nat.two_pow_pos (-e).toNat)
      rw [Nat.zero_mul] at h
      exact hproduct.ne' h
    have hvalue : (digits : ℚ) * 10 ^ exponent = s * 2 ^ e := by
      have hcast : (digits : ℚ) * ((10 ^ exponent.toNat : Nat) : ℚ) *
            ((2 ^ (-e).toNat : Nat) : ℚ) =
          s * (((10 ^ (-exponent).toNat : Nat) : ℚ) * ((2 ^ e.toNat : Nat) : ℚ)) := by
        exact_mod_cast h
      have hunit : ((10 ^ (-exponent).toNat : Nat) : ℚ) * ((2 ^ (-e).toNat : Nat) : ℚ) ≠ 0 := by
        positivity
      rw [cast_pow_toNat 10 (by decide), cast_pow_toNat 2 two_ne_zero e] at hcast
      apply mul_right_cancel₀ hunit
      push_cast at hcast ⊢
      linear_combination hcast
    obtain ⟨hlow, hhigh⟩ :=
      first_of_fits hfits (Nat.pos_of_ne_zero hs) (Nat.pos_of_ne_zero hdigits) hvalue
    simp only [ofDecimal, hdigits, decide_false, Bool.false_or, decide_eq_true_eq]
    rw [if_neg (by omega), if_neg (by omega), ofRatio, hbits]

end Double

/-! ## Decimals -/

namespace Decimal

/-- The same number with zeros moved into its exponent. -/
theorem toFloat_mul_pow (digits j : Nat) (exponent : Int) :
    (⟨digits * 10 ^ j, exponent⟩ : Decimal).toFloat =
      (⟨digits, exponent + j⟩ : Decimal).toFloat :=
  Double.ofDecimal_mul_pow digits j exponent

theorem toFloat_stripZeros (fuel : Nat) (d : Decimal) :
    (stripZeros fuel d).toFloat = d.toFloat := by
  induction fuel generalizing d with
  | zero => rfl
  | succ fuel ih =>
    rw [stripZeros]
    split
    · next hzero =>
      have hdigits : d.digits = d.digits / 10 * 10 ^ 1 := by
        simp only [Bool.and_eq_true, decide_eq_true_eq] at hzero
        omega
      rw [ih, ← Nat.cast_one, ← toFloat_mul_pow, ← hdigits]
    · rfl

theorem toFloat_normalize (d : Decimal) : d.normalize.toFloat = d.toFloat :=
  toFloat_stripZeros _ d

/-- What the search finds reads back. -/
theorem toFloat_of_search {x : Float} {fuel count : Nat} {c : Decimal}
    (h : search x n d fuel count = some c) : c.toFloat = x := by
  induction fuel generalizing count with
  | zero => cases h
  | succ fuel ih =>
    rw [search] at h
    split at h
    · next hfound =>
      cases h
      apply Double.eq_of_toBits
      simpa using List.find?_some hfound
    · exact ih h

open Double

theorem toFloat_exactly {negative : Bool} (hfits : Fits s e) :
    (exactly ⟨negative, s, e⟩).toFloat = Float.ofBits (UInt64.ofNat (bitsOf s e)) := by
  apply ofDecimal_of_fits hfits
  simp only [exactly, Dyadic.places, Int.ofNat_eq_natCast, Nat.pow_eq]
  have hpositive : (-((-e).toNat : Int)).toNat = 0 := by omega
  have hnegative : (- -((-e).toNat : Int)).toNat = (-e).toNat := by omega
  have hten : (10 : Nat) ^ (-e).toNat = 2 ^ (-e).toNat * 5 ^ (-e).toNat := by
    rw [← Nat.mul_pow]
  rw [hpositive, hnegative, hten]
  ring

/-- A number has its whole part's digits if nothing is behind the point. -/
theorem toFloat_wholePart {negative : Bool} (hfits : Fits s e)
    (hwhole : Dyadic.isWhole ⟨negative, s, e⟩ = true) :
    (⟨Dyadic.wholePart ⟨negative, s, e⟩, 0⟩ : Decimal).toFloat =
      Float.ofBits (UInt64.ofNat (bitsOf s e)) := by
  apply ofDecimal_of_fits hfits
  have hdvd : Nat.pow 2 (-e).toNat ∣ s * Nat.pow 2 e.toNat :=
    Nat.dvd_mul_right_of_dvd (Nat.dvd_of_mod_eq_zero (of_decide_eq_true hwhole)) _
  simp only [Dyadic.wholePart, Dyadic.places]
  rw [Int.neg_zero]
  change _ / _ * 1 * _ = s * (1 * _)
  rw [Nat.mul_one, Nat.one_mul, Nat.div_mul_cancel hdvd]

/-- The shortest digits of a magnitude read back as it. -/
theorem toFloat_shortest {x : Float} {bits : Nat} (hx : HasBits x .positive bits) :
    (shortest x).toFloat = x := by
  obtain ⟨s, e, hparts, hfits, hbits⟩ := hx.ofFloat
  have hread : Float.ofBits (UInt64.ofNat (bitsOf s e)) = x := by
    rw [← hbits]
    exact (hasBits_ofBits hx.finite).eq hx
  simp only [shortest, hparts]
  split
  · next hzero =>
    subst hzero
    rw [← hread]
    apply ofDecimal_of_fits hfits
    simp
  · rw [toFloat_normalize]
    cases hsearch : search x (Dyadic.ratio _).1 (Dyadic.ratio _).2 17 1 with
    | none => exact (toFloat_exactly hfits).trans hread
    | some c => exact toFloat_of_search hsearch

end Decimal

end ScriptEngine
