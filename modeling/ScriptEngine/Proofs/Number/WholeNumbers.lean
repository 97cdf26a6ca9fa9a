import Mathlib
import ScriptEngine.Number.Dyadic

/-!
# Whole numbers as doubles

The doubles are exact on whole numbers below `2 ^ 53`.  Such a number has its
leading one at some place `k`; as a double it has the significand
`n * 2 ^ (52 - k)` and the exponent `k - 52`, and no bit is rounded away.  Whole
numbers beyond that are rounded, but no integer becomes a NaN.
-/

namespace ScriptEngine.Double

open Float.Model Float.Model.UnpackedFloat

variable {sign : Sign} {m n : Nat} {e : Int}

/-! ## Significands that fit -/

theorem shiftToTargetExponent_of_canonical (hlog : m.log2 = 52)
    (he : -1074 ≤ e) :
    shiftToTargetExponent Format.binary64 m e .exact =
      (⟨m, false, false⟩, e) := by
  have htarget :
      Format.binary64.targetExponent (totalExponent m e) = e := by
    simp only [Format.targetExponent, totalExponent, hlog, Format.mantissaBits,
      Format.minExponent]
    omega
  simp only [shiftToTargetExponent, htarget, shiftToExponent, Int.sub_self]
  simp [ExtendedMantissa.ofMantissaAndAccuracy, HShiftRight.hShiftRight,
    Nat.repeat]

/-- A significand of 53 bits is what it is rounded to. -/
theorem roundWithAccuracy_of_canonical (hm : 0 < m) (hlog : m.log2 = 52)
    (he : -1074 ≤ e) :
    roundWithAccuracy Format.binary64 sign m e .exact = .finite sign m e hm := by
  have hshift := shiftToTargetExponent_of_canonical hlog he
  have hround :
      (⟨m, false, false⟩ : ExtendedMantissa).roundedMantissa = m := rfl
  simp only [roundWithAccuracy, hshift, hround]
  rw [dif_neg (by omega)]

/-- Zeros that are shifted out leave no trace. -/
theorem repeat_shiftRightOne_mul_pow (m j : Nat) :
    j.repeat ExtendedMantissa.shiftRightOne ⟨m * 2 ^ j, false, false⟩ =
      ⟨m, false, false⟩ := by
  induction j generalizing m with
  | zero => simp [Nat.repeat]
  | succ j ih =>
      have hsplit : m * 2 ^ (j + 1) = m * 2 * 2 ^ j := by ring
      rw [hsplit, Nat.repeat, ih]
      simp [ExtendedMantissa.shiftRightOne]

theorem log2_mul_two_pow (hm : 0 < m) (j : Nat) :
    (m * 2 ^ j).log2 = m.log2 + j := by
  have hlow := Nat.log2_self_le (n := m) (by omega)
  have hhigh := Nat.lt_log2_self (n := m)
  have hpow := Nat.two_pow_pos j
  rw [Nat.log2_eq_iff (Nat.mul_ne_zero (by omega) (by omega))]
  constructor
  · rw [pow_add]
    exact Nat.mul_le_mul_right _ hlow
  · have hmove : m.log2 + j + 1 = (m.log2 + 1) + j := by omega
    rw [hmove, pow_add]
    exact Nat.mul_lt_mul_of_pos_right hhigh hpow

theorem mul_one_of_canonical (sign : Sign) (hm : 0 < m) (hlog : m.log2 = 52)
    (he : -1022 ≤ e) :
    UnpackedFloat.mul Format.binary64 (.finite sign m e hm)
        (.finite .positive (2 ^ 52) (-52) (by decide)) =
      .finite sign m e hm := by
  have hsign : sign * .positive = sign := by
    cases sign <;> rfl
  have htarget :
      Format.binary64.targetExponent
        (totalExponent (m * 2 ^ 52) (e + -52)) = e := by
    simp only [Format.targetExponent, totalExponent, log2_mul_two_pow hm, hlog,
      Format.mantissaBits, Format.minExponent]
    omega
  have hfirst :
      shiftToTargetExponent Format.binary64 (m * 2 ^ 52) (e + -52) .exact =
        (⟨m, false, false⟩, e) := by
    have hamount : (e - (e + -52)).toNat = 52 := by omega
    have hshifted := repeat_shiftRightOne_mul_pow m 52
    simp only [shiftToTargetExponent, htarget, shiftToExponent, hamount,
      ExtendedMantissa.ofMantissaAndAccuracy, HShiftRight.hShiftRight, hshifted]
    simp
  have hsecond := shiftToTargetExponent_of_canonical hlog (e := e) (by omega)
  have hround :
      (⟨m, false, false⟩ : ExtendedMantissa).roundedMantissa = m := rfl
  simp only [UnpackedFloat.mul, roundWithAccuracy, hsign, hfirst, hround,
    hsecond]
  rw [dif_neg (by omega)]

/-! ## The significand of a whole number -/

theorem log2_le_of_lt (hn : 0 < n) (hlt : n < 2 ^ 53) :
    n.log2 ≤ 52 := by
  have := (Nat.log2_lt (by omega : n ≠ 0)).mpr hlt
  omega

theorem log2_significand (hn : 0 < n) (hlt : n < 2 ^ 53) :
    (n * 2 ^ (52 - n.log2)).log2 = 52 := by
  have := log2_le_of_lt hn hlt
  rw [log2_mul_two_pow hn]
  omega

theorem significand_pos (hn : 0 < n) : 0 < n * 2 ^ (52 - n.log2) :=
  Nat.mul_pos hn (Nat.two_pow_pos _)

theorem unpacked_ofNat (hn : 0 < n) (hlt : n < 2 ^ 53) :
    UnpackedFloat.ofNat Format.binary64 n =
      .finite .positive (n * 2 ^ (52 - n.log2)) (n.log2 - 52)
        (significand_pos hn) := by
  have hlog := log2_le_of_lt hn hlt
  have hgt : compare (n : Int) 0 = .gt := by
    rw [Int.compare_eq_gt]
    omega
  have htarget :
      Format.binary64.targetExponent (totalExponent n 0) = (n.log2 : Int) - 52 := by
    simp only [Format.targetExponent, totalExponent, Format.mantissaBits,
      Format.minExponent]
    omega
  have hshift : ((0 : Int) - ((n.log2 : Int) - 52)).toNat = 52 - n.log2 := by
    omega
  have hdecrease :
      decreaseExponent n 0 ((n.log2 : Int) - 52) =
        (n * 2 ^ (52 - n.log2), (n.log2 : Int) - 52) := by
    simp only [decreaseExponent, hshift, Nat.shiftLeft_eq, Prod.mk.injEq, true_and]
    omega
  simp only [UnpackedFloat.ofNat, UnpackedFloat.ofInt, UnpackedFloat.normalize, hgt,
    UnpackedFloat.round, Int.toNat_natCast, htarget, hdecrease]
  exact roundWithAccuracy_of_canonical _ (log2_significand hn hlt) (by omega)

/-! ## Packing and unpacking -/

theorem pack_of_canonical (hm : 0 < m) (hlog : m.log2 = 52)
    (hlow : -1075 < e) (hhigh : e < 972) :
    UnpackedFloat.pack Format.binary64 (.finite sign m e hm) =
      packComponents Format.binary64 sign
        (BitVec.ofNat 11 (e + 1075).toNat) (BitVec.ofNat 52 m) := by
  have hbias :
      e + (Format.binary64.exponentBias : Int) +
        (Format.binary64.mantissaBitsWithoutImplicit : Int) = e + 1075 := by
    simp only [Format.exponentBias]
    omega
  have hbits : m.log2 + 1 = Format.binary64.mantissaBits := by
    rw [hlog]
    rfl
  simp only [UnpackedFloat.pack, hbias]
  rw [if_neg (by omega), if_pos hbits]

/-- The sign bit is the first of all. -/
theorem toNat_packComponents {biased fraction : Nat} (hbiased : biased < 2 ^ 11)
    (hfraction : fraction < 2 ^ 52) :
    (packComponents Format.binary64 sign (BitVec.ofNat 11 biased)
      (BitVec.ofNat 52 fraction)).toNat =
        sign.toBitVec.toNat * 2 ^ 63 + (biased * 2 ^ 52 + fraction) := by
  have hinner := Nat.two_pow_add_eq_or_of_lt hbiased sign.toBitVec.toNat
  have houter := Nat.two_pow_add_eq_or_of_lt hfraction
    (2 ^ 11 * sign.toBitVec.toNat + biased)
  simp only [packComponents, BitVec.toNat_append, BitVec.toNat_ofNat,
    Nat.shiftLeft_eq]
  rw [Nat.mod_eq_of_lt hfraction, Nat.mod_eq_of_lt hbiased,
    Nat.mul_comm _ (2 ^ 11), ← hinner, Nat.mul_comm _ (2 ^ 52), ← houter]
  omega

theorem unpackSign_packComponents {spec : Format}
    {exponent : BitVec spec.exponentBits}
    {mantissa : BitVec spec.mantissaBitsWithoutImplicit} :
    unpackSign (packComponents spec sign exponent mantissa) =
      sign.toBitVec := by
  ext i hi
  have hzero : i = 0 := by omega
  subst hzero
  simp [unpackSign, packComponents, BitVec.getLsbD_append,
    BitVec.getLsbD_eq_getElem, BitVec.getElem_append]

theorem unpack_pack_of_canonical (hm : 0 < m) (hlog : m.log2 = 52)
    (hlow : -1075 < e) (hhigh : e < 972) :
    UnpackedFloat.unpack Format.binary64
        (UnpackedFloat.pack Format.binary64 (.finite sign m e hm)) =
      .finite sign m e hm := by
  obtain ⟨biased, hbiased⟩ : ∃ biased : Nat, (e + 1075).toNat = biased :=
    ⟨_, rfl⟩
  have hones : BitVec.ofNat 11 biased ≠ (-1#_) := by
    rw [BitVec.neg_one_eq_allOnes, ne_eq, ← BitVec.toNat_inj]
    simp only [BitVec.toNat_ofNat, BitVec.toNat_allOnes]
    omega
  have hzero : BitVec.ofNat 11 biased ≠ 0#_ := by
    rw [ne_eq, ← BitVec.toNat_inj]
    simp only [BitVec.toNat_ofNat]
    omega
  have hmantissa : (1#1 ++ BitVec.ofNat 52 m).toNat = m := by
    have hrange := (Nat.log2_eq_iff (by omega : m ≠ 0)).mp hlog
    have hor := Nat.two_pow_add_eq_or_of_lt
      (Nat.mod_lt m (Nat.two_pow_pos 52)) 1
    have hone : 1 % 2 ^ 1 * 2 ^ 52 = 2 ^ 52 * 1 := rfl
    simp only [BitVec.toNat_append, BitVec.toNat_ofNat, Nat.shiftLeft_eq]
    rw [hone, ← hor]
    omega
  have hexponent : (BitVec.ofNat 11 biased).toNat = biased := by
    rw [BitVec.toNat_ofNat]
    omega
  have hback :
      (biased : Int) - ((Format.binary64.exponentBias : Nat) +
        (Format.binary64.mantissaBitsWithoutImplicit : Nat)) = e := by
    simp only [Format.exponentBias]
    omega
  have hsign : Sign.ofBitVec sign.toBitVec = sign := by
    cases sign <;> rfl
  rw [pack_of_canonical hm hlog hlow hhigh, hbiased]
  simp only [UnpackedFloat.unpack, unpackExponent_packComponents,
    unpackMantissa_packComponents, unpackSign_packComponents, hsign]
  rw [if_neg hones, if_neg hzero]
  simp only [hmantissa, hexponent, hback]

/-! ## Doubles in normal form -/

/-- The double is `± m * 2 ^ e`, with its leading one as the first of 53 bits. -/
structure IsNormal (x : Float) (sign : Sign) (m : Nat) (e : Int) : Prop where
  pos : 0 < m
  log : m.log2 = 52
  low : -1075 < e
  high : e < 972
  model : x.toModel = .pack (.finite sign m e pos)

namespace IsNormal

variable {x : Float}

theorem unpack (h : IsNormal x sign m e) : x.toModel.unpack = .finite sign m e h.pos := by
  rw [h.model]
  exact unpack_pack_of_canonical h.pos h.log h.low h.high

theorem isFinite (h : IsNormal x sign m e) : x.isFinite = true := by
  simp only [Float.isFinite, Float.Model.isFinite, h.unpack, UnpackedFloat.isFinite]

theorem neg (h : IsNormal x sign m e) : IsNormal (-x) (-sign) m e := by
  refine ⟨h.pos, h.log, h.low, h.high, ?_⟩
  change Float.Model.pack x.toModel.unpack.neg = _
  rw [h.unpack]
  rfl

theorem abs (h : IsNormal x sign m e) : IsNormal x.abs .positive m e := by
  refine ⟨h.pos, h.log, h.low, h.high, ?_⟩
  change Float.Model.pack x.toModel.unpack.abs = _
  rw [h.unpack]
  rfl

theorem toNat_toBits (h : IsNormal x sign m e) :
    x.toBits.toNat =
      sign.toBitVec.toNat * 2 ^ 63 + ((e + 1075).toNat * 2 ^ 52 + (m - 2 ^ 52)) := by
  have hlow := h.low
  have hhigh := h.high
  have hpos := h.pos
  have hrange := (Nat.log2_eq_iff (by omega : m ≠ 0)).mp h.log
  have hreduce : BitVec.ofNat 52 m = BitVec.ofNat 52 (m - 2 ^ 52) := by
    rw [← BitVec.toNat_inj]
    simp only [BitVec.toNat_ofNat]
    omega
  simp only [Float.toBits, h.model, Float.Model.pack]
  rw [pack_of_canonical h.pos h.log h.low h.high, hreduce]
  exact toNat_packComponents (by omega) (by omega)

/-- The bits say all. -/
theorem ofBits_toBits (h : IsNormal x sign m e) : Float.ofBits x.toBits = x := by
  have hmodel : (Float.ofBits x.toBits).toModel = x.toModel := by
    change Float.Model.pack x.toModel.unpack = _
    rw [h.unpack, h.model]
  cases x
  exact congrArg Float.ofModel hmodel

theorem ofFloat (h : IsNormal x sign m e) :
    Dyadic.ofFloat x = ⟨sign == .negative, m, e⟩ := by
  have hlow := h.low
  have hhigh := h.high
  have hpos := h.pos
  have hrange := (Nat.log2_eq_iff (by omega : m ≠ 0)).mp h.log
  have hbits := h.toNat_toBits
  have hbiased : ((x.toBits >>> 52) &&& 0x7ff).toNat = (e + 1075).toNat := by
    have hmask : (0x7ff : UInt64).toNat = 2 ^ 11 - 1 := rfl
    rw [UInt64.toNat_and, UInt64.toNat_shiftRight, hmask,
      Nat.and_two_pow_sub_one_eq_mod, hbits, Nat.shiftRight_eq_div_pow]
    simp
    omega
  have hfraction : (x.toBits &&& 0xfffffffffffff).toNat = m - 2 ^ 52 := by
    have hmask : (0xfffffffffffff : UInt64).toNat = 2 ^ 52 - 1 := rfl
    rw [UInt64.toNat_and, hmask, Nat.and_two_pow_sub_one_eq_mod, hbits]
    omega
  have hsign : (x.toBits >>> 63 != 0) = (sign == .negative) := by
    have htop : (x.toBits >>> 63).toNat = sign.toBitVec.toNat := by
      rw [UInt64.toNat_shiftRight, hbits, Nat.shiftRight_eq_div_pow]
      simp
      omega
    rw [bne_eq, Bool.eq_iff_iff]
    simp only [Bool.not_eq_true', beq_eq_false_iff_ne, ne_eq, ← UInt64.toNat_inj, htop]
    cases sign <;> decide
  simp only [Dyadic.ofFloat, hbiased, hfraction, hsign]
  rw [if_neg (by omega)]
  simp
  omega

end IsNormal

/-! ## A whole number as a double -/

/-- The double of a whole number has its leading one first and is exact. -/
theorem isNormal_ofNat (hn : 0 < n) (hlt : n < 2 ^ 53) :
    IsNormal (Float.ofNat n) .positive (n * 2 ^ (52 - n.log2)) (n.log2 - 52) := by
  have hlog := log2_le_of_lt hn hlt
  have hsignificand := log2_significand hn hlt
  refine ⟨significand_pos hn, hsignificand, by omega, by omega, ?_⟩
  have hfast :
      Float.ofNat n =
        n.toUInt64.toFloat * Float.ofBits 0x3FF0000000000000 := by
    simp only [Float.ofNat, OfScientific.ofScientific, Float.ofScientific]
    rw [dif_pos ⟨hlt, by decide⟩]
    simp [Float.exactlyRepresentablePowersOfTen]
  have hone : (Float.ofBits 0x3FF0000000000000).toModel.unpack =
      .finite .positive (2 ^ 52) (-52) (by decide) := rfl
  have hword : n.toUInt64.toNat = n := by
    simp only [Nat.toUInt64, UInt64.toNat_ofNat']
    omega
  have hconverted :
      n.toUInt64.toFloat.toModel.unpack =
        .finite .positive (n * 2 ^ (52 - n.log2)) (n.log2 - 52)
          (significand_pos hn) := by
    simp only [UInt64.toFloat, Float.Model.ofUInt64, UnpackedFloat.ofUInt64,
      hword, unpacked_ofNat hn hlt]
    exact unpack_pack_of_canonical (significand_pos hn) hsignificand (by omega) (by omega)
  have hproduct := mul_one_of_canonical .positive (significand_pos hn)
    hsignificand (e := n.log2 - 52) (by omega)
  rw [hfast]
  calc
    (n.toUInt64.toFloat * Float.ofBits 0x3FF0000000000000).toModel =
        .pack (UnpackedFloat.mul Format.binary64
          n.toUInt64.toFloat.toModel.unpack
          (Float.ofBits 0x3FF0000000000000).toModel.unpack) := rfl
    _ = _ := by
      rw [hone, hconverted, hproduct]

variable {x : Float}

/-- The double is `± n`. -/
abbrev IsWholeNumber (x : Float) (sign : Sign) (n : Nat) : Prop :=
  IsNormal x sign (n * 2 ^ (52 - n.log2)) (n.log2 - 52)

namespace IsNormal

theorem isWhole (h : IsWholeNumber x sign n) :
    Double.isWhole x = true := by
  simp [Double.isWhole, h.isFinite, h.ofFloat, Dyadic.isWhole, Dyadic.places]

/-- Reading the whole part of a whole number back gives the number. -/
theorem truncate (hn : 0 < n) (hlt : n < 2 ^ 53) (h : IsWholeNumber x sign n) :
    (Dyadic.ofFloat x).truncate = sign.apply n := by
  have hlog := log2_le_of_lt hn hlt
  have hexponent : ((n.log2 : Int) - 52).toNat = 0 := by omega
  rw [h.ofFloat]
  cases sign <;>
    simp [Dyadic.truncate, Dyadic.wholePart, Dyadic.places, hexponent, Sign.apply]

end IsNormal

/-! ## What is not a NaN -/

theorem isNaN_unpack_packComponents {exponent : BitVec 11} {mantissa : BitVec 52}
    (hexponent : exponent ≠ -1#_) :
    (UnpackedFloat.unpack Format.binary64
      (packComponents Format.binary64 sign exponent mantissa)).isNaN = false := by
  simp only [UnpackedFloat.unpack, unpackExponent_packComponents,
    unpackMantissa_packComponents]
  rw [if_neg hexponent]
  repeat' split
  all_goals rfl

/-- Packing makes no NaN. -/
theorem isNaN_unpack_pack {f : UnpackedFloat} (hf : f.isNaN = false) :
    (UnpackedFloat.unpack Format.binary64
      (UnpackedFloat.pack Format.binary64 f)).isNaN = false := by
  cases f with
  | notANumber => cases hf
  | infinity s => cases s <;> rfl
  | zero s => cases s <;> rfl
  | finite s m e hm =>
      simp only [UnpackedFloat.pack]
      split
      · cases s <;> rfl
      · next hsmall =>
          have hexponent : BitVec.ofNat 11 (e + (Format.binary64.exponentBias : Int) +
              (Format.binary64.mantissaBitsWithoutImplicit : Int)).toNat ≠ (-1#_) := by
            rw [BitVec.neg_one_eq_allOnes, ne_eq, ← BitVec.toNat_inj]
            simp only [BitVec.toNat_ofNat, BitVec.toNat_allOnes]
            omega
          split
          · exact isNaN_unpack_packComponents hexponent
          · exact isNaN_unpack_packComponents (by decide)

theorem isNaN_roundWithAccuracy (spec : Format) (sign : Sign) (m : Nat) (e : Int)
    (accuracy : Accuracy) :
    (roundWithAccuracy spec sign m e accuracy).isNaN = false := by
  simp only [roundWithAccuracy]
  split <;> rfl

theorem isNaN_ofScientific (n : Nat) :
    (UnpackedFloat.ofScientific Format.binary64 n 0).isNaN = false := by
  unfold UnpackedFloat.ofScientific
  split
  · rfl
  · have hwidth : (0 : Int) < 2 ^ Format.binary64.exponentBits := by decide
    rw [if_neg (by omega), if_neg (by omega), if_pos (le_refl 0)]
    simp only [UnpackedFloat.mul]
    exact isNaN_roundWithAccuracy _ _ _ _ _

/-- A large number may come out infinite, but it is a number. -/
theorem isNaN_ofNat (n : Nat) : (Float.ofNat n).isNaN = false := by
  by_cases hzero : n = 0
  · subst hzero
    decide
  · by_cases hlt : n < 2 ^ 53
    · simp only [Float.isNaN, Float.Model.isNaN,
        (isNormal_ofNat (by omega) hlt).unpack, UnpackedFloat.isNaN]
    · have hslow : Float.ofNat n =
          .ofModel (.pack (UnpackedFloat.ofScientific Format.binary64 n 0)) := by
        simp only [Float.ofNat, OfScientific.ofScientific, Float.ofScientific]
        rw [dif_neg (by omega)]
        rfl
      rw [hslow]
      exact isNaN_unpack_pack (isNaN_ofScientific n)

theorem isNaN_neg (hx : x.isNaN = false) : (-x).isNaN = false := by
  apply isNaN_unpack_pack
  have hunpacked : x.toModel.unpack.isNaN = false := hx
  generalize x.toModel.unpack = f at hunpacked
  cases f with
  | notANumber => cases hunpacked
  | _ => rfl

theorem isNaN_ofInt (i : Int) : (Float.ofInt i).isNaN = false := by
  cases i with
  | ofNat n => exact isNaN_ofNat n
  | negSucc n => exact isNaN_neg (isNaN_ofNat (n + 1))

end ScriptEngine.Double
