import ScriptEngine.Number.Rounding
import ScriptEngine.Proofs.Number.WholeNumbers

/-!
# The bits of a finite double

The bits of a finite double are its sign and, behind it, exponent and fraction as one
number, the bits of the magnitude.  Negation and taking the magnitude only touch the sign;
so a double is put together again from its magnitude and its sign.
-/

namespace ScriptEngine.Double

open Float.Model Float.Model.UnpackedFloat

variable {sign : Sign} {bits : Nat} {x y : Float}

/-! ## Packing and unpacking -/

section Packed

variable {exponent : BitVec 11} {fraction : BitVec 52}

theorem ofBitVec_toBitVec (sign : Sign) : Sign.ofBitVec sign.toBitVec = sign := by
  cases sign <;> rfl

/-- The significand of a normal number has a one before its fraction. -/
theorem toNat_leading (fraction : BitVec 52) :
    (1#1 ++ fraction).toNat = 2 ^ 52 + fraction.toNat := by
  have hor := Nat.two_pow_add_eq_or_of_lt fraction.isLt 1
  rw [BitVec.toNat_append, Nat.shiftLeft_eq]
  change 2 ^ 52 * 1 ||| _ = _
  rw [← hor, Nat.mul_one]

theorem toNat_leading_pos (fraction : BitVec 52) : 0 < (1#1 ++ fraction).toNat := by
  rw [toNat_leading]
  omega

theorem toNat_fraction_pos (h : fraction ≠ 0#_) : 0 < fraction.toNat := by
  rw [ne_eq, ← BitVec.toNat_inj] at h
  exact Nat.pos_of_ne_zero h

/-- What the parts of a finite double are unpacked to. -/
theorem unpack_packComponents (hexponent : exponent ≠ -1#_) :
    UnpackedFloat.unpack Format.binary64 (packComponents Format.binary64 sign exponent fraction) =
      if exponent = 0#_ then
        if h : fraction = 0#_ then .zero sign
        else .finite sign fraction.toNat (-1074) (toNat_fraction_pos h)
      else .finite sign (1#1 ++ fraction).toNat ((exponent.toNat : Int) - 1075)
        (toNat_leading_pos fraction) := by
  simp only [UnpackedFloat.unpack, unpackExponent_packComponents, unpackMantissa_packComponents,
    unpackSign_packComponents, ofBitVec_toBitVec]
  rw [if_neg hexponent]
  by_cases hzero : exponent = 0#_
  · subst hzero
    rfl
  · rw [if_neg hzero, if_neg hzero]
    rfl

theorem neg_unpack (hexponent : exponent ≠ -1#_) :
    (UnpackedFloat.unpack Format.binary64
        (packComponents Format.binary64 sign exponent fraction)).neg =
      UnpackedFloat.unpack Format.binary64
        (packComponents Format.binary64 (-sign) exponent fraction) := by
  rw [unpack_packComponents hexponent, unpack_packComponents hexponent]
  split
  · split <;> rfl
  · rfl

theorem abs_unpack (hexponent : exponent ≠ -1#_) :
    (UnpackedFloat.unpack Format.binary64
        (packComponents Format.binary64 sign exponent fraction)).abs =
      UnpackedFloat.unpack Format.binary64
        (packComponents Format.binary64 .positive exponent fraction) := by
  rw [unpack_packComponents hexponent, unpack_packComponents hexponent]
  split
  · split <;> rfl
  · rfl

theorem pack_of_subnormal {m : Nat} (hm : 0 < m) (hlt : m < 2 ^ 52) :
    UnpackedFloat.pack Format.binary64 (.finite sign m (-1074) hm) =
      packComponents Format.binary64 sign 0#_ (BitVec.ofNat 52 m) := by
  have hlog : m.log2 < 52 := (Nat.log2_lt (by omega)).mpr hlt
  have hbias : (-1074 : Int) + (Format.binary64.exponentBias : Int) +
      (Format.binary64.mantissaBitsWithoutImplicit : Int) = 1 := rfl
  have hbits : m.log2 + 1 ≠ Format.binary64.mantissaBits := by
    have hwidth : Format.binary64.mantissaBits = 53 := rfl
    omega
  simp only [UnpackedFloat.pack, hbias]
  rw [if_neg (by decide), if_neg hbits]

theorem pack_unpack (hexponent : exponent ≠ -1#_) :
    UnpackedFloat.pack Format.binary64
        (UnpackedFloat.unpack Format.binary64
          (packComponents Format.binary64 sign exponent fraction)) =
      packComponents Format.binary64 sign exponent fraction := by
  rw [unpack_packComponents hexponent]
  split
  · next hzero =>
    subst hzero
    split
    · next hfraction =>
      subst hfraction
      rfl
    · rw [pack_of_subnormal _ fraction.isLt, BitVec.ofNat_toNat, BitVec.setWidth_eq]
  · next hzero =>
    have hlast : exponent.toNat ≠ 2 ^ 11 - 1 := by
      rwa [ne_eq, ← BitVec.toNat_inj, BitVec.neg_one_eq_allOnes, BitVec.toNat_allOnes]
        at hexponent
    have hfirst : exponent.toNat ≠ 0 := by
      rwa [← BitVec.toNat_inj] at hzero
    have hsignificand := toNat_leading fraction
    have hlt := fraction.isLt
    have hlog : (1#1 ++ fraction).toNat.log2 = 52 :=
      (Nat.log2_eq_iff (by omega)).mpr ⟨by omega, by omega⟩
    have hexponent' : BitVec.ofNat 11 ((exponent.toNat : Int) - 1075 + 1075).toNat = exponent := by
      rw [Int.sub_add_cancel, Int.toNat_natCast, BitVec.ofNat_toNat, BitVec.setWidth_eq]
    have hfraction : BitVec.ofNat 52 (1#1 ++ fraction).toNat = fraction := by
      rw [← BitVec.toNat_inj, BitVec.toNat_ofNat, hsignificand]
      omega
    rw [pack_of_canonical _ hlog (by omega) (by omega), hexponent', hfraction]

end Packed

/-! ## Sign and magnitude -/

/-- The bits of the finite double are its sign and the bits of its magnitude. -/
structure HasBits (x : Float) (sign : Sign) (bits : Nat) : Prop where
  finite : bits < infinityBits
  toNat_toBits : x.toBits.toNat = sign.toBitVec.toNat * 2 ^ 63 + bits

theorem eq_of_toBits (h : x.toBits = y.toBits) : x = y := by
  obtain ⟨⟨bits, hvalid⟩⟩ := x
  obtain ⟨⟨bits', hvalid'⟩⟩ := y
  cases (h : bits = bits')
  rfl

theorem div_lt_of_finite (h : bits < infinityBits) : bits / 2 ^ 52 < 2047 := by
  have hlast : infinityBits = 2047 * 2 ^ 52 := rfl
  omega

theorem exponent_ne_of_finite (h : bits < infinityBits) :
    BitVec.ofNat 11 (bits / 2 ^ 52) ≠ -1#_ := by
  have hlt := div_lt_of_finite h
  rw [ne_eq, ← BitVec.toNat_inj, BitVec.neg_one_eq_allOnes, BitVec.toNat_allOnes,
    BitVec.toNat_ofNat]
  omega

/-- The parts side by side, as a number. -/
theorem toNat_joined (sign : Sign) (h : bits < infinityBits) :
    (packComponents Format.binary64 sign (BitVec.ofNat 11 (bits / 2 ^ 52))
      (BitVec.ofNat 52 (bits % 2 ^ 52))).toNat = sign.toBitVec.toNat * 2 ^ 63 + bits := by
  have hlt := div_lt_of_finite h
  rw [toNat_packComponents (by omega) (Nat.mod_lt _ (by decide))]
  omega

namespace HasBits

theorem toBitVec_eq (h : HasBits x sign bits) :
    x.toBits.toBitVec = packComponents Format.binary64 sign
      (BitVec.ofNat 11 (bits / 2 ^ 52)) (BitVec.ofNat 52 (bits % 2 ^ 52)) := by
  rw [← BitVec.toNat_inj]
  exact h.toNat_toBits.trans (toNat_joined sign h.finite).symm

theorem of_toBitVec (hfinite : bits < infinityBits)
    (h : x.toBits.toBitVec = packComponents Format.binary64 sign
      (BitVec.ofNat 11 (bits / 2 ^ 52)) (BitVec.ofNat 52 (bits % 2 ^ 52))) :
    HasBits x sign bits :=
  ⟨hfinite, (congrArg BitVec.toNat h).trans (toNat_joined sign hfinite)⟩

theorem eq (hx : HasBits x sign bits) (hy : HasBits y sign bits) : x = y := by
  apply eq_of_toBits
  rw [← UInt64.toNat_inj, hx.toNat_toBits, hy.toNat_toBits]

theorem neg (h : HasBits x sign bits) : HasBits (-x) (-sign) bits := by
  apply of_toBitVec h.finite
  change UnpackedFloat.pack Format.binary64
    (UnpackedFloat.unpack Format.binary64 x.toBits.toBitVec).neg = _
  have hexponent := exponent_ne_of_finite h.finite
  rw [h.toBitVec_eq, neg_unpack hexponent, pack_unpack hexponent]

theorem abs (h : HasBits x sign bits) : HasBits x.abs .positive bits := by
  apply of_toBitVec h.finite
  change UnpackedFloat.pack Format.binary64
    (UnpackedFloat.unpack Format.binary64 x.toBits.toBitVec).abs = _
  have hexponent := exponent_ne_of_finite h.finite
  rw [h.toBitVec_eq, abs_unpack hexponent, pack_unpack hexponent]

theorem isNaN (h : HasBits x sign bits) : x.isNaN = false := by
  change (UnpackedFloat.unpack Format.binary64 x.toBits.toBitVec).isNaN = false
  rw [h.toBitVec_eq, unpack_packComponents (exponent_ne_of_finite h.finite)]
  split
  · split <;> rfl
  · rfl

theorem isNegative (h : HasBits x sign bits) : isNegative x = (sign == .negative) := by
  have hlast : infinityBits = 2047 * 2 ^ 52 := rfl
  have hfinite := h.finite
  have htop : (x.toBits >>> 63).toNat = sign.toBitVec.toNat := by
    rw [UInt64.toNat_shiftRight, h.toNat_toBits, Nat.shiftRight_eq_div_pow]
    simp
    omega
  rw [Double.isNegative, bne_eq, Bool.eq_iff_iff]
  simp only [Bool.not_eq_true', beq_eq_false_iff_ne, ne_eq, ← UInt64.toNat_inj, htop]
  cases sign <;> decide

/-- The number is its magnitude with its sign. -/
theorem withSign (h : HasBits x sign bits) (hy : HasBits y .positive bits) :
    (if sign == .negative then -y else y) = x := by
  cases sign with
  | negative => exact hy.neg.eq h
  | positive => exact hy.eq h

end HasBits

theorem exists_hasBits (h : x.isFinite = true) : ∃ sign bits, HasBits x sign bits := by
  obtain ⟨sign, bits, hlt, hbits⟩ : ∃ (sign : Sign) (bits : Nat), bits < 2 ^ 63 ∧
      x.toBits.toNat = sign.toBitVec.toNat * 2 ^ 63 + bits := by
    have hword := x.toBits.toNat_lt
    have hone : Sign.negative.toBitVec.toNat = 1 := rfl
    have hzero : Sign.positive.toBitVec.toNat = 0 := rfl
    by_cases hsign : x.toBits.toNat < 2 ^ 63
    · exact ⟨.positive, x.toBits.toNat, hsign, by omega⟩
    · exact ⟨.negative, x.toBits.toNat - 2 ^ 63, by omega, by omega⟩
  refine ⟨sign, bits, ?_, hbits⟩
  by_contra hlarge
  have hlast : infinityBits = 2047 * 2 ^ 52 := rfl
  have hexponent : bits / 2 ^ 52 = 2047 := by omega
  have hparts : x.toBits.toBitVec = packComponents Format.binary64 sign
      (BitVec.ofNat 11 2047) (BitVec.ofNat 52 (bits % 2 ^ 52)) := by
    rw [← BitVec.toNat_inj, toNat_packComponents (by decide) (Nat.mod_lt _ (by decide))]
    change x.toBits.toNat = _
    omega
  have hfinite : (UnpackedFloat.unpack Format.binary64 x.toBits.toBitVec).isFinite = true := h
  rw [hparts] at hfinite
  simp only [UnpackedFloat.unpack, unpackExponent_packComponents,
    unpackMantissa_packComponents] at hfinite
  rw [if_pos (by decide)] at hfinite
  split at hfinite <;> cases hfinite

/-- The double that has given bits. -/
theorem hasBits_ofBits (h : bits < infinityBits) :
    HasBits (Float.ofBits (UInt64.ofNat bits)) .positive bits := by
  have hlast : infinityBits = 2047 * 2 ^ 52 := rfl
  have hparts : (UInt64.ofNat bits).toBitVec = packComponents Format.binary64 .positive
      (BitVec.ofNat 11 (bits / 2 ^ 52)) (BitVec.ofNat 52 (bits % 2 ^ 52)) := by
    rw [← BitVec.toNat_inj, toNat_joined _ h]
    change (UInt64.ofNat bits).toNat = 0 * 2 ^ 63 + bits
    rw [UInt64.toNat_ofNat']
    omega
  apply HasBits.of_toBitVec h
  change UnpackedFloat.pack Format.binary64
    (UnpackedFloat.unpack Format.binary64 (UInt64.ofNat bits).toBitVec) = _
  rw [hparts, pack_unpack (exponent_ne_of_finite h)]

/-! ## Significand and exponent -/

/-- The number `significand * 2 ^ exponent` has a place among the magnitudes of doubles: it has
53 bits, or fewer at the smallest exponent. -/
structure Fits (significand : Nat) (exponent : Int) : Prop where
  width : significand < 2 ^ 53
  low : Dyadic.minExponent ≤ exponent
  high : exponent ≤ 971
  leading : 2 ^ 52 ≤ significand ∨ exponent = Dyadic.minExponent

/-- The bits of such a magnitude.  A significand of 53 bits adds one to the exponent. -/
def bitsOf (significand : Nat) (exponent : Int) : Nat :=
  (exponent - Dyadic.minExponent).toNat * 2 ^ 52 + significand

theorem HasBits.ofFloat (h : HasBits x sign bits) :
    ∃ significand exponent, Dyadic.ofFloat x = ⟨sign == .negative, significand, exponent⟩ ∧
      Fits significand exponent ∧ bits = bitsOf significand exponent := by
  have hlt := div_lt_of_finite h.finite
  have hbits := h.toNat_toBits
  have hbiased : ((x.toBits >>> 52) &&& 0x7ff).toNat = bits / 2 ^ 52 := by
    have hmask : (0x7ff : UInt64).toNat = 2 ^ 11 - 1 := rfl
    rw [UInt64.toNat_and, UInt64.toNat_shiftRight, hmask,
      Nat.and_two_pow_sub_one_eq_mod, hbits, Nat.shiftRight_eq_div_pow]
    simp
    omega
  have hfraction : (x.toBits &&& 0xfffffffffffff).toNat = bits % 2 ^ 52 := by
    have hmask : (0xfffffffffffff : UInt64).toNat = 2 ^ 52 - 1 := rfl
    rw [UInt64.toNat_and, hmask, Nat.and_two_pow_sub_one_eq_mod, hbits]
    omega
  have hnegative : (x.toBits >>> 63 != 0) = (sign == .negative) := h.isNegative
  have hmin : Dyadic.minExponent = -1074 := rfl
  simp only [Dyadic.ofFloat, hbiased, hfraction, hnegative]
  split
  · next hzero =>
    refine ⟨_, _, rfl, ⟨by omega, by omega, by omega, .inr rfl⟩, ?_⟩
    rw [bitsOf, sub_self]
    omega
  · next hnormal =>
    refine ⟨_, _, rfl, ⟨?_, ?_, ?_, .inl ?_⟩, ?_⟩ <;>
      simp only [bitsOf, hmin, Nat.pow_eq, Int.ofNat_eq_natCast] <;>
      omega

end ScriptEngine.Double
