import ScriptEngine.Proofs.Number.Exactness
import ScriptEngine.Proofs.Number.Grammar
import ScriptEngine.Value.Basic

/-!
# Numbers read back from their texts

A decimal has two layouts, positional and with an exponent.  The reader finds the digits of
either again, up to zeros at the ends, and so the double of the decimal.  With the digits of
whole numbers this covers every way in which a finite number is written, and each is read
back bit for bit.
-/

namespace ScriptEngine

namespace Numeral

variable {digits text : List Char} {negative : Bool} {x : Float}

/-! ## Digits -/

theorem digitsValue_eq_ofDigitChars (digits : List Char) :
    digitsValue digits = Nat.ofDigitChars 10 digits 0 := by
  simp [digitsValue, Nat.ofDigitChars_eq_foldl, Nat.mul_comm]

@[simp] theorem digitsValue_toDigits (n : Nat) : digitsValue (Nat.toDigits 10 n) = n := by
  rw [digitsValue_eq_ofDigitChars, Nat.ofDigitChars_ten_toDigits]

theorem digitsValue_append_zeros (digits : List Char) (k : Nat) :
    digitsValue (digits ++ List.replicate k '0') = digitsValue digits * 10 ^ k := by
  rw [digitsValue_eq_ofDigitChars, digitsValue_eq_ofDigitChars, Nat.ofDigitChars_append,
    Nat.ofDigitChars_replicate_zero, Nat.mul_comm]

theorem digitsValue_zeros_append (k : Nat) (digits : List Char) :
    digitsValue (List.replicate k '0' ++ digits) = digitsValue digits := by
  rw [digitsValue_eq_ofDigitChars, digitsValue_eq_ofDigitChars, Nat.ofDigitChars_append,
    Nat.ofDigitChars_replicate_zero, Nat.mul_zero]

theorem isRun_toDigits (n : Nat) : IsRun Char.isDigit (Nat.toDigits 10 n) := by
  refine ⟨Nat.toDigits_ne_nil, fun _ hc => ?_⟩
  exact Nat.isDigit_of_mem_toDigits (by decide) (by decide) hc

theorem isDigit_zeros (k : Nat) : ∀ c ∈ List.replicate k '0', c.isDigit = true := by
  intro c hc
  rw [List.eq_of_mem_replicate hc]
  rfl

theorem isDigit_append {front back : List Char} (hfront : ∀ c ∈ front, c.isDigit = true)
    (hback : ∀ c ∈ back, c.isDigit = true) : ∀ c ∈ front ++ back, c.isDigit = true := by
  intro c hc
  exact (List.mem_append.mp hc).elim (hfront c) (hback c)

/-- An exponent is read back from its digits and the mark that goes with its sign. -/
theorem readExponent?_written (exponent : Int) :
    readExponent? ((if exponent < 0 then "e-" else "e+").toList ++
      (toString exponent.natAbs).toList) = some exponent := by
  have hdigits := isRun_toDigits exponent.natAbs
  have hall : (Nat.toDigits 10 exponent.natAbs).all Char.isDigit = true :=
    List.all_eq_true.mpr hdigits.2
  have htext : (toString exponent.natAbs).toList = Nat.toDigits 10 exponent.natAbs := by simp
  rw [htext]
  by_cases hnegative : exponent < 0
  · simp [hnegative, readExponent?, splitSign, hdigits.1, hall, abs_of_neg hnegative]
  · simp [hnegative, readExponent?, splitSign, hdigits.1, hall, not_lt.mp hnegative]

/-! ## Texts of magnitudes -/

/-- The text is a decimal numeral, and the double nearest to it is `x`. -/
def Spells (text : List Char) (x : Float) : Prop :=
  (readDecimal? text).map Decimal.toFloat = some x

theorem spells_digits (hdigits : IsRun Char.isDigit digits) :
    Spells digits (⟨digitsValue digits, 0⟩ : Decimal).toFloat := by
  have hstop : ∀ c ∈ ([] : List Char).head?, c.isDigit = false ∧ c ≠ '.' := by simp
  have hread := readDecimal?_whole hdigits.2 hstop
  rw [List.append_nil, if_neg (by simpa using hdigits.1)] at hread
  rw [Spells, hread]
  rfl

theorem spells_pointed {whole fraction : List Char} (hwhole : IsRun Char.isDigit whole)
    (hfraction : ∀ c ∈ fraction, c.isDigit = true) :
    Spells (whole ++ '.' :: fraction)
      (⟨digitsValue (whole ++ fraction), -(fraction.length : Int)⟩ : Decimal).toFloat := by
  have hstop : ∀ c ∈ ([] : List Char).head?, c.isDigit = false := by simp
  have hread := readDecimal?_pointed hwhole.2 hfraction hstop
  have hsome : (whole.isEmpty && fraction.isEmpty) = false := by
    simp [List.isEmpty_eq_false_iff.mpr hwhole.1]
  rw [List.append_nil, hsome] at hread
  rw [Spells, hread]
  simp [readExponent?]

theorem Spells.isDecimal (h : Spells text x) : IsDecimal text := by
  apply isSome_readDecimal?.mp
  rw [← Option.isSome_map, h]
  rfl

theorem Spells.readMagnitude? (h : Spells text x) : readMagnitude? text = some x := by
  have hchars := h.isDecimal.isDecimalChar
  unfold Numeral.readMagnitude?
  split
  · cases hchars 'x' (by simp)
  · cases hchars 'X' (by simp)
  · rw [readPlain?_of_isDecimal h.isDecimal, h]

/-- A text with its sign is read as the magnitude with that sign. -/
theorem Spells.read?_withSign {s : String} (h : Spells s.toList x) :
    read? (withSign negative s) = some (if negative then -x else x) := by
  have hblank : ∀ c ∈ s.toList, Blank.isBlank c = false := fun c hc =>
    not_isBlank_of_isDecimalChar (h.isDecimal.isDecimalChar c hc)
  have hsplit : splitSign (Blank.trim (withSign negative s).toList) = (negative, s.toList) := by
    cases negative with
    | false =>
      rw [withSign, if_neg (by simp), Blank.trim_eq_self hblank]
      exact splitSign_of_not_isSignChar (IsMagnitude.decimal h.isDecimal).not_isSignChar
    | true =>
      have htext : (withSign true s).toList = '-' :: s.toList := by simp [withSign]
      rw [htext, Blank.trim_eq_self]
      · rfl
      · rw [List.forall_mem_cons]
        exact ⟨rfl, hblank⟩
  rw [read?, readChars?, hsplit]
  simp only [h.readMagnitude?, Option.map_some]

end Numeral

/-! ## Layouts of decimals -/

namespace Decimal

open Numeral

variable {d : Decimal}

theorem isRun_digitText (hd : d.digits ≠ 0) : IsRun Char.isDigit d.digitText := by
  rw [digitText, if_neg hd]
  exact isRun_toDigits d.digits

theorem digitsValue_digitText (hd : d.digits ≠ 0) : digitsValue d.digitText = d.digits := by
  rw [digitText, if_neg hd, digitsValue_toDigits]

theorem toFloat_of_digits_eq_zero (hd : d.digits = 0) (exponent : Int) :
    (⟨0, exponent⟩ : Decimal).toFloat = d.toFloat := by
  rw [toFloat, toFloat, hd, Double.ofDecimal_zero, Double.ofDecimal_zero]

theorem spells_positional (d : Decimal) : Spells d.positional.toList d.toFloat := by
  by_cases hd : d.digits = 0
  · rw [positional, if_pos hd, ← toFloat_of_digits_eq_zero hd 0]
    exact spells_digits (isRun_toDigits 0)
  have htext := isRun_digitText hd
  have hvalue := digitsValue_digitText hd
  simp only [positional, if_neg hd]
  split
  · -- Zeros take the place of the exponent.
    next hexponent =>
    have hrun : IsRun Char.isDigit (d.digitText ++ List.replicate d.exponent.toNat '0') :=
      ⟨by simp [htext.1], isDigit_append htext.2 (isDigit_zeros _)⟩
    have hplaces : (0 : Int) + d.exponent.toNat = d.exponent := by omega
    have hspells := spells_digits hrun
    rw [digitsValue_append_zeros, hvalue, toFloat_mul_pow, hplaces] at hspells
    simpa using hspells
  · next hexponent =>
    have hplaces : -((-d.exponent).toNat : Int) = d.exponent := by omega
    split
    · -- The point stands between two digits.
      next hlong =>
      have hwhole : IsRun Char.isDigit
          (d.digitText.take (d.digitText.length - (-d.exponent).toNat)) := by
        refine ⟨?_, fun c hc => htext.2 c (List.mem_of_mem_take hc)⟩
        rw [ne_eq, List.take_eq_nil_iff, not_or]
        exact ⟨by omega, htext.1⟩
      have hfraction : ∀ c ∈ d.digitText.drop (d.digitText.length - (-d.exponent).toNat),
          c.isDigit = true := fun c hc => htext.2 c (List.mem_of_mem_drop hc)
      have hspells := spells_pointed hwhole hfraction
      have hlength : d.digitText.length - (d.digitText.length - (-d.exponent).toNat) =
          (-d.exponent).toNat := by omega
      rw [List.take_append_drop, hvalue, List.length_drop, hlength, hplaces] at hspells
      simpa using hspells
    · -- Zeros stand between the point and the digits.
      next hshort =>
      have hzero : IsRun Char.isDigit ['0'] := ⟨by simp, by simp⟩
      have hspells := spells_pointed hzero
        (isDigit_append (isDigit_zeros ((-d.exponent).toNat - d.digitText.length)) htext.2)
      have hfront : digitsValue (['0'] ++ (List.replicate
          ((-d.exponent).toNat - d.digitText.length) '0' ++ d.digitText)) = d.digits := by
        rw [← List.append_assoc, List.singleton_append, ← List.replicate_succ,
          digitsValue_zeros_append, hvalue]
      have hlength : (-d.exponent).toNat - d.digitText.length + d.digitText.length =
          (-d.exponent).toNat := by omega
      rw [hfront, List.length_append, List.length_replicate, hlength, hplaces] at hspells
      simpa using hspells

theorem spells_scientific (d : Decimal) : Spells d.scientific.toList d.toFloat := by
  unfold scientific
  split
  · next hnone =>
    have hd : d.digits = 0 := by
      by_contra hd
      exact (isRun_digitText hd).1 hnone
    rw [← toFloat_of_digits_eq_zero hd 0]
    rfl
  · next first rest htext =>
    have hd : d.digits ≠ 0 := by
      intro hd
      rw [digitText, if_pos hd] at htext
      cases htext
    have hrun := isRun_digitText hd
    have hvalue : digitsValue ([first] ++ rest) = d.digits := by
      rw [List.singleton_append, ← htext, digitsValue_digitText hd]
    rw [htext] at hrun
    have hfirst : ∀ c ∈ [first], c.isDigit = true := by
      simpa using hrun.2 first (by simp)
    have hrest : ∀ c ∈ rest, c.isDigit = true := fun c hc => hrun.2 c (by simp [hc])
    let exponent : Int := d.exponent + Int.ofNat rest.length
    let written := (if exponent < 0 then "e-" else "e+").toList ++
      (toString exponent.natAbs).toList
    have hread : readExponent? written = some exponent := readExponent?_written exponent
    have hstop : ∀ c ∈ written.head?, c.isDigit = false ∧ c ≠ '.' :=
      (isSome_readExponent?.mp (Option.isSome_of_eq_some hread)).stop
    cases rest with
    | nil =>
      have hwhole := readDecimal?_whole hfirst hstop
      have hexponent : exponent = d.exponent := by simp [exponent]
      rw [List.append_nil] at hvalue
      rw [hread, hvalue, hexponent] at hwhole
      have hspells : Spells ([first] ++ written) d.toFloat := by
        rw [Spells, hwhole]
        rfl
      simpa [written, exponent, String.toList_append] using hspells
    | cons second rest =>
      have hpointed := readDecimal?_pointed hfirst hrest fun c hc => (hstop c hc).1
      have hexponent : exponent - Int.ofNat (second :: rest).length = d.exponent := by
        simp [exponent]
      rw [hread, hvalue, Option.map_some, hexponent] at hpointed
      have hspells : Spells ([first] ++ '.' :: (second :: rest ++ written)) d.toFloat := by
        rw [Spells, hpointed]
        rfl
      simpa [written, exponent, String.toList_append] using hspells

end Decimal

/-! ## Numbers -/

namespace Numeral

open Double

variable {x y : Float}

/-- Every finite number is read back from its text. -/
theorem read?_render (hx : x.isFinite = true) : read? (render x) = some x := by
  obtain ⟨sign, bits, hbits⟩ := exists_hasBits hx
  obtain ⟨s, e, hparts, hfits, hplace⟩ := hbits.ofFloat
  have hmagnitude := hbits.abs
  have hdouble : Float.ofBits (UInt64.ofNat (bitsOf s e)) = x.abs := by
    rw [← hplace]
    exact (hasBits_ofBits hbits.finite).eq hmagnitude
  have hshortest := Decimal.toFloat_shortest hmagnitude
  have hfinal : some (if (sign == .negative) = true then -x.abs else x.abs) = some x :=
    congrArg some (hbits.withSign hmagnitude)
  simp only [render, hbits.isNaN, hx, hbits.isNegative, hparts]
  simp only [Bool.not_true, Bool.false_eq_true, if_false]
  rw [← hfinal]
  apply Spells.read?_withSign
  split
  · next hwhole =>
    split
    · rw [← hdouble, ← Decimal.toFloat_wholePart hfits hwhole]
      have hspells := spells_digits (isRun_toDigits (Dyadic.wholePart ⟨sign == .negative, s, e⟩))
      rw [digitsValue_toDigits] at hspells
      simpa using hspells
    · have hspells := Decimal.spells_scientific (Decimal.shortest x.abs)
      rwa [hshortest] at hspells
  · have hspells := Decimal.spells_positional (Decimal.shortest x.abs)
    rwa [hshortest] at hspells

/-- Finite numbers come back from their texts bit for bit: the text of a number is a numeral of
just that number, a number that was made a text counts as the same number as before, and no
other finite number has the same text. -/
theorem text_roundTrips (x : Float) (hx : x.isFinite = true) :
    (read? (render x)).map Float.toBits = some x.toBits ∧
      ((Value.number x).toText?.bind fun text => (Value.string text).toNumber?) = some x ∧
      ∀ y : Float, y.isFinite = true → render y = render x → y.toBits = x.toBits := by
  have hread := read?_render hx
  refine ⟨by rw [hread]; rfl, hread, fun y hy htext => ?_⟩
  have hsame := read?_render hy
  rw [htext, hread] at hsame
  rw [Option.some.inj hsame]

/-- The smallest of all positive numbers, with its 324 places. -/
theorem text_roundTrips_smallest :
    (Float.ofBits 1).isFinite = true ∧
      (read? (render (Float.ofBits 1))).map Float.toBits = some 1 := by
  have hfinite : (Float.ofBits 1).isFinite = true := by decide +kernel
  have hbits : (Float.ofBits 1).toBits = 1 := by decide +kernel
  have hread := (text_roundTrips (Float.ofBits 1) hfinite).1
  rw [hbits] at hread
  exact ⟨hfinite, hread⟩

end Numeral

end ScriptEngine
