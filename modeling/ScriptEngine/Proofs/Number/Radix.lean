import ScriptEngine.Library.Texts
import ScriptEngine.Proofs.Interchange.Integers
import ScriptEngine.Proofs.Number.Grammar

/-!
# Numerals of a base

With a base the library's function reads whole numbers only: digits of the base that write
an integer of 64 bits, and a minus sign or none before them.  It takes a minus off the text
and leaves what follows to a reader that knows signs too.  So a second minus is read as
well, and the two cancel; a plus is looked for and refused, wherever it stands.
-/

namespace ScriptEngine

namespace Numeral

variable {base n : Nat} {digits text : List Char} {i : Int} {x : Float}

/-! ## Digits -/

/-- The character is the digit of that value; from ten on the digits are letters, of either
case. -/
def IsDigit (base : Nat) (c : Char) (d : Nat) : Prop :=
  d < base ∧
    (d < 10 ∧ c.toNat = '0'.toNat + d ∨
      10 ≤ d ∧ d < 36 ∧ (c.toNat + 10 = 'a'.toNat + d ∨ c.toNat + 10 = 'A'.toNat + d))

theorem digitIn?_eq_some_iff {c : Char} {d : Nat} :
    digitIn? base c = some d ↔ IsDigit base c d := by
  unfold digitIn? digitValue? IsDigit
  simp only [le_iff_toNat_le, Char.reduceToNat, Option.filter_eq_some_iff, decide_eq_true_eq]
  split
  · simp
    omega
  · split
    · simp
      omega
    · split
      · simp
        omega
      · simp
        omega

/-- The digits write the number, the last one counting once. -/
def Writes (base : Nat) (digits : List Char) (n : Nat) : Prop :=
  digits ≠ [] ∧ ∃ values, List.Forall₂ (IsDigit base) digits values ∧
    Nat.ofDigits base values.reverse = n

theorem digitsIn?_eq_some_iff {k : Nat} :
    digitsIn? base k digits = some n ↔
      ∃ values, List.Forall₂ (IsDigit base) digits values ∧
        k * base ^ values.length + Nat.ofDigits base values.reverse = n := by
  induction digits generalizing k with
  | nil => simp [digitsIn?]
  | cons c rest ih =>
    have hstep (d : Nat) (values : List Nat) :
        (k * base + d) * base ^ values.length + Nat.ofDigits base values.reverse =
          k * base ^ (d :: values).length + Nat.ofDigits base (d :: values).reverse := by
      simp only [List.length_cons, List.reverse_cons, Nat.ofDigits_append, Nat.ofDigits_singleton,
        List.length_reverse]
      ring
    rw [digitsIn?]
    constructor
    · cases hc : digitIn? base c with
      | none => simp
      | some d =>
        intro h
        obtain ⟨values, hvalues, hn⟩ := ih.mp h
        have hdigit := digitIn?_eq_some_iff.mp hc
        exact ⟨d :: values, .cons hdigit hvalues, (hstep d values).symm.trans hn⟩
    · rintro ⟨_ | ⟨d, values⟩, hvalues, hn⟩
      · cases hvalues
      · obtain ⟨hc, hrest⟩ := List.forall₂_cons.mp hvalues
        rw [digitIn?_eq_some_iff.mpr hc]
        exact ih.mpr ⟨values, hrest, (hstep d values).trans hn⟩

theorem writes_iff :
    Writes base digits n ↔ digits ≠ [] ∧ digitsIn? base 0 digits = some n := by
  simp [Writes, digitsIn?_eq_some_iff]

theorem IsDigit.not_isSignChar {c : Char} {d : Nat} (h : IsDigit base c d) :
    isSignChar c = false := by
  rw [Bool.eq_false_iff, ne_eq, isSignChar_iff]
  rintro (rfl | rfl)
  · simp [IsDigit] at h
    omega
  · simp [IsDigit] at h
    omega

theorem Writes.not_isSignChar (h : Writes base digits n) :
    ∀ c ∈ digits.head?, isSignChar c = false := by
  obtain ⟨-, values, hvalues, -⟩ := h
  cases hvalues with
  | nil => simp
  | cons hc _ =>
    intro c hhead
    cases hhead
    exact IsDigit.not_isSignChar hc

/-! ## Signs -/

/-- A numeral of a base: a minus or nothing, and digits whose number fits 64 bits with a sign. -/
inductive IsSigned (base : Nat) : List Char → Int → Prop where
  | plain {digits : List Char} {n : Nat} (hdigits : Writes base digits n) (hfits : n < 2 ^ 63) :
      IsSigned base digits n
  | minus {digits : List Char} {n : Nat} (hdigits : Writes base digits n) (hfits : n < 2 ^ 63) :
      IsSigned base ('-' :: digits) (-n)

inductive IsTwiceNegated (base : Nat) : List Char → Int → Prop where
  | intro {digits : List Char} {n : Nat} (hdigits : Writes base digits n) (hfits : n ≤ 2 ^ 63) :
      IsTwiceNegated base ('-' :: '-' :: digits) n

theorem readInteger?_eq_some_iff :
    readInteger? base text = some i ↔
      ∃ n, Writes base (splitSign text).2 n ∧
        (if (splitSign text).1 then -(n : Int) else n) = i ∧ -2 ^ 63 ≤ i ∧ i < 2 ^ 63 := by
  simp only [writes_iff, readInteger?]
  by_cases hempty : (splitSign text).2 = []
  · simp [hempty]
  · cases hread : digitsIn? base 0 (splitSign text).2 with
    | none => simp [hempty]
    | some n =>
      have hrange : -Int.pow 2 63 = -2 ^ 63 ∧ Int.pow 2 63 = 2 ^ 63 := ⟨rfl, rfl⟩
      simp only [List.isEmpty_iff, hempty, if_false, Option.ite_none_right_eq_some, hrange,
        Option.some.injEq, ne_eq, not_false_eq_true, true_and, exists_eq_left']
      constructor
      · rintro ⟨hfits, rfl⟩
        exact ⟨rfl, hfits⟩
      · rintro ⟨rfl, hfits⟩
        exact ⟨hfits, rfl⟩

theorem readInteger?_plain (h : ∀ c ∈ digits.head?, isSignChar c = false) :
    readInteger? base digits = some i ↔ ∃ n : Nat, Writes base digits n ∧ n < 2 ^ 63 ∧ n = i := by
  rw [readInteger?_eq_some_iff, splitSign_of_not_isSignChar h]
  constructor
  · rintro ⟨n, hdigits, rfl, -, hfits⟩
    simp only [Bool.false_eq_true, if_false] at hfits ⊢
    exact ⟨n, hdigits, by omega, rfl⟩
  · rintro ⟨n, hdigits, hfits, rfl⟩
    exact ⟨n, hdigits, rfl, by omega, by omega⟩

theorem readInteger?_minus :
    readInteger? base ('-' :: digits) = some i ↔
      ∃ n : Nat, Writes base digits n ∧ n ≤ 2 ^ 63 ∧ -n = i := by
  rw [readInteger?_eq_some_iff]
  constructor
  · rintro ⟨n, hdigits, rfl, hfits, -⟩
    simp only [splitSign, if_true] at hfits ⊢
    exact ⟨n, hdigits, by omega, rfl⟩
  · rintro ⟨n, hdigits, hfits, rfl⟩
    exact ⟨n, hdigits, rfl, by omega, by omega⟩

/-! ## Numerals of a base -/

theorem not_isSignChar_iff :
    (∀ c ∈ text.head?, isSignChar c = false) ↔
      text.head? ≠ some '+' ∧ text.head? ≠ some '-' := by
  cases text with
  | nil => simp
  | cons c rest => simp [isSignChar]

theorem readInBase?_of_minus {s : String} (h : Blank.trim s.toList = '-' :: digits) :
    readInBase? base s =
      if digits.head? = some '+' then none
      else (readInteger? base digits).map fun i => -Float.ofInt i := by
  simp [readInBase?, h]

theorem readInBase?_of_not_minus {s : String}
    (h : (Blank.trim s.toList).head? ≠ some '-') :
    readInBase? base s =
      if (Blank.trim s.toList).head? = some '+' then none
      else (readInteger? base (Blank.trim s.toList)).map Float.ofInt := by
  unfold readInBase?
  generalize Blank.trim s.toList = text at h
  simp only
  split
  · simp at h
  · rfl

theorem readInBase?_of_isSigned {s : String} (h : IsSigned base (Blank.trim s.toList) i) :
    ∃ x, readInBase? base s = some x ∧ (x == Float.ofInt i) = true := by
  generalize htext : Blank.trim s.toList = text at h
  cases h with
  | plain hdigits hfits =>
    have hsign := hdigits.not_isSignChar
    have hread := (readInteger?_plain hsign).mpr ⟨_, hdigits, hfits, rfl⟩
    obtain ⟨hplus, hminus⟩ := not_isSignChar_iff.mp hsign
    rw [← htext] at hplus hminus hread
    rw [readInBase?_of_not_minus hminus, if_neg hplus, hread]
    exact ⟨_, rfl, Double.ofInt_beq_self _⟩
  | minus hdigits hfits =>
    have hsign := hdigits.not_isSignChar
    have hread := (readInteger?_plain hsign).mpr ⟨_, hdigits, hfits, rfl⟩
    obtain ⟨hplus, -⟩ := not_isSignChar_iff.mp hsign
    rw [readInBase?_of_minus htext, if_neg hplus, hread]
    exact ⟨_, rfl, Double.neg_ofInt_beq _⟩

theorem readInBase?_of_isTwiceNegated {s : String}
    (h : IsTwiceNegated base (Blank.trim s.toList) i) :
    ∃ x, readInBase? base s = some x ∧ (x == Float.ofInt i) = true := by
  generalize htext : Blank.trim s.toList = text at h
  obtain ⟨hdigits, hfits⟩ := h
  have hread := readInteger?_minus.mpr ⟨_, hdigits, hfits, rfl⟩
  rw [readInBase?_of_minus htext, if_neg (by simp), hread]
  exact ⟨_, rfl, Double.neg_ofInt_neg_beq hfits⟩

theorem numeral_of_readInBase? {s : String} (h : readInBase? base s = some x) :
    ∃ i, IsSigned base (Blank.trim s.toList) i ∨ IsTwiceNegated base (Blank.trim s.toList) i := by
  by_cases hminus : (Blank.trim s.toList).head? = some '-'
  · obtain ⟨digits, htext⟩ := List.head?_eq_some_iff.mp hminus
    rw [readInBase?_of_minus htext, Option.ite_none_left_eq_some, Option.map_eq_some_iff] at h
    obtain ⟨hplus, i, hread, -⟩ := h
    rw [htext]
    by_cases hsecond : digits.head? = some '-'
    · obtain ⟨digits, rfl⟩ := List.head?_eq_some_iff.mp hsecond
      obtain ⟨n, hdigits, hfits, -⟩ := readInteger?_minus.mp hread
      exact ⟨n, .inr (.intro hdigits hfits)⟩
    · have hsign := not_isSignChar_iff.mpr ⟨hplus, hsecond⟩
      obtain ⟨n, hdigits, hfits, -⟩ := (readInteger?_plain hsign).mp hread
      exact ⟨-n, .inl (.minus hdigits hfits)⟩
  · rw [readInBase?_of_not_minus hminus, Option.ite_none_left_eq_some,
      Option.map_eq_some_iff] at h
    obtain ⟨hplus, i, hread, -⟩ := h
    have hsign := not_isSignChar_iff.mpr ⟨hplus, hminus⟩
    obtain ⟨n, hdigits, hfits, -⟩ := (readInteger?_plain hsign).mp hread
    exact ⟨n, .inl (.plain hdigits hfits)⟩

end Numeral

namespace Library

variable {H : HostTypes} {a : Arguments} {s : String}

theorem asNumber_of_get {position : Nat} {x : Float} (function : String)
    (h : a.get position = .number x) : a.asNumber position function = .ok x := by
  simp [Arguments.asNumber, Arguments.asType, Value.check, h, Value.toScalar, Value.dataType]

theorem asString_of_get {position : Nat} (function : String)
    (h : a.get position = .string s) : a.asString position function = .ok s := by
  simp [Arguments.asString, Arguments.asType, Value.check, h, Value.toScalar, Value.dataType]

theorem toNumber_eq {base : Nat} (hlow : 2 ≤ base) (hhigh : base ≤ 36)
    (htext : a.get 0 = .string s) (hbase : a.get 1 = .number (Float.ofInt base)) :
    (toNumber a : Action H NativeOutcome) = oneNumber (Numeral.readInBase? base s) := by
  have hnumber := asNumber_of_get "tonumber" hbase
  have hinteger : a.asInteger 1 "tonumber" = .ok (base : Int) := by
    rw [Arguments.asInteger, hnumber]
    exact congrArg Except.ok (Double.floorInt64_ofInt (by omega))
  have hrange : ¬ ((base : Int) < 2 ∨ 36 < (base : Int)) := by omega
  unfold toNumber
  rw [hbase, if_neg (by simp [Value.isNil]), hinteger]
  change (if (base : Int) < 2 ∨ 36 < (base : Int) then _ else _) = _
  rw [if_neg hrange, asString_of_get "tonumber" htext]
  rfl

/-- With a base from 2 to 36 the function answers a number for the numerals of the base and
for those with a second minus sign in front, and nil for every other text.  The number is
the one that the numeral writes, two minus signs cancelling each other. -/
theorem toNumber_inBase {base : Nat} (hlow : 2 ≤ base) (hhigh : base ≤ 36) (s : String)
    (methodCall : Bool) :
    ∃ x? : Option Float,
      (toNumber (.ofValues [.string s, .number (Float.ofInt base)] methodCall) :
          Action H NativeOutcome) = .done (.result ((x?.map Value.number).getD .nil)) ∧
        (x?.isSome = true ↔ ∃ i, Numeral.IsSigned base (Blank.trim s.toList) i ∨
          Numeral.IsTwiceNegated base (Blank.trim s.toList) i) ∧
        ∀ i, Numeral.IsSigned base (Blank.trim s.toList) i ∨
          Numeral.IsTwiceNegated base (Blank.trim s.toList) i →
            ∃ x, x? = some x ∧ (x == Float.ofInt i) = true := by
  have hread (i : Int) (h : Numeral.IsSigned base (Blank.trim s.toList) i ∨
      Numeral.IsTwiceNegated base (Blank.trim s.toList) i) :
      ∃ x, Numeral.readInBase? base s = some x ∧ (x == Float.ofInt i) = true :=
    h.elim Numeral.readInBase?_of_isSigned Numeral.readInBase?_of_isTwiceNegated
  refine ⟨Numeral.readInBase? base s, toNumber_eq hlow hhigh rfl rfl, ?_, hread⟩
  constructor
  · intro hsome
    obtain ⟨x, hx⟩ := Option.isSome_iff_exists.mp hsome
    exact Numeral.numeral_of_readInBase? hx
  · rintro ⟨i, hi⟩
    obtain ⟨x, hx, -⟩ := hread i hi
    rw [hx]
    rfl

theorem toNumber_inBase_sixteen :
    (2 ≤ 16 ∧ 16 ≤ 36) ∧
      ∃ x? : Option Float,
        (toNumber (.ofValues [.string " -fF", .number (Float.ofInt (16 : Nat))] false) :
            Action Workbench.types NativeOutcome) =
          .done (.result ((x?.map Value.number).getD .nil)) ∧
          ∃ x, x? = some x ∧ (x == Float.ofInt (-255)) = true := by
  obtain ⟨x?, hcall, -, hread⟩ :=
    toNumber_inBase (by decide : 2 ≤ 16) (by decide : 16 ≤ 36) " -fF" false
  have hwrites : Numeral.Writes 16 ['f', 'F'] 255 :=
    ⟨by decide, [15, 15],
      .cons (by simp [Numeral.IsDigit]) (.cons (by simp [Numeral.IsDigit]) .nil),
      by decide⟩
  exact ⟨by decide, x?, hcall, hread _ (.inl (.minus hwrites (by decide)))⟩

/-- A text with two minus signs is no numeral of its base, but it is read. -/
theorem toNumber_twiceNegated :
    (toNumber (.ofValues [.string "--5", .number 10] false) :
        Action Workbench.types NativeOutcome) = .done (.result (.number 5)) ∧
      ∀ i, ¬ Numeral.IsSigned 10 (Blank.trim "--5".toList) i := by
  constructor
  · have hread : Numeral.readInBase? 10 "--5" = some 5 := by decide +kernel
    rw [toNumber_eq (by decide : 2 ≤ 10) (by decide) rfl rfl, hread]
    rfl
  · intro i h
    generalize htext : Blank.trim "--5".toList = text at h
    have hsigns : text = ['-', '-', '5'] := htext.symm
    subst hsigns
    cases h with
    | plain hdigits => cases hdigits.not_isSignChar '-' (by simp)
    | minus hdigits => cases hdigits.not_isSignChar '-' (by simp)

end Library

end ScriptEngine
