import Mathlib
import ScriptEngine.Number.Numeral

/-!
# The grammar of numerals

Which texts are numerals is said here character by character: a sign or none, then `0x`
with hexadecimal digits, or digits with at most one point and perhaps an exponent.  The
reader finds the same by other means.  It looks at the first character and at the kinds of
all of them, and hands what passes to the notation of doubles, which would take a second
sign and the names of infinity and NaN as well.
-/

namespace ScriptEngine

namespace Blank

variable {text : List Char} {c : Char}

/-- The core of a text is what is left without the blanks around it. -/
structure Strips (text core : List Char) : Prop where
  around : ∃ before after, text = before ++ core ++ after ∧
    (∀ c ∈ before, isBlank c = true) ∧ ∀ c ∈ after, isBlank c = true
  first : ∀ c ∈ core.head?, isBlank c = false
  last : ∀ c ∈ core.getLast?, isBlank c = false

theorem not_of_mem_head?_dropWhile {p : Char → Bool} (text : List Char)
    (h : c ∈ (text.dropWhile p).head?) : p c = false := by
  have hstop := List.head?_dropWhile_not p text
  rw [Option.mem_def.mp h] at hstop
  exact hstop

theorem strips_trim (text : List Char) : Strips text (trim text) := by
  let rest := text.dropWhile isBlank
  have hrest : rest = trim text ++ (rest.reverse.takeWhile isBlank).reverse := by
    have hsplit := congrArg List.reverse
      (List.takeWhile_append_dropWhile (p := isBlank) (l := rest.reverse))
    rw [List.reverse_append, List.reverse_reverse] at hsplit
    exact hsplit.symm
  constructor
  case around =>
    refine ⟨text.takeWhile isBlank, (rest.reverse.takeWhile isBlank).reverse, ?_, ?_, ?_⟩
    · rw [List.append_assoc, ← hrest]
      exact List.takeWhile_append_dropWhile.symm
    · intro c hc
      exact List.mem_takeWhile_imp hc
    · intro c hc
      rw [List.mem_reverse] at hc
      exact List.mem_takeWhile_imp hc
  case first =>
    intro c hc
    apply not_of_mem_head?_dropWhile text
    change c ∈ rest.head?
    rw [hrest]
    cases hcore : trim text with
    | nil => simp [hcore] at hc
    | cons d core => simpa [hcore] using hc
  case last =>
    intro c hc
    apply not_of_mem_head?_dropWhile rest.reverse
    simpa [trim, rest, List.getLast?_reverse] using hc

theorem trim_eq_self (h : ∀ c ∈ text, isBlank c = false) : trim text = text := by
  have hkeep (chars : List Char) (hchars : ∀ c ∈ chars, isBlank c = false) :
      chars.dropWhile isBlank = chars := by
    cases chars with
    | nil => rfl
    | cons c chars => simp [hchars c (by simp)]
  rw [trim, hkeep text h, hkeep text.reverse fun c hc => h c (List.mem_reverse.mp hc),
    List.reverse_reverse]

end Blank

namespace Numeral

variable {text digits whole fraction rest : List Char} {c : Char}

/-! ## The grammar -/

/-- One or more characters of a kind. -/
def IsRun (kind : Char → Bool) (text : List Char) : Prop :=
  text ≠ [] ∧ ∀ c ∈ text, kind c = true

def isHexDigit (c : Char) : Bool :=
  c.isDigit || ('a' ≤ c && c ≤ 'f') || ('A' ≤ c && c ≤ 'F')

def isSignChar (c : Char) : Bool := c = '+' || c = '-'

inductive IsSign : List Char → Prop where
  | absent : IsSign []
  | plus : IsSign ['+']
  | minus : IsSign ['-']

inductive IsExponent : List Char → Prop where
  | absent : IsExponent []
  | present {mark : Char} {sign digits : List Char} (hmark : mark = 'e' ∨ mark = 'E')
      (hsign : IsSign sign) (hdigits : IsRun Char.isDigit digits) :
      IsExponent (mark :: (sign ++ digits))

/-- Digits with at most one point, one digit at least before or after it. -/
inductive IsMantissa : List Char → Prop where
  | whole {digits : List Char} (hdigits : IsRun Char.isDigit digits) : IsMantissa digits
  | pointed {whole fraction : List Char} (hwhole : ∀ c ∈ whole, c.isDigit = true)
      (hfraction : ∀ c ∈ fraction, c.isDigit = true) (hsome : whole ≠ [] ∨ fraction ≠ []) :
      IsMantissa (whole ++ '.' :: fraction)

inductive IsDecimal : List Char → Prop where
  | intro {mantissa exponent : List Char} (hmantissa : IsMantissa mantissa)
      (hexponent : IsExponent exponent) : IsDecimal (mantissa ++ exponent)

inductive IsMagnitude : List Char → Prop where
  | hexadecimal {mark : Char} {digits : List Char} (hmark : mark = 'x' ∨ mark = 'X')
      (hdigits : IsRun isHexDigit digits) : IsMagnitude ('0' :: mark :: digits)
  | decimal {text : List Char} (htext : IsDecimal text) : IsMagnitude text

inductive IsNumeral : List Char → Prop where
  | intro {sign magnitude : List Char} (hsign : IsSign sign)
      (hmagnitude : IsMagnitude magnitude) : IsNumeral (sign ++ magnitude)

/-! ## Characters and signs -/

theorem le_iff_toNat_le {a b : Char} : a ≤ b ↔ a.toNat ≤ b.toNat := by
  rw [Char.le_def, UInt32.le_iff_toNat_le]
  rfl

theorem isDigit_iff : c.isDigit = true ↔ 48 ≤ c.toNat ∧ c.toNat ≤ 57 := by
  simp [Char.isDigit, UInt32.le_iff_toNat_le]

theorem isSome_digitIn?_sixteen (c : Char) : (digitIn? 16 c).isSome = isHexDigit c := by
  rw [Bool.eq_iff_iff]
  unfold digitIn? digitValue? isHexDigit
  simp only [le_iff_toNat_le, Char.reduceToNat, Bool.or_eq_true, Bool.and_eq_true,
    decide_eq_true_eq, isDigit_iff]
  split
  · simp [Option.filter]
    omega
  · split
    · simp [Option.filter]
      omega
    · split
      · simp [Option.filter]
        omega
      · simp
        omega

theorem isDecimalChar_of_isDigit (h : c.isDigit = true) : isDecimalChar c = true := by
  simp [isDecimalChar, h]

theorem isSignChar_iff : isSignChar c = true ↔ c = '+' ∨ c = '-' := by
  simp [isSignChar]

theorem IsSign.eq_of_mem {sign : List Char} (h : IsSign sign) (hc : c ∈ sign) :
    c = '+' ∨ c = '-' := by
  cases h with
  | absent => cases hc
  | plus => exact .inl (List.mem_singleton.mp hc)
  | minus => exact .inr (List.mem_singleton.mp hc)

theorem not_isSignChar_of_begins (hc : c.isDigit = true ∨ c = '.') : isSignChar c = false := by
  rw [Bool.eq_false_iff, ne_eq, isSignChar_iff]
  rintro (rfl | rfl) <;> revert hc <;> decide

theorem splitSign_of_not_isSignChar (h : ∀ c ∈ text.head?, isSignChar c = false) :
    splitSign text = (false, text) := by
  unfold splitSign
  split
  · cases h '-' (by simp)
  · cases h '+' (by simp)
  · rfl

/-- A sign comes off a text if the rest does not begin with one. -/
theorem exists_sign_iff {P : List Char → Prop}
    (hP : ∀ body, P body → ∀ c ∈ body.head?, isSignChar c = false) :
    (∃ sign body, IsSign sign ∧ text = sign ++ body ∧ P body) ↔ P (splitSign text).2 := by
  constructor
  · rintro ⟨sign, body, hsign, rfl, hbody⟩
    cases hsign with
    | plus => exact hbody
    | minus => exact hbody
    | absent =>
      rw [List.nil_append, splitSign_of_not_isSignChar (hP body hbody)]
      exact hbody
  · intro hbody
    unfold splitSign at hbody
    split at hbody
    · exact ⟨_, _, .minus, rfl, hbody⟩
    · exact ⟨_, _, .plus, rfl, hbody⟩
    · exact ⟨_, _, .absent, rfl, hbody⟩

/-! ## Decimal numerals -/

theorem spanDigits_append (hdigits : ∀ c ∈ digits, c.isDigit = true)
    (hstop : ∀ c ∈ rest.head?, c.isDigit = false) :
    spanDigits (digits ++ rest) = (digits, rest) := by
  unfold spanDigits
  rw [List.takeWhile_append_of_pos hdigits, List.dropWhile_append_of_pos hdigits]
  cases rest with
  | nil => simp
  | cons c rest =>
    have hc := hstop c (by simp)
    simp [hc]

/-- Every text is its leading digits and a rest that begins with no digit. -/
theorem exists_digits (text : List Char) :
    ∃ digits rest, text = digits ++ rest ∧ (∀ c ∈ digits, c.isDigit = true) ∧
      ∀ c ∈ rest.head?, c.isDigit = false := by
  refine ⟨text.takeWhile Char.isDigit, text.dropWhile Char.isDigit,
    List.takeWhile_append_dropWhile.symm, ?_, ?_⟩
  · intro _ hc
    exact List.mem_takeWhile_imp hc
  · intro _ hc
    exact Blank.not_of_mem_head?_dropWhile text hc

theorem IsExponent.stop {exponent : List Char} (h : IsExponent exponent) :
    ∀ c ∈ exponent.head?, c.isDigit = false ∧ c ≠ '.' := by
  cases h with
  | absent => simp
  | present hmark hsign hdigits =>
    rcases hmark with rfl | rfl <;> simp

theorem IsRun.not_isSignChar (h : IsRun Char.isDigit digits) :
    ∀ c ∈ digits.head?, isSignChar c = false := by
  intro c hc
  exact not_isSignChar_of_begins (.inl (h.2 c (List.mem_of_mem_head? hc)))

theorem isSome_readExponent?_cons {mark : Char} :
    (readExponent? (mark :: rest)).isSome = true ↔
      (mark = 'e' ∨ mark = 'E') ∧ IsRun Char.isDigit (splitSign rest).2 := by
  rw [readExponent?]
  by_cases hmark : mark = 'e' ∨ mark = 'E'
  · simp [hmark, IsRun, Option.isSome_iff_ne_none]
  · simp [hmark]

theorem isSome_readExponent? : (readExponent? text).isSome = true ↔ IsExponent text := by
  cases text with
  | nil => exact iff_of_true rfl .absent
  | cons mark rest =>
    rw [isSome_readExponent?_cons, ← exists_sign_iff fun _ => IsRun.not_isSignChar]
    constructor
    · rintro ⟨hmark, sign, digits, hsign, rfl, hdigits⟩
      exact .present hmark hsign hdigits
    · rintro (_ | ⟨hmark, hsign, hdigits⟩)
      exact ⟨hmark, _, _, hsign, rfl, hdigits⟩

theorem readDecimal?_whole (hwhole : ∀ c ∈ whole, c.isDigit = true)
    (hstop : ∀ c ∈ rest.head?, c.isDigit = false ∧ c ≠ '.') :
    readDecimal? (whole ++ rest) =
      if whole.isEmpty then none
      else (readExponent? rest).map fun exponent => ⟨digitsValue whole, exponent⟩ := by
  unfold readDecimal?
  rw [spanDigits_append hwhole fun c hc => (hstop c hc).1]
  have hpoint (more : List Char) : rest ≠ '.' :: more := by
    rintro rfl
    exact (hstop '.' (by simp)).2 rfl
  simp

theorem readDecimal?_pointed (hwhole : ∀ c ∈ whole, c.isDigit = true)
    (hfraction : ∀ c ∈ fraction, c.isDigit = true)
    (hstop : ∀ c ∈ rest.head?, c.isDigit = false) :
    readDecimal? (whole ++ '.' :: (fraction ++ rest)) =
      if whole.isEmpty && fraction.isEmpty then none
      else (readExponent? rest).map fun exponent =>
        ⟨digitsValue (whole ++ fraction), exponent - Int.ofNat fraction.length⟩ := by
  unfold readDecimal?
  rw [spanDigits_append hwhole (by simp)]
  simp only [spanDigits_append hfraction hstop]

theorem isSome_readDecimal? : (readDecimal? text).isSome = true ↔ IsDecimal text := by
  constructor
  · intro h
    obtain ⟨whole, rest, rfl, hwhole, hstop⟩ := exists_digits text
    by_cases hpoint : ∃ more, rest = '.' :: more
    · obtain ⟨more, rfl⟩ := hpoint
      obtain ⟨fraction, rest, rfl, hfraction, hstop⟩ := exists_digits more
      rw [readDecimal?_pointed hwhole hfraction hstop] at h
      split at h
      · cases h
      · next hsome =>
        rw [Option.isSome_map, isSome_readExponent?] at h
        have hmantissa : IsMantissa (whole ++ '.' :: fraction) := by
          refine .pointed hwhole hfraction ?_
          simpa [imp_iff_not_or] using hsome
        simpa using IsDecimal.intro hmantissa h
    · have hstop' : ∀ c ∈ rest.head?, c.isDigit = false ∧ c ≠ '.' := by
        intro c hc
        refine ⟨hstop c hc, ?_⟩
        rintro rfl
        exact hpoint ⟨rest.tail, (List.eq_cons_of_mem_head? hc)⟩
      rw [readDecimal?_whole hwhole hstop'] at h
      split at h
      · cases h
      · next hsome =>
        rw [Option.isSome_map, isSome_readExponent?] at h
        exact .intro (.whole ⟨by simpa using hsome, hwhole⟩) h
  · rintro ⟨hmantissa, hexponent⟩
    have hread := isSome_readExponent?.mpr hexponent
    cases hmantissa with
    | whole hdigits =>
      rw [readDecimal?_whole hdigits.2 hexponent.stop]
      simpa [hdigits.1] using hread
    | pointed hwhole hfraction hsome =>
      rw [List.append_assoc, List.cons_append, readDecimal?_pointed hwhole hfraction fun c hc =>
        (hexponent.stop c hc).1, if_neg, Option.isSome_map]
      · exact hread
      · simpa [imp_iff_not_or] using hsome

/-! ## Hexadecimal digits -/

theorem isSome_readHex? : (readHex? digits).isSome = true ↔ IsRun isHexDigit digits := by
  have hfold (acc : Float) : (digits.foldlM (fun acc c => (digitIn? 16 c).map fun d =>
      acc * 16.0 + Float.ofNat d) acc).isSome = true ↔ ∀ c ∈ digits, isHexDigit c = true := by
    induction digits generalizing acc with
    | nil => simp
    | cons c digits ih =>
      rw [List.foldlM_cons, List.forall_mem_cons, ← isSome_digitIn?_sixteen]
      cases digitIn? 16 c with
      | none => simp
      | some d => simpa using ih _
  unfold readHex? IsRun
  split
  · simp
  · next hsome =>
    rw [and_iff_right (by simpa using hsome)]
    exact hfold 0.0

/-! ## What the filters let through -/

theorem IsMantissa.isDecimalChar {mantissa : List Char} (h : IsMantissa mantissa) :
    ∀ c ∈ mantissa, isDecimalChar c = true := by
  cases h with
  | whole hdigits => exact fun c hc => isDecimalChar_of_isDigit (hdigits.2 c hc)
  | pointed hwhole hfraction hsome =>
    intro c hc
    rw [List.mem_append, List.mem_cons] at hc
    rcases hc with hc | rfl | hc
    · exact isDecimalChar_of_isDigit (hwhole c hc)
    · rfl
    · exact isDecimalChar_of_isDigit (hfraction c hc)

theorem IsExponent.isDecimalChar {exponent : List Char} (h : IsExponent exponent) :
    ∀ c ∈ exponent, isDecimalChar c = true := by
  cases h with
  | absent => simp
  | present hmark hsign hdigits =>
    intro c hc
    rw [List.mem_cons, List.mem_append] at hc
    rcases hc with rfl | hc | hc
    · rcases hmark with rfl | rfl <;> rfl
    · rcases hsign.eq_of_mem hc with rfl | rfl <;> rfl
    · exact isDecimalChar_of_isDigit (hdigits.2 c hc)

theorem IsDecimal.isDecimalChar (h : IsDecimal text) : ∀ c ∈ text, isDecimalChar c = true := by
  obtain ⟨hmantissa, hexponent⟩ := h
  intro c hc
  rw [List.mem_append] at hc
  exact hc.elim (hmantissa.isDecimalChar c) (hexponent.isDecimalChar c)

/-- A decimal numeral begins with a digit or a point, and it has a digit. -/
theorem IsMantissa.begins {mantissa : List Char} (h : IsMantissa mantissa) :
    (∃ c ∈ mantissa.head?, c.isDigit = true ∨ c = '.') ∧ ∃ c ∈ mantissa, c.isDigit = true := by
  cases h with
  | whole hdigits =>
    obtain ⟨c, rest, rfl⟩ := List.exists_cons_of_ne_nil hdigits.1
    have hc := hdigits.2 c (by simp)
    exact ⟨⟨c, by simp, .inl hc⟩, c, by simp, hc⟩
  | @pointed whole fraction hwhole hfraction hsome =>
    constructor
    · cases whole with
      | nil => exact ⟨'.', by simp, .inr rfl⟩
      | cons c whole => exact ⟨c, by simp, .inl (hwhole c (by simp))⟩
    · rcases hsome with hsome | hsome
      · obtain ⟨c, rest, rfl⟩ := List.exists_cons_of_ne_nil hsome
        exact ⟨c, by simp, hwhole c (by simp)⟩
      · obtain ⟨c, rest, rfl⟩ := List.exists_cons_of_ne_nil hsome
        exact ⟨c, by simp, hfraction c (by simp)⟩

theorem IsDecimal.begins (h : IsDecimal text) :
    (∃ c ∈ text.head?, c.isDigit = true ∨ c = '.') ∧ ∃ c ∈ text, c.isDigit = true := by
  obtain ⟨hmantissa, hexponent⟩ := h
  obtain ⟨⟨c, hhead, hc⟩, d, hmem, hd⟩ := hmantissa.begins
  refine ⟨⟨c, ?_, hc⟩, d, List.mem_append_left _ hmem, hd⟩
  rw [List.head?_append, Option.mem_def.mp hhead]
  rfl

/-- The names begin with letters. -/
theorem readName?_of_begins (hhead : c ∈ text.head?) (hc : c.isDigit = true ∨ c = '.') :
    readName? text = none := by
  have htext := List.eq_cons_of_mem_head? hhead
  have hlower : c.toLower = c := by
    have hupper : ¬ (c.val ≥ 'A'.val ∧ c.val ≤ 'Z'.val) := by
      rcases hc with hc | rfl
      · rw [isDigit_iff] at hc
        simp only [ge_iff_le, UInt32.le_iff_toNat_le]
        simp
        omega
      · decide
    exact dif_neg hupper
  have hletter : c ≠ 'i' ∧ c ≠ 'n' := by
    constructor <;> rintro rfl <;> revert hc <;> decide
  rw [htext]
  simp [readName?, hlower, hletter]

theorem readDouble?_of_begins (hhead : c ∈ text.head?) (hc : c.isDigit = true ∨ c = '.') :
    readDouble? text = (readDecimal? text).map Decimal.toFloat := by
  have hsign : splitSign text = (false, text) := by
    apply splitSign_of_not_isSignChar
    intro d hd
    cases Option.mem_unique hd hhead
    exact not_isSignChar_of_begins hc
  simp [readDouble?, hsign, readName?_of_begins hhead hc, Function.comp_def]

/-- A decimal numeral passes the filters. -/
theorem readPlain?_of_isDecimal (h : IsDecimal text) :
    readPlain? text = (readDecimal? text).map Decimal.toFloat := by
  obtain ⟨⟨c, hhead, hc⟩, hdigit⟩ := h.begins
  have hall : text.all isDecimalChar = true := List.all_eq_true.mpr h.isDecimalChar
  have hfirst : (text.head?.any fun c => c.isDigit || c = '.') = true := by
    rw [Option.mem_def.mp hhead]
    simpa using hc
  have hany : text.any Char.isDigit = true := List.any_eq_true.mpr hdigit
  simp only [readPlain?]
  rw [hall, hfirst, hany, readDouble?_of_begins hhead hc]
  rfl

theorem isSome_readPlain? : (readPlain? text).isSome = true ↔ IsDecimal text := by
  constructor
  · intro h
    simp only [readPlain?] at h
    split at h
    · cases h
    · next hpasses =>
      simp only [Bool.not_eq_true', Bool.or_eq_true, not_or, Bool.not_eq_false, Option.any_eq_true,
        decide_eq_true_eq] at hpasses
      obtain ⟨⟨-, c, hhead, hc⟩, -⟩ := hpasses
      rw [readDouble?_of_begins hhead hc, Option.isSome_map] at h
      exact isSome_readDecimal?.mp h
  · intro h
    rw [readPlain?_of_isDecimal h, Option.isSome_map]
    exact isSome_readDecimal?.mpr h

/-! ## Numerals -/

theorem isSome_readMagnitude? : (readMagnitude? text).isSome = true ↔ IsMagnitude text := by
  unfold readMagnitude?
  split
  · rw [isSome_readHex?]
    constructor
    · exact .hexadecimal (.inl rfl)
    · rintro (⟨-, hdigits⟩ | hdecimal)
      · exact hdigits
      · cases hdecimal.isDecimalChar 'x' (by simp)
  · rw [isSome_readHex?]
    constructor
    · exact .hexadecimal (.inr rfl)
    · rintro (⟨-, hdigits⟩ | hdecimal)
      · exact hdigits
      · cases hdecimal.isDecimalChar 'X' (by simp)
  · next hlower hupper =>
    rw [isSome_readPlain?]
    constructor
    · exact .decimal
    · rintro (⟨rfl | rfl, -⟩ | hdecimal)
      · cases hlower _ rfl
      · cases hupper _ rfl
      · exact hdecimal

theorem IsMagnitude.begins (h : IsMagnitude text) :
    ∃ c ∈ text.head?, c.isDigit = true ∨ c = '.' := by
  cases h with
  | hexadecimal hmark hdigits => exact ⟨'0', by simp, .inl rfl⟩
  | decimal hdecimal => exact hdecimal.begins.1

theorem IsMagnitude.not_isSignChar (h : IsMagnitude text) :
    ∀ c ∈ text.head?, isSignChar c = false := by
  intro c hc
  obtain ⟨d, hd, hbegins⟩ := h.begins
  cases Option.mem_unique hc hd
  exact not_isSignChar_of_begins hbegins

theorem isNumeral_iff : IsNumeral text ↔ IsMagnitude (splitSign text).2 := by
  rw [← exists_sign_iff fun _ => IsMagnitude.not_isSignChar]
  constructor
  · rintro ⟨hsign, hmagnitude⟩
    exact ⟨_, _, hsign, rfl, hmagnitude⟩
  · rintro ⟨sign, magnitude, hsign, rfl, hmagnitude⟩
    exact .intro hsign hmagnitude

/-! ## No blanks -/

theorem not_isBlank_of_isDecimalChar (h : isDecimalChar c = true) : Blank.isBlank c = false := by
  simp only [isDecimalChar, Bool.or_eq_true, decide_eq_true_eq, isDigit_iff, ← Char.toNat_inj,
    Char.reduceToNat] at h
  simp [Blank.isBlank, Blank.ranges]
  omega

theorem not_isBlank_of_isHexDigit (h : isHexDigit c = true) : Blank.isBlank c = false := by
  simp only [isHexDigit, Bool.or_eq_true, Bool.and_eq_true, decide_eq_true_eq, isDigit_iff,
    le_iff_toNat_le, Char.reduceToNat] at h
  simp [Blank.isBlank, Blank.ranges]
  omega

theorem IsMagnitude.not_isBlank (h : IsMagnitude text) :
    ∀ c ∈ text, Blank.isBlank c = false := by
  cases h with
  | decimal hdecimal =>
    exact fun c hc => not_isBlank_of_isDecimalChar (hdecimal.isDecimalChar c hc)
  | hexadecimal hmark hdigits =>
    intro c hc
    rw [List.mem_cons, List.mem_cons] at hc
    rcases hc with rfl | rfl | hc
    · rfl
    · rcases hmark with rfl | rfl <;> rfl
    · exact not_isBlank_of_isHexDigit (hdigits.2 c hc)

theorem IsNumeral.not_isBlank (h : IsNumeral text) : ∀ c ∈ text, Blank.isBlank c = false := by
  obtain ⟨hsign, hmagnitude⟩ := h
  intro c hc
  rw [List.mem_append] at hc
  rcases hc with hc | hc
  · rcases hsign.eq_of_mem hc with rfl | rfl <;> rfl
  · exact hmagnitude.not_isBlank c hc

/-- A string is read just if it is a numeral, once the blanks around it are gone.  There is
then no blank inside, no second sign behind the first, and no name of infinity or NaN. -/
theorem isSome_read?_iff (s : String) :
    Blank.Strips s.toList (Blank.trim s.toList) ∧
      ((read? s).isSome = true ↔ IsNumeral (Blank.trim s.toList)) ∧
      ((read? s).isSome = true →
        (∀ c ∈ Blank.trim s.toList, Blank.isBlank c = false) ∧
          (∀ c ∈ (splitSign (Blank.trim s.toList)).2.head?, isSignChar c = false) ∧
          readName? (splitSign (Blank.trim s.toList)).2 = none) := by
  have hread : (read? s).isSome = true ↔ IsNumeral (Blank.trim s.toList) := by
    unfold read? readChars?
    simp only [Option.isSome_map, isSome_readMagnitude?, isNumeral_iff]
  refine ⟨Blank.strips_trim _, hread, fun h => ?_⟩
  have hnumeral := hread.mp h
  have hmagnitude := isNumeral_iff.mp hnumeral
  obtain ⟨c, hhead, hc⟩ := hmagnitude.begins
  exact ⟨hnumeral.not_isBlank, hmagnitude.not_isSignChar, readName?_of_begins hhead hc⟩

example : ["\t-.5E+3 ", "0XfF", "+-5", "1e", "-inf"].map (fun s => (read? s).isSome) =
    [true, true, false, false, false] := by
  decide +kernel

end Numeral

end ScriptEngine
