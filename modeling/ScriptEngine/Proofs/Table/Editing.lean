import ScriptEngine.Proofs.Table.Integers

/-!
# Edits of a sequence

Inserting moves the items from a place on up, the last of them first; taking out moves
those behind a place down, the first of them first.  In that order every item is read
before something is written over it, so after the moves each key shows what stood at one
other key before them (`Key.below`, `Key.above`).  The edits of the items as a list follow
from that, whatever else the table holds.
-/

namespace ScriptEngine

/-! ## Where a value comes from -/

namespace Key

/-- The key whose value stands at a key after `n` items from `first` on were moved up. -/
def below (first n : Nat) : Key → Key
  | .position i => if first < i ∧ i ≤ first + n then .position (i - 1) else .position i
  | key => key

/-- The key whose value stands at a key after `n` items were moved down to `first`. -/
def above (first n : Nat) : Key → Key
  | .position i => if first ≤ i ∧ i < first + n then .position (i + 1) else .position i
  | key => key

variable {first n : Nat} {key : Key}

/-- A key that is none of the places written keeps its own value. -/
theorem below_eq_self (h : ∀ i, first < i → i ≤ first + n → key ≠ .position i) :
    key.below first n = key := by
  cases key with
  | position i => exact if_neg fun hmoved => h i hmoved.1 hmoved.2 rfl
  | _ => rfl

theorem above_eq_self (h : ∀ i, first ≤ i → i < first + n → key ≠ .position i) :
    key.above first n = key := by
  cases key with
  | position i => exact if_neg fun hmoved => h i hmoved.1 hmoved.2 rfl
  | _ => rfl

theorem below_zero : key.below first 0 = key := by
  refine below_eq_self fun i hlow hhigh => ?_
  omega

theorem above_zero : key.above first 0 = key := by
  refine above_eq_self fun i hlow hhigh => ?_
  omega

/-- The topmost item goes to the place above all. -/
theorem below_succ :
    key.below first (n + 1) =
      if key.below first n = .position (first + n + 1) then .position (first + n)
      else key.below first n := by
  cases key with
  | position i => simp only [below]; split_ifs <;> simp_all <;> omega
  | _ => simp [below]

/-- The lowest item goes to the place below all. -/
theorem above_succ :
    key.above first (n + 1) =
      if key.above (first + 1) n = .position first then .position (first + 1)
      else key.above (first + 1) n := by
  cases key with
  | position i => simp only [above]; split_ifs <;> simp_all <;> omega
  | _ => simp [above]

end Key

namespace Table

variable {t : Table} {first n place : Nat} {v : Value} {key : Key}

/-! ## Items as a list -/

@[simp] theorem length_slice (t : Table) (first : Int) (n : Nat) :
    (t.slice first n).length = n := by
  simp [slice]

theorem getElem_slice_one (t : Table) {i : Nat} (hi : i < (t.slice 1 n).length) :
    (t.slice 1 n)[i] = t.getKey (.position (i + 1)) := by
  have hint : (1 : Int) + Int.ofNat i = ((i + 1 : Nat) : Int) := by
    simp only [Int.ofNat_eq_natCast]
    omega
  simp only [slice, List.getElem_map, List.getElem_range, hint]
  exact getInt_position t (by omega)

/-- The items are the values up to the length. -/
def items (t : Table) : List Value := t.slice 1 t.length

@[simp] theorem length_items (t : Table) : t.items.length = t.length := by
  simp [items]

/-! ## The moves -/

namespace Consistent

theorem isNil_getKey_position (ht : t.Consistent) {i : Nat} (hfirst : 1 ≤ i)
    (hlast : i ≤ t.length) : (t.getKey (.position i)).isNil = false := by
  have hlive := ht.endsAt_length.live i hfirst hlast
  rwa [getInt_position t hfirst] at hlive

theorem length_le (ht : t.Consistent) : t.length ≤ Key.maxPosition := by
  by_contra hgt
  have hlive := ht.isNil_getKey_position (i := t.length) (by omega) (le_refl _)
  rw [ht.getKey_position_of_gt (by omega)] at hlive
  cases hlive

theorem getKey_setInt_position (ht : t.Consistent) {i : Nat} (hpos : 1 ≤ i)
    (hlast : i ≤ Key.maxPosition) (v : Value) (key : Key) :
    (t.setInt i v).getKey key =
      if key = .position i then v.toStorable else t.getKey key := by
  have hkey := Key.ofValue?_position hpos hlast
  exact ht.getKey_setInt hkey v key

theorem toStorable_getInt_position (ht : t.Consistent) {i : Nat} (hpos : 1 ≤ i) :
    (t.getInt i).toStorable = t.getKey (.position i) := by
  rw [getInt_position t hpos, ht.toStorable_getKey]

theorem shiftUp (ht : t.Consistent) (hfirst : 1 ≤ first)
    (hlast : first + n ≤ Key.maxPosition) :
    (shiftUp first n t).Consistent ∧
      ∀ key, (shiftUp first n t).getKey key = t.getKey (key.below first n) := by
  induction n generalizing t with
  | zero => exact ⟨ht, fun key => by rw [Key.below_zero]; rfl⟩
  | succ n ih =>
    obtain ⟨hmoved, hread⟩ :=
      ih (ht.setInt ((first + n + 1 : Nat) : Int) (t.getInt (first + n : Nat))) (by omega)
    refine ⟨hmoved, fun key => (hread key).trans ?_⟩
    rw [ht.getKey_setInt_position (by omega) (by omega),
      ht.toStorable_getInt_position (by omega), Key.below_succ]
    exact (apply_ite t.getKey _ _ _).symm

theorem shiftDown (ht : t.Consistent) (hfirst : 1 ≤ first)
    (hlast : first + n ≤ Key.maxPosition) :
    (shiftDown first n t).Consistent ∧
      ∀ key, (shiftDown first n t).getKey key = t.getKey (key.above first n) := by
  induction n generalizing first t with
  | zero => exact ⟨ht, fun key => by rw [Key.above_zero]; rfl⟩
  | succ n ih =>
    obtain ⟨hmoved, hread⟩ :=
      ih (ht.setInt (first : Int) (t.getInt (first + 1 : Nat)))
        (by omega : 1 ≤ first + 1) (by omega)
    refine ⟨hmoved, fun key => (hread key).trans ?_⟩
    rw [ht.getKey_setInt_position hfirst (by omega),
      ht.toStorable_getInt_position (by omega), Key.above_succ]
    exact (apply_ite t.getKey _ _ _).symm

end Consistent

theorem removeAt_snd (hplace : place ≤ t.length) :
    (t.removeAt place).2 =
      (shiftDown place (t.length - place) t.noteLength).setInt t.length .nil :=
  if_pos hplace

/-- A place that there may be is no word with a sign. -/
theorem signedWord_of_le (hplace : place ≤ Key.maxPosition + 1) : signedWord place = place := by
  unfold signedWord
  rw [if_pos]
  · rfl
  · simp only [Key.maxPosition, Nat.pow_eq] at hplace ⊢
    omega

namespace Consistent

theorem getKey_insertAt (ht : t.Consistent) (hroom : t.length < Key.maxPosition)
    (hfirst : 1 ≤ place) (hplace : place ≤ t.length + 1) (v : Value) (key : Key) :
    (t.insertAt place v).getKey key =
      if key = .position place then v.toStorable
      else t.getKey (key.below place (t.length + 1 - place)) := by
  obtain ⟨hmoved, hread⟩ :=
    ht.noteLength.shiftUp (n := t.length + 1 - place) hfirst (by omega)
  have hinsert : t.insertAt place v =
      (Table.shiftUp place (t.length + 1 - place) t.noteLength).setInt (signedWord place) v :=
    rfl
  rw [hinsert, signedWord_of_le (by omega), hmoved.getKey_setInt_position hfirst (by omega), hread,
    getKey_noteLength]

/-- What is handed out is the value at the place, also behind the last item. -/
theorem removeAt_fst (ht : t.Consistent) (hplace : place ≤ t.length + 1) :
    (t.removeAt place).1 = t.getInt place := by
  have hmax := ht.length_le
  have htaken : (t.removeAt place).1 = t.getInt (signedWord place) := rfl
  rw [htaken, signedWord_of_le (by omega)]

theorem getKey_removeAt (ht : t.Consistent) (hfirst : 1 ≤ place) (hplace : place ≤ t.length)
    (key : Key) :
    (t.removeAt place).2.getKey key =
      if key = .position t.length then .nil
      else t.getKey (key.above place (t.length - place)) := by
  have hmax := ht.length_le
  obtain ⟨hmoved, hread⟩ :=
    ht.noteLength.shiftDown (n := t.length - place) hfirst (by omega)
  rw [removeAt_snd hplace, hmoved.getKey_setInt_position (by omega) (by omega), hread,
    getKey_noteLength]
  rfl

end Consistent

/-! ## The edits -/

theorem getElem_items (t : Table) {i : Nat} (hi : i < t.items.length) :
    t.items[i] = t.getKey (.position (i + 1)) :=
  getElem_slice_one t hi

namespace Consistent

theorem slice_insertAt (ht : t.Consistent) (hroom : t.length < Key.maxPosition)
    (hfirst : 1 ≤ place) (hplace : place ≤ t.length + 1) (v : Value) :
    (t.insertAt place v).slice 1 (t.length + 1) =
      t.items.insertIdx (place - 1) v.toStorable := by
  apply List.ext_getElem
  · rw [length_slice, List.length_insertIdx_of_le_length (by simp; omega), length_items]
  · intro i hi hi'
    rw [length_slice] at hi
    rw [getElem_slice_one, ht.getKey_insertAt hroom hfirst hplace, List.getElem_insertIdx]
    simp only [Key.below, Key.position.injEq]
    rcases Nat.lt_trichotomy i (place - 1) with hbefore | hat | hbehind
    · rw [if_neg (by omega), if_neg (by omega), dif_pos hbefore, getElem_items]
    · rw [if_pos (by omega), dif_neg (by omega), dif_pos hat]
    · rw [if_neg (by omega), if_pos (by omega), dif_neg (by omega), dif_neg (by omega),
        getElem_items]
      congr 2
      omega

theorem items_removeAt (ht : t.Consistent) (hfirst : 1 ≤ place) (hplace : place ≤ t.length)
    (hlength : (t.removeAt place).2.length = t.length - 1) :
    (t.removeAt place).2.items = t.items.eraseIdx (place - 1) := by
  apply List.ext_getElem
  · rw [length_items, List.length_eraseIdx_of_lt (by simp; omega), length_items, hlength]
  · intro i hi hi'
    rw [length_items, hlength] at hi
    rw [getElem_items, ht.getKey_removeAt hfirst hplace, List.getElem_eraseIdx]
    simp only [Key.above, Key.position.injEq]
    rw [if_neg (by omega)]
    by_cases hbefore : i < place - 1
    · rw [if_neg (by omega), dif_pos hbefore, getElem_items]
    · rw [if_pos (by omega), dif_neg hbefore, getElem_items]

end Consistent

/-- The key is one of the first `n` positions. -/
def IsAmong (n : Nat) (key : Value) : Prop :=
  ∃ i, 1 ≤ i ∧ i ≤ n ∧ Key.ofValue? key = some (.position i)

/-- A value has come in among the items; nothing else has changed. -/
structure Inserted (t t' : Table) (place : Nat) (v : Value) : Prop where
  items : t'.slice 1 (t.length + 1) = t.items.insertIdx (place - 1) v
  others : ∀ key, ¬ IsAmong (t.length + 1) key → t'.get key = t.get key
  length : t.length + 1 ≤ t'.length
  border : t'.EndsAt t'.length

/-- A value has gone from among the items; nothing else has changed. -/
structure Removed (t t' : Table) (place : Nat) (v : Value) : Prop where
  taken : t.items[place - 1]? = some v
  items : t'.items = t.items.eraseIdx (place - 1)
  last : t'.getInt t.length = .nil
  others : ∀ key, ¬ IsAmong t.length key → t'.get key = t.get key
  length : t'.length = t.length - 1
  border : t'.EndsAt t'.length

theorem get_eq_of_getKey_eq {t' : Table}
    (hread : ∀ key : Key, (∀ i, 1 ≤ i → i ≤ n → key ≠ .position i) →
      t'.getKey key = t.getKey key)
    {key : Value} (hkey : ¬ IsAmong n key) : t'.get key = t.get key := by
  unfold get
  cases hcanonical : Key.ofValue? key with
  | none => rfl
  | some k =>
    apply hread
    rintro i hfirst hlast rfl
    exact hkey ⟨i, hfirst, hlast, hcanonical⟩

namespace Consistent

variable (ht : t.Consistent)

include ht

/-- Positions that are live are within the length. -/
theorem le_length (hlive : ∀ i, 1 ≤ i → i ≤ n → (t.getKey (.position i)).isNil = false) :
    n ≤ t.length := by
  by_contra hgt
  have hended := ht.endsAt_length.ended
  have hnext := hlive (t.length + 1) (by omega) (by omega)
  rw [← getInt_position t (by omega)] at hnext
  exact absurd hended (by simpa using hnext)

theorem inserted (hroom : t.length < Key.maxPosition) (hfirst : 1 ≤ place)
    (hplace : place ≤ t.length + 1) (hv : v.toStorable.isNil = false) :
    Inserted t (t.insertAt place v) place v.toStorable := by
  have hread := ht.getKey_insertAt hroom hfirst hplace v
  have hresult := (ht.denotes.insertAt place v).consistent
  have hbelow : ∀ i, 1 ≤ i → i ≤ t.length + 1 →
      ((t.insertAt place v).getKey (.position i)).isNil = false := by
    intro i hpos hlast
    rw [hread]
    split
    · exact hv
    · next hne =>
      simp only [Key.position.injEq] at hne
      simp only [Key.below]
      split
      · exact ht.isNil_getKey_position (by omega) (by omega)
      · exact ht.isNil_getKey_position (by omega) (by omega)
  constructor
  case items => exact ht.slice_insertAt hroom hfirst hplace v
  case others =>
    refine fun key => get_eq_of_getKey_eq fun k hk => ?_
    rw [hread, if_neg (hk place hfirst hplace),
      Key.below_eq_self fun i hlow hhigh => hk i (by omega) (by omega)]
  case length => exact hresult.le_length hbelow
  case border => exact hresult.endsAt_length

/-- Taking out ends the sequence one item earlier. -/
theorem endsAt_removeAt (hfirst : 1 ≤ place) (hplace : place ≤ t.length) :
    (t.removeAt place).2.EndsAt (t.length - 1) := by
  have hread := ht.getKey_removeAt hfirst hplace
  constructor
  case live =>
    intro i hpos hle
    rw [getInt_position _ hpos, hread, if_neg (by simp only [Key.position.injEq]; omega)]
    simp only [Key.above]
    split
    · exact ht.isNil_getKey_position (by omega) (by omega)
    · exact ht.isNil_getKey_position (by omega) (by omega)
  case ended =>
    have hnext : ((t.length - 1 : Nat) : Int) + 1 = t.length := by omega
    rw [hnext, getInt_position _ (by omega), hread, if_pos rfl]
    rfl

theorem removed (hfirst : 1 ≤ place) (hplace : place ≤ t.length) :
    Removed t (t.removeAt place).2 place (t.removeAt place).1 := by
  have hread := ht.getKey_removeAt hfirst hplace
  have hresult := (ht.denotes.removeAt place).consistent
  have hlength := hresult.endsAt_length.unique (ht.endsAt_removeAt hfirst hplace)
  constructor
  case taken =>
    have hlt : place - 1 < t.items.length := by
      rw [length_items]
      omega
    have hindex : place - 1 + 1 = place := by omega
    rw [List.getElem?_eq_getElem hlt, getElem_items, hindex, ht.removeAt_fst (by omega),
      getInt_position t hfirst]
  case items => exact ht.items_removeAt hfirst hplace hlength
  case last => rw [getInt_position _ (by omega), hread, if_pos rfl]
  case others =>
    refine fun key => get_eq_of_getKey_eq fun k hk => ?_
    rw [hread, if_neg (hk t.length (by omega) (le_refl _)),
      Key.above_eq_self fun i hlow hhigh => hk i (by omega) (by omega)]
  case length => exact hlength
  case border => exact hresult.endsAt_length

end Consistent

/-- Inserting and taking out do to the items what they do to a list, and nothing to the
other keys; the length is the border again. -/
theorem Arises.edits (ht : t.Arises) (hfirst : 1 ≤ place) :
    (∀ v : Value, t.length < Key.maxPosition → v.toStorable.isNil = false →
        place ≤ t.length + 1 → Inserted t (t.insertAt place v) place v.toStorable) ∧
      (place ≤ t.length → Removed t (t.removeAt place).2 place (t.removeAt place).1) := by
  constructor
  · intro _ hroom hv hplace
    exact ht.consistent.inserted hroom hfirst hplace hv
  · intro hplace
    exact ht.consistent.removed hfirst hplace

/-- Three items, and after a gap of one position another value. -/
def gapped : Table :=
  (performAll perform {}
    [.append (.boolean true), .append (.boolean false), .append (.boolean true),
      .setInteger 5 (.boolean false)]).2

theorem arises_gapped : gapped.Arises := Arises.empty.performAll _

/-- The value that comes in closes the gap, and the length goes on to what is behind it. -/
theorem edits_gapped :
    gapped.length = 3 ∧ (gapped.insertAt 2 (.boolean false)).length = 5 ∧
      Inserted gapped (gapped.insertAt 2 (.boolean false)) 2 (.boolean false) ∧
      Removed gapped (gapped.removeAt 2).2 2 (.boolean false) := by
  have hlength : gapped.length = 3 := by decide +kernel
  have hroom : gapped.length < Key.maxPosition := by
    rw [hlength]
    decide
  obtain ⟨hinserts, hremoves⟩ := Arises.edits arises_gapped (by decide : 1 ≤ 2)
  have htaken : (gapped.removeAt 2).1 = .boolean false := by decide +kernel
  refine ⟨hlength, by decide +kernel, hinserts (.boolean false) hroom (by decide) (by omega), ?_⟩
  rw [← htaken]
  exact hremoves (by omega)

end Table

end ScriptEngine
