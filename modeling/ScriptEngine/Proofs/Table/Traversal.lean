import ScriptEngine.Proofs.Table.Refinement

/-!
# Traversals of a table that is written to

A traversal asks for the entry behind a key, goes on from the key it gets, and stops at
the end marker.  Between its steps nil may be assigned to any key and a value to a key
that has one.  Such writes leave every entry in its place, and no entry that has died
comes back: `Table.Steady` says so.  The cursor of a traversal is therefore a place that
the writes do not move, and what is left to visit is what lives behind it.
-/

namespace ScriptEngine

namespace TableOperation

/-- The canonical key that is assigned to, and what the table keeps of the value. -/
def assigned? : TableOperation → Option (Key × Value)
  | .set key value => (Key.ofValue? key).map (·, value.toStorable)
  | .setName name value => some (.name name, value.toStorable)
  | .setInteger i value => (Key.ofValue? (.number (Float.ofInt i))).map (·, value.toStorable)
  | _ => none

/-- Assignments, and asking for the length. -/
def isMild : TableOperation → Bool
  | .set _ _ => true
  | .setName _ _ => true
  | .setInteger _ _ => true
  | .askLength => true
  | _ => false

/-- What may be done between the steps of a traversal: assigning nil, and assigning to a key that
has a value at that moment. -/
def Spares (op : TableOperation) (t : Table) : Prop :=
  op.isMild = true ∧
    (op.assigned?.all fun (key, value) => value.isNil || !(t.getKey key).isNil) = true

instance (op : TableOperation) (t : Table) : Decidable (op.Spares t) :=
  inferInstanceAs (Decidable (_ ∧ _))

theorem Spares.of_assigned {op : TableOperation} {t : Table} (h : op.Spares t) {key : Key}
    {value : Value} (hassigned : op.assigned? = some (key, value)) :
    value.isNil = true ∨ (t.getKey key).isNil = false := by
  simpa [hassigned] using h.2

/-- The operation assigns nil to the key. -/
def Clears (op : TableOperation) (key : Key) : Prop :=
  ∃ value, op.assigned? = some (key, value) ∧ value.isNil = true

end TableOperation

/-! ## Entries that stay where they are -/

namespace Entry

/-- The same key, and no life that was not there before. -/
def Outlived (e e' : Entry) : Prop :=
  e'.key = e.key ∧ (e'.isLive = true → e.isLive = true)

theorem outlived_trans {es es' es'' : List Entry} (h : List.Forall₂ Outlived es es')
    (h' : List.Forall₂ Outlived es' es'') : List.Forall₂ Outlived es es'' := by
  induction h generalizing es'' with
  | nil => exact h'
  | cons hhead _ ih =>
    cases h' with
    | cons hhead' hrest' =>
      exact .cons ⟨hhead'.1.trans hhead.1, fun hlive => hhead.2 (hhead'.2 hlive)⟩ (ih hrest')

/-- The keys of the live entries. -/
def liveKeys (es : List Entry) : List Value := (es.filter (·.isLive)).map (·.key)

/-- The keys that are still live stand in their old order. -/
theorem liveKeys_sublist_of_outlived {es es' : List Entry}
    (h : List.Forall₂ Outlived es es') : (liveKeys es').Sublist (liveKeys es) := by
  induction h with
  | nil => exact .slnil
  | @cons e e' es es' hhead _ ih =>
    obtain ⟨hkey, hlive⟩ := hhead
    unfold liveKeys at ih ⊢
    by_cases hlive' : e'.isLive = true
    · simpa [hlive', hlive hlive', hkey] using ih
    · by_cases hold : e.isLive = true
      · simpa [hlive', hold] using ih.cons e.key
      · simpa [hlive', hold] using ih

end Entry

namespace Table

variable {t t' t'' : Table} {key : Key} {place : Nat} {written value : Value}
  {op : TableOperation}

/-- The same keys in the same places, where what is dead stays dead. -/
structure Steady (t t' : Table) : Prop where
  entries : List.Forall₂ Entry.Outlived t.entries.toList t'.entries.toList
  index : t'.index = t.index

theorem Steady.of_entries (hentries : t'.entries = t.entries) (hindex : t'.index = t.index) :
    Steady t t' := by
  refine ⟨?_, hindex⟩
  rw [hentries, List.forall₂_same]
  exact fun e _ => ⟨rfl, id⟩

theorem Steady.refl (t : Table) : Steady t t := .of_entries rfl rfl

theorem Steady.trans (h : Steady t t') (h' : Steady t' t'') : Steady t t'' := by
  constructor
  · exact Entry.outlived_trans h.entries h'.entries
  · rw [h'.index, h.index]

/-- Another value in a place that was live. -/
theorem Steady.of_setAt (hlive : (t.valueAt place).isNil = false)
    (hentries : t'.entries = (t.setAt place value).entries) (hindex : t'.index = t.index) :
    Steady t t' := by
  refine ⟨?_, hindex⟩
  rw [hentries, List.forall₂_iff_get]
  refine ⟨by simp [setAt], ?_⟩
  intro i hi hi'
  have hold : t.entries.toList[i]? = some (t.entries.toList[i]) := List.getElem?_eq_getElem hi
  have hnew := getElem?_setAt t place i value
  rw [hold, List.getElem?_eq_getElem hi', Option.map_some, Option.some.injEq] at hnew
  simp only [List.get_eq_getElem, hnew]
  by_cases hplace : place = i
  · subst hplace
    rw [Array.getElem?_toList] at hold
    have held : (t.entries.toList[place]).isLive = true := by
      simpa [valueAt, hold, Entry.isLive] using hlive
    rw [if_pos rfl]
    exact ⟨rfl, fun _ => held⟩
  · rw [if_neg hplace]
    exact ⟨rfl, id⟩

/-! ## What is permitted keeps the places -/

/-- The same entries, or another value in the place of a key that is live, which is nil only where
`clears` allows it. -/
def Revalued (clears : Key → Prop) (t t' : Table) : Prop :=
  t'.index = t.index ∧
    (t'.entries = t.entries ∨
      ∃ key place value, t.index.find? key = some place ∧ (t.valueAt place).isNil = false ∧
        t'.entries = (t.setAt place value).entries ∧ (value.isNil = true → clears key))

theorem revalued_setKey {clears : Key → Prop}
    (hspared : value.isNil = true ∨ (t.getKey key).isNil = false)
    (hclears : value.isNil = true → clears key) :
    Revalued clears t (t.setKey key written value) := by
  unfold setKey
  cases hfind : t.index.find? key with
  | none =>
    have hunbound : t.getKey key = .nil := by simp [getKey, hfind]
    have hnil : value.isNil = true := by simpa [hunbound, Value.isNil] using hspared
    simp [Revalued, hnil]
  | some place =>
    have hvalue : t.getKey key = t.valueAt place := by simp [getKey, hfind]
    rw [hvalue] at hspared
    by_cases hdead : (t.valueAt place).isNil = true
    · have hnil : value.isNil = true := by simpa [hdead] using hspared
      simp [Revalued, hnil, hdead]
    · have hlive : (t.valueAt place).isNil = false := by simpa using hdead
      by_cases hnil : value.isNil = true
      · simp only [hnil, if_true, hlive, Bool.false_eq_true, if_false]
        refine ⟨by simp [setAt], Or.inr ⟨key, place, .nil, hfind, hlive, by simp, ?_⟩⟩
        exact fun _ => hclears hnil
      · simp only [hnil, hlive, Bool.false_eq_true, if_false]
        exact ⟨rfl, Or.inr ⟨key, place, value, hfind, hlive, rfl, fun h => absurd h hnil⟩⟩

theorem revalued_perform (hspares : op.Spares t) : Revalued op.Clears t (t.perform op).2 := by
  have hwrite : ∀ key written value, op.assigned? = some (key, value) →
      Revalued op.Clears t (t.setKey key written value) :=
    fun key written value hassigned =>
      revalued_setKey (hspares.of_assigned hassigned) fun hnil => ⟨value, hassigned, hnil⟩
  cases op with
  | set written value =>
    cases hkey : Key.ofValue? written with
    | none => simp [perform, set?, hkey, Revalued]
    | some key =>
      have hset := hwrite key written.toScalar value.toStorable
        (by simp [TableOperation.assigned?, hkey])
      simpa [perform, set?, hkey] using hset
  | setName name value => exact hwrite (.name name) (.string name) value.toStorable rfl
  | setInteger i value =>
    cases hkey : Key.ofValue? (.number (Float.ofInt i)) with
    | none => simp [perform, setInt, hkey, Revalued]
    | some key =>
      have hset := hwrite key (.number (Float.ofInt i)) value.toStorable
        (by simp [TableOperation.assigned?, hkey])
      simpa [perform, setInt, hkey] using hset
  | askLength => exact ⟨rfl, Or.inl rfl⟩
  | _ => cases hspares.1

theorem steady_perform (hspares : op.Spares t) : Steady t (t.perform op).2 := by
  obtain ⟨hindex, hentries | ⟨_, _, _, -, hlive, hentries, -⟩⟩ := revalued_perform hspares
  · exact .of_entries hentries hindex
  · exact .of_setAt hlive hentries hindex

theorem Consistent.perform (ht : t.Consistent) (op : TableOperation) :
    (t.perform op).2.Consistent := by
  have hdenotes := (Denotes.perform ⟨ht, rfl⟩ op).2
  exact hdenotes.consistent

/-- A live entry with its key at a place. -/
def LivesAt (t : Table) (place : Nat) (key : Value) : Prop :=
  ∃ e, t.entries.toList[place]? = some e ∧ e.key = key ∧ e.isLive = true

/-- An entry that lives goes on living unless its key is cleared. -/
theorem LivesAt.perform (ht : t.Indexed) (hspares : op.Spares t) {v : Value}
    (hlives : t.LivesAt place v) (hkey : Key.ofValue? v = some key) (hkept : ¬ op.Clears key) :
    (t.perform op).2.LivesAt place v := by
  obtain ⟨e, hplace, rfl, hlive⟩ := hlives
  obtain ⟨-, hentries | ⟨other, changed, value, hfind, -, hentries, hclears⟩⟩ :=
    revalued_perform hspares
  · exact ⟨e, hentries ▸ hplace, rfl, hlive⟩
  · have hnew := getElem?_setAt t changed place value
    rw [← hentries, hplace, Option.map_some] at hnew
    refine ⟨_, hnew, by split <;> rfl, ?_⟩
    by_cases hsame : changed = place
    · subst hsame
      obtain ⟨e', hplace', hkey'⟩ := ht.indexed other changed hfind
      obtain rfl : e = e' := Option.some.inj (hplace.symm.trans hplace')
      obtain rfl : key = other := Option.some.inj (hkey.symm.trans hkey')
      have hvalue : ¬ value.isNil = true := fun hnil => hkept (hclears hnil)
      simpa [Entry.isLive] using hvalue
    · simpa [hsame] using hlive

/-! ## Rounds of operations -/

/-- All operations of a round are permitted when they come. -/
def Spared (t : Table) : List TableOperation → Prop
  | [] => True
  | op :: rest => op.Spares t ∧ Spared (t.perform op).2 rest

instance decidableSpared : (t : Table) → (round : List TableOperation) → Decidable (t.Spared round)
  | _, [] => isTrue trivial
  | t, op :: rest =>
    have : Decidable ((t.perform op).2.Spared rest) := decidableSpared (t.perform op).2 rest
    inferInstanceAs (Decidable (_ ∧ _))

/-- The table after a round. -/
def afterRound (t : Table) (round : List TableOperation) : Table :=
  (performAll Table.perform t round).2

theorem Consistent.afterRound (ht : t.Consistent) (round : List TableOperation) :
    (t.afterRound round).Consistent := by
  have hdenotes := (Denotes.performAll ⟨ht, rfl⟩ round).2
  exact hdenotes.consistent

theorem steady_afterRound {round : List TableOperation} (hspared : t.Spared round) :
    Steady t (t.afterRound round) := by
  induction round generalizing t with
  | nil => exact .refl t
  | cons op rest ih => exact (steady_perform hspared.1).trans (ih hspared.2)

theorem LivesAt.afterRound {round : List TableOperation} (ht : t.Consistent)
    (hspared : t.Spared round) {v : Value} (hlives : t.LivesAt place v)
    (hkey : Key.ofValue? v = some key) (hkept : ∀ op ∈ round, ¬ op.Clears key) :
    (t.afterRound round).LivesAt place v := by
  induction round generalizing t with
  | nil => exact hlives
  | cons op rest ih =>
    have hnext := hlives.perform ht.toIndexed hspared.1 hkey (hkept op (by simp))
    exact ih (ht.perform op) hspared.2 hnext fun other hmem => hkept other (by simp [hmem])

/-! ## The search behind a cursor -/

/-- The search for the entry behind the key starts at the place. -/
def CursorAt (t : Table) (v : Value) (place : Nat) : Prop :=
  (v = .nil ∧ place = 0) ∨
    ∃ key before, v.isNil = false ∧ Key.ofValue? v = some key ∧
      t.index.find? key = some before ∧ place = before + 1

/-- The keys that live from a place on. -/
def behind (t : Table) (place : Nat) : List Value := Entry.liveKeys (t.entries.toList.drop place)

theorem behind_zero (t : Table) : t.behind 0 = t.pairs.map (·.1) := by
  simp [behind, Entry.liveKeys, pairs, live]

theorem LivesAt.mem_behind {v : Value} {from' : Nat} (hlives : t.LivesAt place v)
    (hle : from' ≤ place) : v ∈ t.behind from' := by
  obtain ⟨e, hplace, rfl, hlive⟩ := hlives
  obtain ⟨hlt, hget⟩ := List.getElem?_eq_some_iff.mp hplace
  have hmem : e ∈ t.entries.toList.drop from' :=
    List.mem_drop_iff_getElem.mpr ⟨place - from', by omega, by simpa [hle] using hget⟩
  exact List.mem_map_of_mem (List.mem_filter.mpr ⟨hmem, hlive⟩)

theorem Steady.behind_sublist (h : Steady t t') (place : Nat) :
    (t'.behind place).Sublist (t.behind place) := by
  refine Entry.liveKeys_sublist_of_outlived ?_
  exact List.forall₂_drop place h.entries

theorem CursorAt.of_steady (h : Steady t t') {v : Value} (hcursor : t.CursorAt v place) :
    t'.CursorAt v place := by
  unfold CursorAt
  rw [h.index]
  exact hcursor

theorem next_of_cursorAt {v : Value} (hcursor : t.CursorAt v place) :
    t.next v =
      match (t.entries.toList.drop place).find? (·.isLive) with
      | some e => .entry e.key e.value
      | none => .finished := by
  have hfirst (place : Nat) := t.firstLive_eq_find? (t.entries.size - place) place (by omega)
  rcases hcursor with ⟨rfl, rfl⟩ | ⟨key, before, hsome, hkey, hfind, rfl⟩
  · simp only [next, Value.isNil, if_true]
    exact hfirst 0 ▸ rfl
  · simp only [next, hsome, Bool.false_eq_true, if_false, hkey, hfind, Option.bind_some,
      Option.map_some]
    exact hfirst (before + 1) ▸ rfl

/-- The first live entry from a place on, and where it stands. -/
structure FirstFrom (t : Table) (place : Nat) (e : Entry) (found : Nat) : Prop where
  get : t.entries.toList[found]? = some e
  live : e.isLive = true
  first : ∀ other v, place ≤ other → t.LivesAt other v → found ≤ other
  behind : t.behind place = e.key :: t.behind (found + 1)

theorem firstFrom_of_find? {e : Entry}
    (hfind : (t.entries.toList.drop place).find? (·.isLive) = some e) :
    ∃ found, t.FirstFrom place e found := by
  obtain ⟨hlive, as, bs, hsplit, hdead⟩ := List.find?_eq_some_iff_append.mp hfind
  have hrest : t.entries.toList.drop (place + as.length + 1) = bs := by
    rw [Nat.add_assoc, ← List.drop_drop, hsplit, ← List.drop_drop, List.drop_left]
    rfl
  have hget : ∀ i, t.entries.toList[place + i]? = (as ++ e :: bs)[i]? := by
    intro i
    rw [← hsplit, List.getElem?_drop]
  refine ⟨place + as.length, ?_, hlive, ?_, ?_⟩
  · rw [hget, List.getElem?_append_right (le_refl _), Nat.sub_self]
    rfl
  · rintro other v hle ⟨e', hplace, -, hlive'⟩
    by_contra hlt
    obtain ⟨i, rfl⟩ := Nat.exists_eq_add_of_le hle
    rw [hget, List.getElem?_append_left (by omega)] at hplace
    have hgone := hdead e' (List.mem_of_getElem? hplace)
    simp [hlive'] at hgone
  · have hnone : as.filter (·.isLive) = [] := by
      simpa using hdead
    simp [Table.behind, Entry.liveKeys, hsplit, hrest, hnone, hlive]

/-- What a traversal meets next: the end, where nothing lives any more, or the first live entry,
from which it can go on. -/
theorem next_cases (ht : t.Indexed) {v : Value} (hcursor : t.CursorAt v place) :
    (t.next v = .finished ∧ t.behind place = []) ∨
      ∃ e found, t.FirstFrom place e found ∧ t.next v = .entry e.key e.value ∧
        t.get e.key = e.value ∧ t.CursorAt e.key (found + 1) := by
  rw [next_of_cursorAt hcursor]
  cases hfind : (t.entries.toList.drop place).find? (·.isLive) with
  | none =>
    refine Or.inl ⟨rfl, ?_⟩
    simpa [behind, Entry.liveKeys] using hfind
  | some e =>
    obtain ⟨found, hfirst⟩ := firstFrom_of_find? hfind
    obtain ⟨key, hkey⟩ := ht.keyed e (List.mem_of_getElem? hfirst.get)
    have hindex := ht.reached found e key hfirst.get hfirst.live hkey
    have hvalue : t.valueAt found = e.value := by
      have hget := hfirst.get
      rw [Array.getElem?_toList] at hget
      simp [valueAt, hget]
    have hsome : e.key.isNil = false := by
      cases he : e.key <;> simp_all [Key.ofValue?, Value.toScalar, Value.isNil]
    refine Or.inr ⟨e, found, hfirst, rfl, ?_, Or.inr ⟨key, found, hsome, hkey, hindex, rfl⟩⟩
    simp [get, hkey, getKey, hindex, hvalue]

/-! ## Traversals -/

/-- One step of a traversal: the table at that moment, and its answer. -/
structure Visit where
  table : Table
  answer : Next

/-- The key that a step yields. -/
def Visit.key? (visit : Visit) : Option Value :=
  match visit.answer with
  | .entry key _ => some key
  | _ => none

/-- The steps of a traversal that goes on from a key.  Before each step a round of operations is
done. -/
def traverse (t : Table) (v : Value) : List (List TableOperation) → List Visit
  | [] => []
  | round :: rest =>
    match (t.afterRound round).next v with
    | .entry key value =>
      ⟨t.afterRound round, .entry key value⟩ :: traverse (t.afterRound round) key rest
    | answer => [⟨t.afterRound round, answer⟩]

/-- All that is done between the steps is permitted when it comes. -/
def Undisturbed (t : Table) (v : Value) : List (List TableOperation) → Prop
  | [] => True
  | round :: rest =>
    t.Spared round ∧
      match (t.afterRound round).next v with
      | .entry key _ => Undisturbed (t.afterRound round) key rest
      | _ => True

instance decidableUndisturbed : (t : Table) → (v : Value) →
    (rounds : List (List TableOperation)) → Decidable (t.Undisturbed v rounds)
  | _, _, [] => isTrue trivial
  | t, v, round :: rest =>
    match hnext : (t.afterRound round).next v with
    | .entry key _ =>
      have := decidableUndisturbed (t.afterRound round) key rest
      decidable_of_iff (t.Spared round ∧ (t.afterRound round).Undisturbed key rest)
        (by simp [Undisturbed, hnext])
    | .finished => decidable_of_iff (t.Spared round) (by simp [Undisturbed, hnext])
    | .unknownKey => decidable_of_iff (t.Spared round) (by simp [Undisturbed, hnext])

/-- A traversal by places: each step either meets the first live entry from its place on, or there
is none and the traversal ends. -/
inductive Tour : Table → Nat → List (List TableOperation) → List Visit → Prop
  | waiting {t : Table} {place : Nat} : Tour t place [] []
  | ended {t : Table} {place : Nat} {round : List TableOperation}
      {rest : List (List TableOperation)} (hspared : t.Spared round)
      (hnone : (t.afterRound round).behind place = []) :
      Tour t place (round :: rest) [⟨t.afterRound round, .finished⟩]
  | visited {t : Table} {place : Nat} {round : List TableOperation}
      {rest : List (List TableOperation)} {visits : List Visit} {e : Entry} {found : Nat}
      (hspared : t.Spared round) (hfirst : (t.afterRound round).FirstFrom place e found)
      (hvalue : (t.afterRound round).get e.key = e.value)
      (hrest : Tour (t.afterRound round) (found + 1) rest visits) :
      Tour t place (round :: rest) (⟨t.afterRound round, .entry e.key e.value⟩ :: visits)

theorem tour_traverse (ht : t.Consistent) {v : Value} (hcursor : t.CursorAt v place)
    {rounds : List (List TableOperation)} (hundisturbed : t.Undisturbed v rounds) :
    Tour t place rounds (t.traverse v rounds) := by
  induction rounds generalizing t v place with
  | nil => exact .waiting
  | cons round rest ih =>
    obtain ⟨hspared, hrest⟩ := hundisturbed
    have hlater := ht.afterRound round
    have hmoved := hcursor.of_steady (steady_afterRound hspared)
    rw [traverse]
    rcases next_cases hlater.toIndexed hmoved with
      ⟨hnext, hnone⟩ | ⟨e, found, hfirst, hnext, hvalue, hahead⟩
    · rw [hnext]
      exact .ended hspared hnone
    · rw [hnext] at hrest ⊢
      exact .visited hspared hfirst hvalue (ih hlater hahead hrest)

namespace Tour

variable {rounds : List (List TableOperation)} {visits : List Visit}

theorem known (h : Tour t place rounds visits) : ∀ visit ∈ visits, visit.answer ≠ .unknownKey := by
  induction h with
  | waiting => simp
  | ended => simp
  | visited _ _ _ _ ih => simpa using ih

/-- What a step yields is live in the table of that moment. -/
theorem current (h : Tour t place rounds visits) :
    ∀ visit ∈ visits, ∀ key value, visit.answer = .entry key value →
      value = visit.table.get key ∧ value.isNil = false := by
  induction h with
  | waiting => simp
  | ended => simp
  | visited _ hfirst hvalue _ ih =>
    intro visit hmem key value hanswer
    rcases List.mem_cons.mp hmem with rfl | hmem
    · cases hanswer
      exact ⟨hvalue.symm, by simpa [Entry.isLive] using hfirst.live⟩
    · exact ih visit hmem key value hanswer

theorem ordered (h : Tour t place rounds visits) :
    (visits.filterMap Visit.key?).Sublist (t.behind place) := by
  induction h with
  | waiting => exact List.nil_sublist _
  | ended => exact List.nil_sublist _
  | @visited t place round rest visits e found hspared hfirst hvalue hrest ih =>
    have hbehind := (steady_afterRound hspared).behind_sublist place
    rw [hfirst.behind] at hbehind
    exact (ih.cons_cons e.key).trans hbehind

/-- A step for each key that is left is enough, and one more for the end. -/
theorem finishes (h : Tour t place rounds visits)
    (hlong : (t.behind place).length < rounds.length) :
    (visits.getLast?).map (·.answer) = some .finished := by
  induction h with
  | waiting => exact absurd hlong (Nat.not_lt_zero _)
  | ended => rfl
  | @visited t place round rest visits e found hspared hfirst hvalue hrest ih =>
    have hbehind := ((steady_afterRound hspared).behind_sublist place).length_le
    rw [hfirst.behind, List.length_cons] at hbehind
    have hlast := ih (by simp only [List.length_cons] at hlong; omega)
    cases hvisits : visits with
    | nil => simp [hvisits] at hlast
    | cons visit others => simpa [hvisits] using hlast

/-- Every key has its turn: all steps before it yield keys that stand in front of it, and it is
yielded then unless it has been cleared before. -/
theorem has_turn (h : Tour t place rounds visits) (ht : t.Consistent) {v : Value} {at' : Nat}
    (hlives : t.LivesAt at' v) (hle : place ≤ at') (hkey : Key.ofValue? v = some key)
    (hend : (visits.getLast?).map (·.answer) = some .finished) :
    ∃ before visit after, visits = before ++ visit :: after ∧
      (∀ earlier ∈ before, ∃ front, earlier.key? = some front ∧
        [front, v].Sublist (t.behind place)) ∧
      (visit.answer = .entry v (visit.table.get v) ∨
        ∃ op ∈ (rounds.take (before.length + 1)).flatten, op.Clears key) := by
  induction h with
  | waiting => simp at hend
  | @ended t place round rest hspared hnone =>
    refine ⟨[], _, [], rfl, by simp, Or.inr ?_⟩
    by_contra hkept
    have hkept' : ∀ op ∈ round, ¬ op.Clears key := by simpa using hkept
    have hmem := (hlives.afterRound ht hspared hkey hkept').mem_behind hle
    simp [hnone] at hmem
  | @visited t place round rest visits e found hspared hfirst hvalue hrest ih =>
    -- An entry that the round has not cleared stands at its place still: it comes next, or
    -- behind the one that comes next.
    by_cases hkept : ∀ op ∈ round, ¬ op.Clears key
    · have hstill := hlives.afterRound ht hspared hkey hkept
      rcases Nat.eq_or_lt_of_le (hfirst.first at' v hle hstill) with rfl | hlt
      · obtain ⟨e', hplace', rfl, -⟩ := hstill
        obtain rfl : e = e' := Option.some.inj (hfirst.get.symm.trans hplace')
        exact ⟨[], _, visits, rfl, by simp, Or.inl (by simp [hvalue])⟩
      · have hbehind := (steady_afterRound hspared).behind_sublist place
        rw [hfirst.behind] at hbehind
        have hlast : (visits.getLast?).map (·.answer) = some .finished := by
          cases hvisits : visits with
          | nil => simp [hvisits] at hend
          | cons visit others => simpa [hvisits] using hend
        obtain ⟨before, visit, after, hsplit, hfront, hturn⟩ :=
          ih (ht.afterRound round) hstill hlt hlast
        refine ⟨⟨t.afterRound round, .entry e.key e.value⟩ :: before, visit, after,
          by simp [hsplit], ?_, ?_⟩
        · intro earlier hmem
          rcases List.mem_cons.mp hmem with rfl | hmem
          · have hlater := List.singleton_sublist.mpr (hstill.mem_behind hlt)
            exact ⟨e.key, rfl, (hlater.cons_cons e.key).trans hbehind⟩
          · obtain ⟨front, hyield, hsub⟩ := hfront earlier hmem
            exact ⟨front, hyield, (hsub.cons e.key).trans hbehind⟩
        · refine hturn.imp_right ?_
          rintro ⟨op, hmem, hclears⟩
          refine ⟨op, ?_, hclears⟩
          simpa using Or.inr hmem
    · obtain ⟨op, hmem, hclears⟩ : ∃ op ∈ round, op.Clears key := by simpa using hkept
      exact ⟨[], _, visits, rfl, by simp, Or.inr ⟨op, by simpa using hmem, hclears⟩⟩

end Tour

/-! ## Whole traversals -/

/-- A traversal that has come to its end has met every key in its turn. -/
structure Completes (t : Table) (rounds : List (List TableOperation)) (visits : List Visit) :
    Prop where
  known : ∀ visit ∈ visits, visit.answer ≠ .unknownKey
  finishes : (visits.getLast?).map (·.answer) = some .finished
  ordered : (visits.filterMap Visit.key?).Sublist (t.pairs.map (·.1))
  distinct : ((t.pairs.map (·.1)).map Key.ofValue?).Nodup
  current : ∀ visit ∈ visits, ∀ key value, visit.answer = .entry key value →
    value = visit.table.get key ∧ value.isNil = false
  turns : ∀ v ∈ t.pairs.map (·.1), ∃ before visit after, visits = before ++ visit :: after ∧
    (∀ earlier ∈ before, ∃ front, earlier.key? = some front ∧
      [front, v].Sublist (t.pairs.map (·.1))) ∧
    (visit.answer = .entry v (visit.table.get v) ∨
      ∃ op ∈ (rounds.take (before.length + 1)).flatten, ∃ key,
        Key.ofValue? v = some key ∧ op.Clears key)

theorem Consistent.distinct_keys (ht : t.Consistent) :
    ((t.pairs.map (·.1)).map Key.ofValue?).Nodup := by
  have hcanonical : (t.pairs.map (·.1)).map Key.ofValue? =
      (t.bindings.map (·.key)).map some := by
    have hrepresents : t.Represents t.bindings := Denotes.represents ⟨ht, rfl⟩
    rw [hrepresents.pairs, List.map_map, List.map_map, List.map_map]
    exact List.map_congr_left fun b hb => hrepresents.canonical b hb
  rw [hcanonical]
  exact ht.nodup_keys.map (Option.some_injective _)

theorem exists_livesAt_of_mem_pairs {v : Value} (hmem : v ∈ t.pairs.map (·.1)) :
    ∃ place, t.LivesAt place v := by
  rw [← behind_zero, behind, List.drop_zero] at hmem
  obtain ⟨e, he, rfl⟩ := List.mem_map.mp hmem
  obtain ⟨hentry, hlive⟩ := List.mem_filter.mp he
  obtain ⟨place, hplace⟩ := List.getElem?_of_mem hentry
  exact ⟨place, e, hplace, rfl, hlive⟩

/-- A traversal of the whole table, from any history and with anything permitted in between,
knows its key at every step and comes to the end.  It yields keys in the order of insertion and
none twice, each with its value of that moment, and every key whose turn comes before it is
cleared. -/
theorem completes_traverse (history : List TableOperation) (rounds : List (List TableOperation))
    (hundisturbed : (afterRound {} history).Undisturbed .nil rounds)
    (hlong : (afterRound {} history).count < rounds.length) :
    (afterRound {} history).Completes rounds ((afterRound {} history).traverse .nil rounds) := by
  generalize hstart : afterRound {} history = t at hundisturbed hlong ⊢
  have ht : t.Consistent := hstart ▸ consistent_empty.afterRound history
  have htour := tour_traverse ht (Or.inl ⟨rfl, rfl⟩) hundisturbed
  have hcount : (t.behind 0).length < rounds.length := by
    rw [behind_zero, List.length_map]
    simpa [count, pairs] using hlong
  have hend := htour.finishes hcount
  constructor
  · exact htour.known
  · exact hend
  · rw [← behind_zero]
    exact htour.ordered
  · exact ht.distinct_keys
  · exact htour.current
  · intro v hmem
    obtain ⟨place, hlives⟩ := exists_livesAt_of_mem_pairs hmem
    obtain ⟨e, hplace, rfl, -⟩ := id hlives
    obtain ⟨key, hkey⟩ := ht.keyed e (List.mem_of_getElem? hplace)
    obtain ⟨before, visit, after, hsplit, hfront, hturn⟩ :=
      htour.has_turn ht hlives (Nat.zero_le _) hkey hend
    rw [behind_zero] at hfront
    refine ⟨before, visit, after, hsplit, hfront, hturn.imp_right ?_⟩
    rintro ⟨op, hop, hclears⟩
    exact ⟨op, hop, key, hkey, hclears⟩

/-- Three keys, of which the second one is cleared and the third one gets another value before
their turns. -/
theorem completes_clearing :
    let history : List TableOperation :=
      [.setInteger 1 (.boolean true), .set (.boolean true) (.boolean false),
        .setInteger 2 (.boolean true)]
    let rounds : List (List TableOperation) :=
      [[], [.set (.boolean true) .nil, .askLength, .setInteger 2 (.boolean false)], [], []]
    (afterRound {} history).Undisturbed .nil rounds ∧
      (afterRound {} history).count < rounds.length ∧
      (afterRound {} history).Completes rounds ((afterRound {} history).traverse .nil rounds) :=
  ⟨by decide +kernel, by decide +kernel,
    completes_traverse _ _ (by decide +kernel) (by decide +kernel)⟩

end Table

end ScriptEngine
