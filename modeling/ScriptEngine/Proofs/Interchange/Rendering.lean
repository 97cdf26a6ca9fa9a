import Mathlib.Data.List.Forall2
import Mathlib.Data.List.Pairwise
import ScriptEngine.Proofs.Interchange.Nesting

/-!
# What a document shows of a table

A document shows the entries of a table one by one, those of a sequence as items and all
others as members.  Keys that have the same text, a number and the string it is written as,
name the same member, and the last of their entries is the one that stays.  So a document
shows all that is in a value exactly if no two keys of a table in it have the same text.
-/

namespace ScriptEngine

variable {H : HostTypes}

/-! ## Texts of keys -/

/-- The text of a key that has one. -/
def Value.spelling? (k : Value) : Option String := (JsonValue.memberName k).toOption

namespace Table

variable {e f : Value × Value} {entries rest : List (Value × Value)}

/-- The texts of the keys, in the order of the entries. -/
def spellings (entries : List (Value × Value)) : List (Option String) :=
  entries.map fun e => e.1.spelling?

/-- The entries with no later one whose key has the same text. -/
def lastSpelled (entries : List (Value × Value)) : List (Value × Value) :=
  entries.pwFilter fun e f => e.1.spelling? ≠ f.1.spelling?

theorem lastSpelled_cons :
    lastSpelled (e :: rest) =
      if e.1.spelling? ∈ spellings rest then lastSpelled rest else e :: lastSpelled rest := by
  have hlater : (∀ f ∈ lastSpelled rest, e.1.spelling? ≠ f.1.spelling?) ↔
      e.1.spelling? ∉ spellings rest := by
    unfold lastSpelled spellings
    rw [List.forall_mem_pwFilter fun hne => ?_]
    · simp [eq_comm]
    · by_contra hsame
      push Not at hsame
      exact hne (hsame.1.trans hsame.2)
  split
  · next hmem => exact List.pwFilter_cons_of_neg (mt hlater.mp (not_not_intro hmem))
  · next hmem => exact List.pwFilter_cons_of_pos (hlater.mpr hmem)

/-- All entries stay if no two keys have the same text. -/
theorem lastSpelled_eq_self (h : (spellings entries).Nodup) : lastSpelled entries = entries := by
  refine List.pwFilter_eq_self.mpr ?_
  exact List.pairwise_map.mp h

end Table

namespace World

open Table

/-- A document shows a value and all that is in it: each of the entries of a table that count
has an item or a member of its own, and there are no other items and members. -/
inductive Renders (w : World H) (counted : List (Value × Value) → List (Value × Value)) :
    Value → JsonValue → Prop where
  | null {v : Value} (hv : v.toStorable = .nil) : Renders w counted v .null
  | boolean {v : Value} {b : Bool} (hv : v.toStorable = .boolean b) :
      Renders w counted v (.boolean b)
  | number {v : Value} {n : Float} {j : JsonValue} (hv : v.toStorable = .number n)
      (hj : JsonValue.ofNumber n = .ok j) : Renders w counted v j
  | string {v : Value} {s : String} (hv : v.toStorable = .string s) :
      Renders w counted v (.string s)
  | array {v : Value} {r : TableRef} {entries : List (Value × Value)} {items : List JsonValue}
      (hv : v.toStorable = .table r) (hsequence : (w.table r).IsSequence)
      (hentries : entries.Perm (w.table r).pairs)
      (hkeys : (entries.map fun e => Key.ofValue? e.1) =
        (List.range items.length).map fun i => some (.position (i + 1)))
      (hitems : ∀ p ∈ entries.zip items, Renders w counted p.1.2 p.2) :
      Renders w counted v (.array items)
  | object {v : Value} {r : TableRef} {entries : List (Value × Value)}
      {members : List (String × JsonValue)}
      (hv : v.toStorable = .table r) (hsequence : ¬ (w.table r).IsSequence)
      (hentries : entries.Perm (counted (w.table r).pairs))
      (hnames : spellings entries = members.map fun m => some m.1)
      (hsorted : (members.map (·.1)).Pairwise (· < ·))
      (hmembers : ∀ p ∈ entries.zip members, Renders w counted p.1.2 p.2.2) :
      Renders w counted v (.object members)

/-- No two keys of a table in the value, other than a sequence, have the same text. -/
def SpellsApart (w : World H) (v : Value) : Prop :=
  ∀ r, w.Contains v (.table r) → ¬ (w.table r).IsSequence →
    (spellings (w.table r).pairs).Nodup

variable {w : World H} {v u : Value} {r : TableRef} {j : JsonValue}

theorem SpellsApart.inner (h : w.SpellsApart v) (hv : v.toStorable = .table r)
    (hu : u ∈ (w.table r).values) : w.SpellsApart u := by
  intro s hs
  exact h s (.inner hv hu hs)

theorem SpellsApart.of_scalar (hv : ∀ r, v.toStorable ≠ .table r) : w.SpellsApart v := by
  intro r hr
  exact absurd ((contains_scalar_iff hv).mp hr).symm (hv r)

/-- An entry that is among as many has one that it is shown by. -/
theorem exists_mem_zip {β : Type} {entries shown : List (Value × Value)} {parts : List β}
    (hentries : entries.Perm shown) (hlength : entries.length = parts.length)
    (hu : u ∈ shown.map (·.2)) : ∃ p ∈ entries.zip parts, p.1.2 = u := by
  obtain ⟨e, he, rfl⟩ := List.mem_map.mp hu
  rw [← hentries.mem_iff, ← List.map_fst_zip hlength.le] at he
  obtain ⟨p, hp, rfl⟩ := List.mem_map.mp he
  exact ⟨p, hp, rfl⟩

/-- If all entries are shown, no two keys have the same text. -/
theorem Renders.spellsApart (h : w.Renders id v j) : w.SpellsApart v := by
  induction h with
  | null hv => exact .of_scalar (by simp [hv])
  | boolean hv => exact .of_scalar (by simp [hv])
  | number hv => exact .of_scalar (by simp [hv])
  | string hv => exact .of_scalar (by simp [hv])
  | array hv hsequence hentries hkeys _ ih =>
    intro s hs hother
    rcases (contains_table_iff hv).mp hs with hsame | ⟨u, hu, hs⟩
    · cases hsame
      exact absurd hsequence hother
    · have hlength := congrArg List.length hkeys
      obtain ⟨p, hp, rfl⟩ := exists_mem_zip hentries (by simpa using hlength) hu
      exact ih p hp s hs hother
  | @object _ _ entries members hv _ hentries hnames hsorted _ ih =>
    intro s hs hother
    rcases (contains_table_iff hv).mp hs with hsame | ⟨u, hu, hs⟩
    · cases hsame
      have hdistinct : (members.map (·.1)).Nodup := hsorted.imp fun hlt => ne_of_lt hlt
      have hspellings := hdistinct.map (Option.some_injective String)
      rw [List.map_map, Function.comp_def, ← hnames] at hspellings
      exact (hentries.map _).nodup_iff.mp hspellings
    · have hlength := congrArg List.length hnames
      obtain ⟨p, hp, rfl⟩ := exists_mem_zip hentries (by simpa [spellings] using hlength) hu
      exact ih p hp s hs hother

/-- If no two keys have the same text, no entry is passed over. -/
theorem Renders.all (h : w.Renders lastSpelled v j) (hv : w.SpellsApart v) :
    w.Renders id v j := by
  induction h with
  | null hv' => exact .null hv'
  | boolean hv' => exact .boolean hv'
  | number hv' hj => exact .number hv' hj
  | string hv' => exact .string hv'
  | array hv' hsequence hentries hkeys _ ih =>
    refine .array hv' hsequence hentries hkeys fun p hp => ih p hp (hv.inner hv' ?_)
    exact List.mem_map_of_mem (hentries.mem_iff.mp (List.of_mem_zip hp).1)
  | object hv' hother hentries hnames hsorted _ ih =>
    have hall := hv _ (by rw [← hv']; exact .here _) hother
    rw [lastSpelled_eq_self hall] at hentries
    refine .object hv' hother hentries hnames hsorted fun p hp => ih p hp (hv.inner hv' ?_)
    exact List.mem_map_of_mem (hentries.mem_iff.mp (List.of_mem_zip hp).1)

end World

/-! ## Writing -/

namespace JsonValue

open Table

variable {convert : Value → Except ConversionError JsonValue} {name : String} {j : JsonValue}
  {members before : List (String × JsonValue)}

/-- A member that is put in its place takes the place of one of the same name. -/
theorem insertMember_perm (h : (before.map (·.1)).Pairwise (· < ·)) :
    (insertMember name j before).Perm ((name, j) :: before.filter (·.1 ≠ name)) := by
  induction before with
  | nil => simp [insertMember]
  | cons m rest ih =>
    obtain ⟨n, u⟩ := m
    obtain ⟨hfirst, hrest⟩ := List.pairwise_cons.mp h
    have hlater : ∀ m ∈ rest, n < m.1 := fun m hm => hfirst m.1 (List.mem_map_of_mem hm)
    have hkept {n' : String} (hn' : n' ≤ n) : ∀ m ∈ rest, m.1 ≠ n' := fun m hm =>
      (hn'.trans_lt (hlater m hm)).ne'
    rw [insertMember]
    split
    · next hlt =>
      rw [List.filter_eq_self.mpr]
      simpa [hlt.ne'] using fun a b hab => hkept hlt.le (a, b) hab
    · next hle =>
      split
      · next heq =>
        subst heq
        rw [List.filter_cons_of_neg (by simp), List.filter_eq_self.mpr]
        simpa using fun a b hab => hkept le_rfl (a, b) hab
      · next hne =>
        rw [List.filter_cons_of_pos (by simpa using hne)]
        exact ((ih hrest).cons _).trans (.swap _ _ _)

theorem sorted_insertMember (h : (before.map (·.1)).Pairwise (· < ·)) :
    ((insertMember name j before).map (·.1)).Pairwise (· < ·) := by
  induction before with
  | nil => simp [insertMember]
  | cons m rest ih =>
    obtain ⟨n, u⟩ := m
    obtain ⟨hfirst, hrest⟩ := List.pairwise_cons.mp h
    rw [insertMember]
    split
    · next hlt =>
      refine List.pairwise_cons.mpr ⟨fun m hm => ?_, h⟩
      rcases List.mem_cons.mp hm with rfl | hm
      · exact hlt
      · exact hlt.trans (hfirst m hm)
    · next hle =>
      split
      · next heq =>
        subst heq
        exact h
      · next hne =>
        refine List.pairwise_cons.mpr ⟨fun m hm => ?_, ih hrest⟩
        rw [((insertMember_perm hrest).map _).mem_iff] at hm
        rcases List.mem_cons.mp hm with rfl | hm
        · exact lt_of_le_of_ne (not_lt.mp hle) hne
        · exact hfirst m (List.map_subset _ (List.filter_subset_self _) hm)

/-- How an entry of a table and a member of a document correspond. -/
def Becomes (convert : Value → Except ConversionError JsonValue) (e : Value × Value)
    (m : String × JsonValue) : Prop :=
  e.1.spelling? = some m.1 ∧ convert e.2 = .ok m.2

/-- The members are those of the last entries of each text, and of those from before the
ones that no entry has the text of. -/
theorem ofEntries_members {entries : List (Value × Value)}
    (h : ofEntries convert entries before = .ok members)
    (hbefore : (before.map (·.1)).Pairwise (· < ·)) :
    (members.map (·.1)).Pairwise (· < ·) ∧
      ∃ new, List.Forall₂ (Becomes convert) (lastSpelled entries) new ∧
        members.Perm (new ++ before.filter fun m => some m.1 ∉ spellings entries) := by
  induction entries generalizing before with
  | nil =>
    cases h
    refine ⟨hbefore, [], .nil, ?_⟩
    simp [spellings]
  | cons e rest ih =>
    obtain ⟨k, v⟩ := e
    rw [ofEntries] at h
    cases hname : memberName k with
    | error _ => simp [hname, bind, Except.bind] at h
    | ok name =>
      cases hj : convert v with
      | error _ => simp [hname, hj, bind, Except.bind] at h
      | ok j =>
        simp only [hname, hj, bind, Except.bind] at h
        obtain ⟨hsorted, new, hnew, hperm⟩ := ih h (sorted_insertMember hbefore)
        have hspelling : k.spelling? = some name := by
          simp [Value.spelling?, hname, Except.toOption]
        have hall : spellings ((k, v) :: rest) = some name :: spellings rest := by
          simp [spellings, hspelling]
        have hkept : ((before.filter (·.1 ≠ name)).filter fun m => some m.1 ∉ spellings rest) =
            before.filter fun m => some m.1 ∉ spellings ((k, v) :: rest) := by
          simp [hall, List.filter_filter, Bool.and_comm]
        have hperm := hperm.trans (((insertMember_perm hbefore).filter _).append_left new)
        refine ⟨hsorted, ?_⟩
        rw [lastSpelled_cons, hspelling]
        -- A later entry of the same text takes the place of this one.
        split
        · next hlater =>
          rw [List.filter_cons_of_neg (by simpa using hlater), hkept] at hperm
          exact ⟨new, hnew, hperm⟩
        · next hlast =>
          rw [List.filter_cons_of_pos (by simpa using hlast), hkept] at hperm
          exact ⟨(name, j) :: new, .cons ⟨hspelling, hj⟩ hnew, hperm.trans List.perm_middle⟩

theorem ofAll_items {values : List Value} {items : List JsonValue}
    (h : ofAll convert values = .ok items) :
    List.Forall₂ (fun v j => convert v = .ok j) values items := by
  induction values generalizing items with
  | nil =>
    cases h
    exact .nil
  | cons v rest ih =>
    rw [ofAll] at h
    cases hv : convert v with
    | error _ => simp [hv, bind, Except.bind] at h
    | ok j =>
      cases hrest : ofAll convert rest with
      | error _ => simp [hv, hrest, bind, Except.bind] at h
      | ok js =>
        simp only [hv, hrest, bind, Except.bind, pure, Except.pure] at h
        cases h
        exact .cons hv (ih hrest)

/-- What a table becomes: a sequence an array with an item for each entry, and any other table
an object with a member for each entry that counts. -/
theorem ofTable_parts {t : Table} (ht : t.Consistent) (h : ofTable t convert = .ok j) :
    (t.IsSequence ∧ ∃ entries items, j = .array items ∧ entries.Perm t.pairs ∧
        (entries.map fun e => Key.ofValue? e.1) =
          (List.range items.length).map (fun i => some (.position (i + 1))) ∧
        List.Forall₂ (fun e i => convert e.2 = .ok i) entries items) ∨
      (¬ t.IsSequence ∧ ∃ entries members, j = .object members ∧
        entries.Perm (lastSpelled t.pairs) ∧ (members.map (·.1)).Pairwise (· < ·) ∧
        List.Forall₂ (Becomes convert) entries members) := by
  unfold ofTable at h
  dsimp only at h
  by_cases hsequence : t.IsSequence
  · obtain ⟨entries, hentries, hkeys, hvalues⟩ := ht.exists_arrangement hsequence
    rw [if_pos (ht.isSequence_iff.mp hsequence), ← hvalues] at h
    obtain ⟨items, hitems, rfl⟩ := map_eq_ok_iff.mp h
    have hshown := List.forall₂_map_left_iff.mp (ofAll_items hitems)
    have hlength : t.length = items.length := by
      rw [← hshown.length_eq]
      simpa using (congrArg List.length hkeys).symm
    rw [hlength] at hkeys
    exact Or.inl ⟨hsequence, entries, items, rfl, hentries, hkeys, hshown⟩
  · rw [if_neg (mt ht.isSequence_iff.mpr hsequence)] at h
    obtain ⟨members, hmembers, rfl⟩ := map_eq_ok_iff.mp h
    obtain ⟨hsorted, new, hnew, hperm⟩ := ofEntries_members hmembers .nil
    rw [List.filter_nil, List.append_nil] at hperm
    obtain ⟨entries, hshown, hentries⟩ := List.perm_comp_forall₂ hperm hnew.flip
    exact Or.inr ⟨hsequence, entries, members, rfl, hentries, hsorted, hshown.flip⟩

theorem renders_scalar {w : World H} {v : Value} (hv : ∀ r, v.toStorable ≠ .table r)
    {deeper : Nat} {outer : List TableRef} (h : ofValueWithin w deeper outer v = .ok j) :
    w.Renders lastSpelled v j := by
  rw [ofValueWithin.eq_def] at h
  cases hstorable : v.toStorable with
  | nil =>
    simp only [hstorable] at h
    cases h
    exact .null hstorable
  | void => exact absurd hstorable v.toStorable_ne_void
  | boolean b =>
    simp only [hstorable] at h
    cases h
    exact .boolean hstorable
  | number n =>
    simp only [hstorable] at h
    exact .number hstorable h
  | string s =>
    simp only [hstorable] at h
    cases h
    exact .string hstorable
  | table r => exact absurd hstorable (hv r)
  | _ => simp [hstorable] at h

theorem renders_ofValueWithin {w : World H} (hw : w.TablesArise) (deeper : Nat)
    (outer : List TableRef) {v : Value} (h : ofValueWithin w deeper outer v = .ok j) :
    w.Renders lastSpelled v j := by
  induction deeper generalizing outer v j with
  | zero =>
    refine renders_scalar (fun r hr => ?_) h
    obtain ⟨-, hle, -⟩ := (ofValueWithin_ok_iff hw 0 outer v).mp ⟨j, h⟩
    exact absurd (hle _ (.here hr)) (by simp)
  | succ deeper ih =>
    by_cases hv : ∃ r, v.toStorable = .table r
    · obtain ⟨r, hv⟩ := hv
      rw [ofValueWithin_table w hv] at h
      split at h
      · cases h
      · rcases ofTable_parts (hw.consistent r) h with
          ⟨hsequence, entries, items, rfl, hentries, hkeys, hshown⟩ |
          ⟨hother, entries, members, rfl, hentries, hsorted, hshown⟩
        · refine .array hv hsequence hentries hkeys fun p hp => ?_
          exact ih _ ((List.forall₂_iff_zip.mp hshown).2 hp)
        · have hnames : spellings entries = members.map fun m => some m.1 := by
            rw [← List.forall₂_eq_eq_eq, spellings, List.forall₂_map_left_iff,
              List.forall₂_map_right_iff]
            exact hshown.imp fun _ _ hpart => hpart.1
          refine .object hv hother hentries hnames hsorted fun p hp => ?_
          exact ih _ ((List.forall₂_iff_zip.mp hshown).2 hp).2
    · exact renders_scalar (fun r hr => hv ⟨r, hr⟩) h

/-- The document of a value shows its tables, entry by entry; of the entries whose keys have
the same text it shows the last one.  It shows all there is exactly if no keys of a table
have the same text. -/
theorem renders_ofValue {w : World H} (hw : w.TablesArise) {v : Value}
    (h : ofValue w v = .ok j) :
    w.Renders lastSpelled v j ∧ (w.Renders id v j ↔ w.SpellsApart v) := by
  have hlast := renders_ofValueWithin hw maxDepth [] h
  exact ⟨hlast, World.Renders.spellsApart, hlast.all⟩

/-- A number as a key and, after it, the text of the number. -/
def spelledAlike : Table :=
  (performAll perform {}
    [.set (.number 2) (.string "a"), .setName "2" (.string "b")]).2

theorem arises_spelledAlike : spelledAlike.Arises := Table.Arises.empty.performAll _

/-- A bare world with that table. -/
def withSpelledAlike : TableRef × World Workbench.types :=
  World.addTable (.start { modules := ⟨false, false, false⟩ } {}) spelledAlike

theorem tablesArise_withSpelledAlike : withSpelledAlike.2.TablesArise := by
  have hstart := World.tablesArise_start (H := Workbench.types)
  exact (hstart _ _).addTable arises_spelledAlike

theorem ofValue_withSpelledAlike :
    ofValue withSpelledAlike.2 (.table withSpelledAlike.1) =
      .ok (.object [("2", .string "b")]) := by
  rfl

/-- The member that is shown is that of the later entry. -/
theorem renders_last :
    withSpelledAlike.2.TablesArise ∧
      ofValue withSpelledAlike.2 (.table withSpelledAlike.1) =
        .ok (.object [("2", .string "b")]) ∧
      withSpelledAlike.2.Renders lastSpelled (.table withSpelledAlike.1)
        (.object [("2", .string "b")]) :=
  ⟨tablesArise_withSpelledAlike, ofValue_withSpelledAlike,
    (renders_ofValue tablesArise_withSpelledAlike ofValue_withSpelledAlike).1⟩

/-- Of two entries only one is shown. -/
theorem loses_first :
    withSpelledAlike.2.TablesArise ∧
      ofValue withSpelledAlike.2 (.table withSpelledAlike.1) =
        .ok (.object [("2", .string "b")]) ∧
      spelledAlike.count = 2 ∧
      ¬ withSpelledAlike.2.Renders id (.table withSpelledAlike.1)
        (.object [("2", .string "b")]) := by
  refine ⟨tablesArise_withSpelledAlike, ofValue_withSpelledAlike, by decide +kernel, fun h => ?_⟩
  have hapart := h.spellsApart withSpelledAlike.1 (.here _)
  rw [withSpelledAlike, World.table_addTable] at hapart
  have hother : ¬ spelledAlike.IsSequence := by
    rw [arises_spelledAlike.consistent.isSequence_iff]
    decide +kernel
  exact absurd (hapart hother) (by decide +kernel)

end JsonValue

end ScriptEngine
