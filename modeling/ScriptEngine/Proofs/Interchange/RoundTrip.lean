import ScriptEngine.Interchange.Json
import ScriptEngine.Proofs.Number.Nearest
import ScriptEngine.Proofs.Table.Filling
import ScriptEngine.Workbench.Functions

/-!
# Documents that come back

A document that is read into tables and written again is the same document, if it has
nothing that reading drops (null, and arrays with no items, which no table tells from
objects with no members) and its numbers are written the way numbers are recognised.  The
tables that are made for it are new and stay as they were made; so what holds of a value
when it has been read holds in every later world, and no table is found within itself.
-/

namespace ScriptEngine

variable {H : HostTypes}

namespace World

/-- What there was in the first world is in the second as it was. -/
structure Precedes (w w' : World H) : Prop where
  nextId : w.nextId ≤ w'.nextId
  object? : ∀ id < w.nextId, w'.object? id = w.object? id

theorem Precedes.refl (w : World H) : w.Precedes w := by
  refine ⟨le_refl _, fun _ _ => ?_⟩
  rfl

theorem Precedes.trans {w w' w'' : World H} (h : w.Precedes w') (h' : w'.Precedes w'') :
    w.Precedes w'' := by
  refine ⟨h.nextId.trans h'.nextId, fun id hid => ?_⟩
  rw [h'.object? id (hid.trans_le h.nextId), h.object? id hid]

theorem precedes_add (w : World H) (o : Object H) : w.Precedes (w.add o) := by
  constructor
  · simp
  · intro _ hid
    exact w.object?_add_of_ne o hid.ne

end World

namespace JsonValue

/-- A document that loses nothing when it is read.  The members of an object are in the
order of their names, each name once; an array has no more items than there are
positions, which no memory exceeds. -/
inductive Faithful : JsonValue → Prop where
  | boolean (b : Bool) : Faithful (.boolean b)
  | integer {n : Int} (hn : n.natAbs < 2 ^ 53) : Faithful (.integer n)
  | float {x : Float} (hfinite : x.isFinite = true)
      (hx : Double.isWhole x = false ∨ 9007199254740992 ≤ x.abs) : Faithful (.float x)
  | string (s : String) : Faithful (.string s)
  | array {items : List JsonValue} (hsome : items ≠ [])
      (hlength : items.length ≤ Key.maxPosition) (hitems : ∀ j ∈ items, Faithful j) :
      Faithful (.array items)
  | object {members : List (String × JsonValue)}
      (hnames : (members.map (·.1)).Pairwise (· < ·)) (hmembers : ∀ m ∈ members, Faithful m.2) :
      Faithful (.object members)

/-! ## Numbers -/

theorem isWholeNumber_nearest {i : Int} (hi : i ≠ 0) (hlt : i.natAbs < 2 ^ 53) :
    ∃ sign, Double.IsWholeNumber (nearest i) sign i.natAbs ∧ sign.apply i.natAbs = i := by
  have hnormal := Double.isNormal_ofNat (n := i.natAbs) (by omega) hlt
  unfold nearest
  rw [Double.ofRatio_one (by omega) hlt]
  by_cases hnegative : i < 0
  · refine ⟨.negative, ?_, ?_⟩
    · simp only [hnegative, if_true]
      exact hnormal.neg
    · simp only [Float.Model.UnpackedFloat.Sign.apply]
      omega
  · refine ⟨.positive, ?_, ?_⟩
    · simp only [hnegative, if_false]
      exact hnormal
    · simp only [Float.Model.UnpackedFloat.Sign.apply]
      omega

/-- A small integer is recognised. -/
theorem ofNumber_nearest {i : Int} (hlt : i.natAbs < 2 ^ 53) :
    ofNumber (nearest i) = .ok (.integer i) := by
  by_cases hi : i = 0
  · subst hi
    have hwhole : (Double.isWhole (nearest 0) &&
        decide (Float.abs (nearest 0) < 9007199254740992)) = true := by
      decide +kernel
    have htruncate : (Dyadic.ofFloat (nearest 0)).truncate = 0 := by decide +kernel
    rw [ofNumber, if_pos hwhole, htruncate]
  · obtain ⟨sign, hwhole, hsign⟩ := isWholeNumber_nearest hi hlt
    have hpos : 0 < i.natAbs := by omega
    rw [ofNumber, hwhole.isWhole, hwhole.truncate hpos hlt, hsign,
      if_pos (by simpa using hwhole.abs_lt_limit hpos hlt)]

/-- A number that is no small integer stays as it is. -/
theorem ofNumber_float {x : Float} (hfinite : x.isFinite = true)
    (hx : Double.isWhole x = false ∨ 9007199254740992 ≤ x.abs) :
    ofNumber x = .ok (.float x) := by
  rw [ofNumber, if_neg, if_pos hfinite]
  rw [Bool.and_eq_true, decide_eq_true_iff]
  rintro ⟨hwhole, hlt⟩
  rcases hx with hbroken | hlarge
  · rw [hbroken] at hwhole
    cases hwhole
  · exact Double.not_lt_of_le hlarge hlt

/-! ## Containers -/

theorem depth_le_depthOfItems {items : List JsonValue} {j : JsonValue} (hj : j ∈ items) :
    j.depth ≤ depthOfItems items := by
  induction items with
  | nil => cases hj
  | cons i rest ih =>
    rw [depthOfItems]
    rcases List.mem_cons.mp hj with rfl | hrest
    · exact le_max_left _ _
    · exact (ih hrest).trans (le_max_right _ _)

theorem depth_le_depthOfMembers {members : List (String × JsonValue)} {m : String × JsonValue}
    (hm : m ∈ members) : m.2.depth ≤ depthOfMembers members := by
  induction members with
  | nil => cases hm
  | cons n rest ih =>
    rw [depthOfMembers]
    rcases List.mem_cons.mp hm with rfl | hrest
    · exact le_max_left _ _
    · exact (ih hrest).trans (le_max_right _ _)

/-- The values of several documents, read one after the other. -/
def toValues (w : World H) : List JsonValue → List Value × World H
  | [] => ([], w)
  | j :: rest =>
    let (v, w) := j.toValue w
    let (vs, w) := toValues w rest
    (v :: vs, w)

/-- The tables of an array and of an object are those of the values of their parts. -/
theorem itemsToTable_eq (w : World H) {i : Nat} (t : Table) {items : List JsonValue}
    (hpos : 1 ≤ i) (hlast : i + items.length ≤ Key.maxPosition + 1)
    (hvalues : ∀ v ∈ (toValues w items).1, v.toStorable = v) :
    itemsToTable w i t items =
      (t.writeAll (Association.sequence i (toValues w items).1), (toValues w items).2) := by
  induction items generalizing w i t with
  | nil => rfl
  | cons j rest ih =>
    rw [List.length_cons] at hlast
    have hstorable := hvalues _ List.mem_cons_self
    have hset : t.setInt i (j.toValue w).1 =
        t.setKey (.position i) (.number (Float.ofInt i)) (j.toValue w).1 := by
      rw [Table.setInt, Key.ofValue?_position hpos (by omega)]
      simp only [hstorable]
    have hrest := ih (j.toValue w).2 (t.setInt i (j.toValue w).1) (by omega : 1 ≤ i + 1)
      (by omega) fun v hv => hvalues v (List.mem_cons_of_mem _ hv)
    rw [itemsToTable]
    refine hrest.trans ?_
    rw [hset]
    rfl

theorem membersToTable_eq (w : World H) (t : Table) {members : List (String × JsonValue)}
    (hvalues : ∀ v ∈ (toValues w (members.map (·.2))).1, v.toStorable = v) :
    membersToTable w t members =
      (t.writeAll (Association.named (members.map (·.1)) (toValues w (members.map (·.2))).1),
        (toValues w (members.map (·.2))).2) := by
  induction members generalizing w t with
  | nil => rfl
  | cons m rest ih =>
    obtain ⟨name, j⟩ := m
    have hstorable := hvalues _ List.mem_cons_self
    have hset : t.setName name (j.toValue w).1 =
        t.setKey (.name name) (.string name) (j.toValue w).1 := by
      rw [Table.setName, hstorable]
    have hrest := ih (j.toValue w).2 (t.setName name (j.toValue w).1) fun v hv =>
      hvalues v (List.mem_cons_of_mem _ hv)
    rw [membersToTable]
    refine hrest.trans ?_
    rw [hset]
    rfl

/-- What several values are written as, if each of them is written as its document. -/
theorem ofAll_eq {convert : Value → Except ConversionError JsonValue} {items : List JsonValue}
    {values : List Value} (h : List.Forall₂ (fun j v => convert v = .ok j) items values) :
    ofAll convert values = .ok items := by
  induction h with
  | nil => rfl
  | cons hj _ ih =>
    rw [ofAll, hj, ih]
    rfl

theorem insertMember_of_last {name : String} (j : JsonValue)
    {members : List (String × JsonValue)} (h : ∀ m ∈ members, m.1 < name) :
    insertMember name j members = members ++ [(name, j)] := by
  induction members with
  | nil => rfl
  | cons m rest ih =>
    have hm := h m List.mem_cons_self
    rw [insertMember, if_neg (not_lt_of_gt hm), if_neg (ne_of_lt hm),
      ih fun n hn => h n (List.mem_cons_of_mem _ hn)]
    rfl

/-- Members that come in the order of their names stay in that order. -/
theorem ofEntries_eq {convert : Value → Except ConversionError JsonValue}
    {members before : List (String × JsonValue)} {values : List Value}
    (h : List.Forall₂ (fun m v => convert v = .ok m.2) members values)
    (hnames : (before.map (·.1) ++ members.map (·.1)).Pairwise (· < ·)) :
    ofEntries convert
        ((Association.named (members.map (·.1)) values).map fun b => (b.written, b.value))
        before =
      .ok (before ++ members) := by
  induction h generalizing before with
  | nil => simp [Association.named, ofEntries]
  | @cons m v members values hm _ ih =>
    have hlast : ∀ n ∈ before, n.1 < m.1 := by
      intro n hn
      rw [List.pairwise_append] at hnames
      exact hnames.2.2 n.1 (List.mem_map_of_mem hn) m.1 (by simp)
    have hnext : ((before ++ [m]).map (·.1) ++ members.map (·.1)).Pairwise (· < ·) := by
      simpa using hnames
    have hrest := ih hnext
    rw [List.append_assoc, List.singleton_append] at hrest
    refine Eq.trans ?_ hrest
    simp only [Association.named, List.map_cons, List.zip_cons_cons, ofEntries, memberName, hm]
    change ofEntries convert _ (insertMember m.1 m.2 before) = _
    rw [insertMember_of_last m.2 hlast]

/-- Reading has left a value in the world that is written as the document, from now on and
within any tables that are made later. -/
structure Carries (w : World H) (j : JsonValue) (v : Value) : Prop where
  storable : v.toStorable = v
  live : v.isNil = false
  written : ∀ w', w.Precedes w' → ∀ deeper outer, j.depth ≤ deeper →
    (∀ r ∈ outer, w.nextId ≤ r.id) → ofValueWithin w' deeper outer v = .ok j

theorem Carries.later {w w' : World H} {j : JsonValue} {v : Value} (h : Carries w j v)
    (hlater : w.Precedes w') : Carries w' j v where
  storable := h.storable
  live := h.live
  written w'' hw deeper outer hdepth houter :=
    h.written w'' (hlater.trans hw) deeper outer hdepth fun r hr =>
      hlater.nextId.trans (houter r hr)

/-- A value that is no table is written the same way everywhere. -/
theorem carries_plain (w : World H) {j : JsonValue} {v : Value}
    (hscalar : ∀ items, v ≠ .tuple items) (hlive : v.isNil = false)
    (hwritten : v.toStorable = v →
      ∀ w' : World H, ∀ deeper outer, ofValueWithin w' deeper outer v = .ok j) :
    Carries w j v := by
  have hstorable := Value.toStorable_eq_self hscalar hlive
  exact ⟨hstorable, hlive, fun w' _ deeper outer _ _ => hwritten hstorable w' deeper outer⟩

/-- A new table is written as what its entries are written as: it is within no table that
is made later, nor within itself. -/
theorem carries_addTable {w : World H} {t : Table} {j : JsonValue} (hdeep : 1 ≤ j.depth)
    (hwritten : ∀ w', w.Precedes w' → ∀ deeper outer, j.depth ≤ deeper + 1 →
      (∀ r ∈ outer, w.nextId ≤ r.id) →
        ofTable t (ofValueWithin w' deeper outer) = .ok j) :
    Carries (w.addTable t).2 j (.table (w.addTable t).1) := by
  have hstorable : (Value.table (w.addTable t).1).toStorable = .table (w.addTable t).1 :=
    Value.toStorable_eq_self (by simp) rfl
  refine ⟨hstorable, rfl, fun w' hw deeper outer hdepth houter => ?_⟩
  obtain ⟨d, rfl⟩ : ∃ d, deeper = d + 1 := ⟨deeper - 1, by omega⟩
  have hnew : (w.addTable t).1 ∉ outer := by
    intro hmem
    have hle := houter _ hmem
    simp only [World.addTable, World.nextId_add] at hle
    omega
  have htable : w'.table (w.addTable t).1 = t := by
    have hobject := hw.object? w.nextId (by simp [World.addTable])
    unfold World.table
    simp only [World.addTable] at hobject ⊢
    rw [hobject, World.object?_add_nextId]
  have hlater : w.Precedes w' := (World.precedes_add w _).trans hw
  have hinner := hwritten w' hlater d ((w.addTable t).1 :: outer) hdepth (by
    intro r hr
    rcases List.mem_cons.mp hr with rfl | hr
    · exact le_refl _
    · have hle := houter r hr
      simp only [World.addTable, World.nextId_add] at hle
      omega)
  rw [ofValueWithin, hstorable]
  simp only [if_neg hnew, htable]
  exact hinner

/-- Documents that are read one after the other are carried all of them in the end. -/
theorem carries_toValues {items : List JsonValue}
    (h : ∀ j ∈ items, ∀ w : World H,
      w.Precedes (j.toValue w).2 ∧ Carries (j.toValue w).2 j (j.toValue w).1) (w : World H) :
    w.Precedes (toValues w items).2 ∧
      List.Forall₂ (Carries (toValues w items).2) items (toValues w items).1 := by
  induction items generalizing w with
  | nil => exact ⟨.refl w, .nil⟩
  | cons j rest ih =>
    obtain ⟨hfirst, hcarries⟩ := h j List.mem_cons_self w
    obtain ⟨hlater, hrest⟩ := ih (fun k hk => h k (List.mem_cons_of_mem _ hk)) (j.toValue w).2
    exact ⟨hfirst.trans hlater, .cons (hcarries.later hlater) hrest⟩

/-- What is carried can be kept in a table. -/
theorem Carries.fits {w : World H} {items : List JsonValue} {values : List Value}
    (h : List.Forall₂ (Carries w) items values) :
    ∀ v ∈ values, v.toStorable = v ∧ v.isNil = false := by
  induction h with
  | nil => simp
  | cons hj _ ih =>
    intro v hv
    rcases List.mem_cons.mp hv with rfl | hrest
    · exact ⟨hj.storable, hj.live⟩
    · exact ih v hrest

/-- Values that are carried are written as their documents within a table made later. -/
theorem Carries.writes {w w' : World H} {items : List JsonValue} {values : List Value}
    (h : List.Forall₂ (Carries w) items values) (hw : w.Precedes w') {deeper : Nat}
    {outer : List TableRef} (hdepth : ∀ j ∈ items, j.depth ≤ deeper)
    (houter : ∀ r ∈ outer, w.nextId ≤ r.id) :
    List.Forall₂ (fun j v => ofValueWithin w' deeper outer v = .ok j) items values := by
  induction h with
  | nil => exact .nil
  | cons hj _ ih =>
    exact .cons (hj.written w' hw deeper outer (hdepth _ List.mem_cons_self) houter)
      (ih fun k hk => hdepth k (List.mem_cons_of_mem _ hk))

theorem denotes_sequence {values : List Value} (hlength : values.length ≤ Key.maxPosition)
    (hvalues : ∀ v ∈ values, v.toStorable = v ∧ v.isNil = false) :
    (({} : Table).writeAll (Association.sequence 1 values)).Denotes
      (Association.sequence 1 values) := by
  have hfits := Association.fits_sequence (le_refl 1) (by omega) hvalues
  exact Table.denotes_empty.writeAll hfits (Association.nodup_sequence 1 values)

theorem denotes_named {names : List String} {values : List Value} (hnames : names.Nodup)
    (hlength : names.length = values.length)
    (hvalues : ∀ v ∈ values, v.toStorable = v ∧ v.isNil = false) :
    (({} : Table).writeAll (Association.named names values)).Denotes
      (Association.named names values) := by
  have hnodup := Association.nodup_named hnames hlength
  exact Table.denotes_empty.writeAll (Association.fits_named hvalues) hnodup

/-- A sequence is written as the array of its items. -/
theorem ofTable_sequence {t : Table} {convert : Value → Except ConversionError JsonValue}
    {items : List JsonValue} {values : List Value}
    (ht : t.Denotes (Association.sequence 1 values)) (hsome : values ≠ [])
    (h : List.Forall₂ (fun j v => convert v = .ok j) items values) :
    ofTable t convert = .ok (.array items) := by
  have hlength : t.length = values.length := by
    rw [ht.length, Association.border_sequence]
  have hcount : t.count = values.length := by
    rw [ht.represents.count, Association.length_sequence]
  have hpos := List.length_pos_iff.mpr hsome
  have hread : ((List.range t.length).map fun i => t.getInt (Int.ofNat i + 1)) = values := by
    apply List.ext_getElem
    · simp [hlength]
    · intro i hi hi'
      have hposition : Int.ofNat i + 1 = ((1 + i : Nat) : Int) := by
        simp only [Int.ofNat_eq_natCast]
        omega
      rw [List.getElem_map, List.getElem_range, hposition, ht.getInt, Association.readInteger,
        if_pos (by omega), Int.toNat_natCast, Association.read, Association.lookup?_sequence,
        List.getElem?_eq_getElem hi']
      rfl
  rw [ofTable]
  simp only [hread]
  rw [if_pos ⟨by omega, by omega⟩, ofAll_eq h]
  rfl

/-- Values under names are written as an object, also if the names look like numbers. -/
theorem ofTable_named {t : Table} {convert : Value → Except ConversionError JsonValue}
    {members : List (String × JsonValue)} {values : List Value}
    (ht : t.Denotes (Association.named (members.map (·.1)) values))
    (hnames : (members.map (·.1)).Pairwise (· < ·))
    (h : List.Forall₂ (fun m v => convert v = .ok m.2) members values) :
    ofTable t convert = .ok (.object members) := by
  have hlength : t.length = 0 := by
    rw [ht.length, Association.border_named]
  have hentries : ofEntries convert t.pairs [] = .ok members := by
    rw [ht.represents.pairs]
    exact ofEntries_eq h hnames
  rw [ofTable, if_neg (by omega), hentries]
  rfl

/-- An array is carried if its items are. -/
theorem carries_array {items : List JsonValue} (hsome : items ≠ [])
    (hlength : items.length ≤ Key.maxPosition)
    (hitems : ∀ j ∈ items, ∀ w : World H,
      w.Precedes (j.toValue w).2 ∧ Carries (j.toValue w).2 j (j.toValue w).1) (w : World H) :
    w.Precedes ((array items).toValue w).2 ∧
      Carries ((array items).toValue w).2 (.array items) ((array items).toValue w).1 := by
  obtain ⟨hlater, hcarries⟩ := carries_toValues hitems w
  have hvalues := Carries.fits hcarries
  have htable := itemsToTable_eq w {} (le_refl 1) (by omega) fun v hv => (hvalues v hv).1
  have hcount := hcarries.length_eq
  have hnew : (toValues w items).1 ≠ [] := by
    rw [← List.length_pos_iff] at hsome ⊢
    omega
  have hdenotes := denotes_sequence (by omega) hvalues
  simp only [toValue]
  rw [Nat.cast_one] at htable
  rw [htable]
  refine ⟨hlater.trans (World.precedes_add _ _), ?_⟩
  refine carries_addTable (by simp [depth]) fun w' hw deeper outer hdepth houter => ?_
  refine ofTable_sequence hdenotes hnew (Carries.writes hcarries hw (fun j hj => ?_) houter)
  have hle := depth_le_depthOfItems hj
  rw [depth] at hdepth
  omega

/-- An object is carried if its members are. -/
theorem carries_object {members : List (String × JsonValue)}
    (hnames : (members.map (·.1)).Pairwise (· < ·))
    (hmembers : ∀ m ∈ members, ∀ w : World H,
      w.Precedes (m.2.toValue w).2 ∧ Carries (m.2.toValue w).2 m.2 (m.2.toValue w).1)
    (w : World H) :
    w.Precedes ((object members).toValue w).2 ∧
      Carries ((object members).toValue w).2 (.object members)
        ((object members).toValue w).1 := by
  obtain ⟨hlater, hcarries⟩ := carries_toValues (List.forall_mem_map.mpr hmembers) w
  have hvalues := Carries.fits hcarries
  have htable := membersToTable_eq w {} fun v hv => (hvalues v hv).1
  have hcount := hcarries.length_eq
  have hdenotes := denotes_named (hnames.imp ne_of_lt) (by simpa using hcount) hvalues
  simp only [toValue]
  rw [htable]
  refine ⟨hlater.trans (World.precedes_add _ _), ?_⟩
  refine carries_addTable (by simp [depth]) fun w' hw deeper outer hdepth houter => ?_
  have hdeep : ∀ m ∈ members, m.2.depth ≤ deeper := by
    intro m hm
    have hle := depth_le_depthOfMembers hm
    rw [depth] at hdepth
    omega
  have hwrites := Carries.writes hcarries hw (List.forall_mem_map.mpr hdeep) houter
  exact ofTable_named hdenotes hnames (List.forall₂_map_left_iff.mp hwrites)

/-- A document is carried once it has been read. -/
theorem Faithful.carried {j : JsonValue} (hj : j.Faithful) (w : World H) :
    w.Precedes (j.toValue w).2 ∧ Carries (j.toValue w).2 j (j.toValue w).1 := by
  induction hj generalizing w with
  | boolean b =>
    refine ⟨.refl w, carries_plain _ (by simp [toValue]) rfl fun hstorable w' deeper outer => ?_⟩
    rw [ofValueWithin, hstorable]
    rfl
  | @integer n hn =>
    refine ⟨.refl w, carries_plain _ (by simp [toValue]) rfl fun hstorable w' deeper outer => ?_⟩
    rw [ofValueWithin, hstorable]
    exact ofNumber_nearest hn
  | @float x hfinite hx =>
    refine ⟨.refl w, carries_plain _ (by simp [toValue]) rfl fun hstorable w' deeper outer => ?_⟩
    rw [ofValueWithin, hstorable]
    exact ofNumber_float hfinite hx
  | string s =>
    refine ⟨.refl w, carries_plain _ (by simp [toValue]) rfl fun hstorable w' deeper outer => ?_⟩
    rw [ofValueWithin, hstorable]
    rfl
  | array hsome hlength hitems ih => exact carries_array hsome hlength ih w
  | object hnames hmembers ih => exact carries_object hnames ih w

/-- A document that is read and then written is the same document. -/
theorem Faithful.roundTrips {j : JsonValue} (hj : j.Faithful) (hdepth : j.depth ≤ maxDepth)
    (w : World H) : ofValue (j.toValue w).2 (j.toValue w).1 = .ok j := by
  obtain ⟨-, hcarries⟩ := hj.carried w
  exact hcarries.written _ (.refl _) maxDepth [] hdepth (by simp)

/-- A name that looks like a number, an object with no members, and numbers of each sort. -/
def nested : JsonValue :=
  .object
    [("1", .array [.boolean true, .integer (-7), .object []]), ("half", .float 0.5),
      ("large", .float 1e300)]

theorem faithful_nested : nested.Faithful := by
  refine .object (by decide) ?_
  simp only [List.mem_cons, List.not_mem_nil, or_false, forall_eq_or_imp, forall_eq]
  refine ⟨.array (by simp) (by decide) ?_, .float (by decide +kernel) (.inl (by decide +kernel)),
    .float (by decide +kernel) (.inr (by decide +kernel))⟩
  simp only [List.mem_cons, List.not_mem_nil, or_false, forall_eq_or_imp, forall_eq]
  exact ⟨.boolean true, .integer (by decide), .object .nil (by simp)⟩

theorem roundTrips_nested :
    nested.Faithful ∧ nested.depth ≤ maxDepth ∧
      let w : World Workbench.types := .start { modules := ⟨false, false, false⟩ } {}
      ofValue (nested.toValue w).2 (nested.toValue w).1 = .ok nested := by
  have hdepth : nested.depth ≤ maxDepth := by decide
  exact ⟨faithful_nested, hdepth, Faithful.roundTrips faithful_nested hdepth _⟩

end JsonValue

end ScriptEngine
