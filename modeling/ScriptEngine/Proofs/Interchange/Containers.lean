import ScriptEngine.Interchange.Conversion
import ScriptEngine.Proofs.Interchange.RoundTrip

/-!
# Containers that come back

The host's data is of a type that is built from numbers, truth values, texts and integers
by lists and records.  Each level is written as a new table, a list by appending its items
and a record name by name, and is read off that table again.  The tables that are made for
one item stay as they were made while the next ones are written; so the induction is on the
type, and what it carries is that a value reads as the data in every later world.
-/

namespace ScriptEngine

namespace Double

open Float.Model Float.Model.UnpackedFloat

/-- A number with a smaller exponent lies between a larger one and its negation. -/
theorem IsNormal.between_of_exponent {x y : Float} {sign : Sign} {m m' : Nat} {e e' : Int}
    (hx : IsNormal x sign m e) (hy : IsNormal y .positive m' e') (he : e < e') :
    -y ≤ x ∧ x ≤ y := by
  have hlt : compare e e' = .lt := Int.compare_eq_lt.mpr he
  have hgt : compare e' e = .gt := Int.compare_eq_gt.mpr he
  rw [le_iff_compare, le_iff_compare, hx.unpack, hy.unpack, hy.neg.unpack]
  cases sign <;> constructor <;> simp [UnpackedFloat.compare, hlt, hgt]

theorem isWholeNumber_ofInt {i : Int} (hi : i ≠ 0) (hlt : i.natAbs < 2 ^ 53) :
    ∃ sign, IsWholeNumber (Float.ofInt i) sign i.natAbs ∧ sign.apply i.natAbs = i := by
  cases i with
  | ofNat n =>
    have hpos : 0 < n := by
      apply Nat.pos_of_ne_zero
      simpa using hi
    exact ⟨.positive, isNormal_ofNat hpos hlt, by simp [Sign.apply]⟩
  | negSucc n =>
    have hnormal := isNormal_ofNat (n := n + 1) (by omega) hlt
    exact ⟨.negative, hnormal.neg, rfl⟩

/-- An integer that is a number of its own is recognised as that integer. -/
structure IsInteger (x : Float) (i : Int) : Prop where
  whole : isWhole x = true
  low : -exactLimit ≤ x
  high : x ≤ exactLimit
  truncate : (Dyadic.ofFloat x).truncate = i

theorem isInteger_ofInt {i : Int} (hi : i.natAbs ≤ 2 ^ 53) : IsInteger (Float.ofInt i) i := by
  by_cases hzero : i = 0
  · subst hzero
    constructor <;> decide +kernel
  by_cases hlast : i.natAbs = 2 ^ 53
  · rcases Int.natAbs_eq i with h | h
    all_goals
      rw [hlast] at h
      subst h
      constructor <;> decide +kernel
  · have hlt : i.natAbs < 2 ^ 53 := by omega
    have hpos : 0 < i.natAbs := by omega
    obtain ⟨sign, hwhole, hsign⟩ := isWholeNumber_ofInt hzero hlt
    have hlog := log2_le_of_lt hpos hlt
    obtain ⟨hlow, hhigh⟩ := hwhole.between_of_exponent isNormal_limit (by omega)
    exact ⟨hwhole.isWhole, hlow, hhigh, (hwhole.truncate hpos hlt).trans hsign⟩

end Double

variable {H : HostTypes} {α : Type} {P : α → Prop}

theorem World.Precedes.table_addTable {w w' : World H} {t : Table}
    (h : (w.addTable t).2.Precedes w') : w'.table (w.addTable t).1 = t := by
  have hobject := h.object? w.nextId (by simp [addTable])
  simp only [addTable, object?_add_nextId] at hobject
  simp [World.table, addTable, hobject]

/-! ## What comes back -/

/-- The value reads as the data, now and later. -/
structure ReadsAs [FromValue α] (w : World H) (a : α) (v : Value) : Prop where
  storable : v.toStorable = v
  live : v.isNil = false
  read : ∀ w', w.Precedes w' → fromValue w' v = .ok a

/-- Data of which this holds can be written and read. -/
def ComesBack (α : Type) [FromValue α] [ToValue α] (P : α → Prop) : Prop :=
  ∀ {H : HostTypes} (w : World H) (a : α), P a →
    w.Precedes (toValue a w).2 ∧ ReadsAs (toValue a w).2 a (toValue a w).1

section

variable [FromValue α]

theorem ReadsAs.later {w w' : World H} {a : α} {v : Value} (h : ReadsAs w a v)
    (hlater : w.Precedes w') : ReadsAs w' a v where
  storable := h.storable
  live := h.live
  read w'' hw := h.read w'' (hlater.trans hw)

theorem ReadsAs.keeps {w : World H} {items : List α} {values : List Value}
    (h : List.Forall₂ (ReadsAs w) items values) :
    ∀ v ∈ values, v.toStorable = v ∧ v.isNil = false := by
  induction h with
  | nil => simp
  | cons ha _ ih => simpa [ha.storable, ha.live] using ih

theorem ReadsAs.reads {w w' : World H} {items : List α} {values : List Value}
    (h : List.Forall₂ (ReadsAs w) items values) (hw : w.Precedes w') :
    List.Forall₂ (fun a v => fromValue w' v = .ok a) items values := by
  refine h.imp fun _ _ ha => ?_
  exact ha.read w' hw

/-- A single value reads the same in every world. -/
theorem readsAs_single (w : World H) {a : α} {v : Value}
    (hscalar : ∀ items, v ≠ .tuple items) (hlive : v.isNil = false)
    (hread : ∀ w' : World H, fromValue w' v = .ok a) : ReadsAs w a v := by
  refine ⟨Value.toStorable_eq_self hscalar hlive, hlive, fun w' _ => ?_⟩
  exact hread w'

end

/-! ## Single values -/

theorem comesBack_float : ComesBack Float fun _ => True := by
  intro H w x _
  refine ⟨.refl w, readsAs_single w (by simp [toValue]) rfl fun w' => ?_⟩
  simp [fromValue, toValue, Value.toScalar]

theorem comesBack_bool : ComesBack Bool fun _ => True := by
  intro H w b _
  refine ⟨.refl w, readsAs_single w (by simp [toValue]) rfl fun w' => ?_⟩
  simp [fromValue, toValue, Value.toScalar]

theorem comesBack_string : ComesBack String fun _ => True := by
  intro H w s _
  refine ⟨.refl w, readsAs_single w (by simp [toValue]) rfl fun w' => ?_⟩
  simp [fromValue, toValue, Value.toScalar]

theorem fromValue_number_int64 (w : World H) (x : Float) :
    (fromValue w (.number x) : Except ConversionError Int64) =
      if Double.isWhole x && -exactLimit ≤ x && x ≤ exactLimit then
        .ok (Int64.ofInt (Dyadic.ofFloat x).truncate)
      else .error (.outOfRange x "i64") :=
  rfl

theorem fromValue_of_isInteger (w : World H) {x : Float} {i : Int} (h : Double.IsInteger x i) :
    fromValue w (.number x) = .ok (Int64.ofInt i) := by
  rw [fromValue_number_int64, if_pos, h.truncate]
  simp [h.whole, h.low, h.high]

theorem comesBack_int64 : ComesBack Int64 fun n => n.toInt.natAbs ≤ 2 ^ 53 := by
  intro H w n hn
  refine ⟨.refl w, readsAs_single w (by simp [toValue]) rfl fun w' => ?_⟩
  have hread := fromValue_of_isInteger w' (Double.isInteger_ofInt hn)
  rwa [Int64.ofInt_toInt] at hread

/-! ## Rows of data -/

/-- The values of several data, written one after the other. -/
def valuesOf [ToValue α] : List α → World H → List Value × World H
  | [], w => ([], w)
  | a :: rest, w =>
    let (v, w) := toValue a w
    let (vs, w) := valuesOf rest w
    (v :: vs, w)

theorem ComesBack.row [FromValue α] [ToValue α] (h : ComesBack α P) {items : List α}
    (hitems : ∀ a ∈ items, P a) (w : World H) :
    w.Precedes (valuesOf items w).2 ∧
      List.Forall₂ (ReadsAs (valuesOf items w).2) items (valuesOf items w).1 := by
  induction items generalizing w with
  | nil => exact ⟨.refl w, .nil⟩
  | cons a rest ih =>
    obtain ⟨hfirst, hread⟩ := h w a (hitems a List.mem_cons_self)
    obtain ⟨hlater, hrest⟩ :=
      ih (fun b hb => hitems b (List.mem_cons_of_mem _ hb)) (toValue a w).2
    exact ⟨hfirst.trans hlater, .cons (hread.later hlater) hrest⟩

/-! ## Lists -/

namespace Association

theorem sequence_concat (i : Nat) (values : List Value) (v : Value) :
    sequence i (values ++ [v]) =
      sequence i values ++ [⟨.position (i + values.length),
        .number (Float.ofInt (i + values.length : Nat)), v⟩] := by
  induction values generalizing i with
  | nil => rfl
  | cons u rest ih =>
    have hplace : i + 1 + rest.length = i + (rest.length + 1) := by omega
    simp [sequence, ih, hplace]

/-- What is appended to a sequence stands at its end, and nothing does if that is nil. -/
theorem append_sequence {values : List Value} {v : Value}
    (hlength : values.length < Key.maxPosition) (hstorable : v.toStorable = v) :
    (sequence 1 values).append v = sequence 1 (values ++ [v].filter fun u => !u.isNil) := by
  have hplace : Int.ofNat values.length + 1 = ((1 + values.length : Nat) : Int) := by
    simp [Int.add_comm]
  have hkey : integerKey? ((1 + values.length : Nat) : Int) =
      some (.position (1 + values.length)) := by
    rw [integerKey?_eq_ofValue?, Key.ofValue?_position (by omega) (by omega)]
  have hnew : (sequence 1 values).lookup? (.position (1 + values.length)) = none := by
    rw [lookup?_sequence]
    simp
  rw [append, border_sequence, hplace, writeInteger, hkey, hstorable]
  simp only
  by_cases hlive : v.isNil = true
  · rw [write, if_pos hlive, filter_eq_self_of_not_bound (lookup?_eq_none.mp hnew)]
    simp [hlive]
  · simp [write, hlive, hnew, sequence_concat]

end Association

theorem denotes_appendItems [ToValue α] {t : Table} {before : List Value} {items : List α}
    {w : World H} (ht : t.Denotes (Association.sequence 1 before))
    (hlength : before.length + items.length ≤ Key.maxPosition)
    (hvalues : ∀ v ∈ (valuesOf items w).1, v.toStorable = v) :
    (appendItems items t w).1.Denotes
        (Association.sequence 1 (before ++ (valuesOf items w).1.filter fun v => !v.isNil)) ∧
      (appendItems items t w).2 = (valuesOf items w).2 := by
  induction items generalizing t before w with
  | nil => simpa [appendItems, valuesOf] using ht
  | cons a rest ih =>
    simp only [List.length_cons] at hlength
    simp only [valuesOf, List.forall_mem_cons] at hvalues
    have happend := ht.append (toValue a w).1
    rw [Association.append_sequence (by omega) hvalues.1] at happend
    have hshort := List.length_filter_le (fun v : Value => !v.isNil) [(toValue a w).1]
    have hnext := ih happend (by simp at hshort ⊢; omega) hvalues.2
    rw [List.append_assoc, ← List.filter_append] at hnext
    simpa [appendItems, valuesOf] using hnext

theorem itemsFrom_eq [FromValue α] {w : World H} {t : Table} {before values : List Value}
    {items : List α} (ht : t.Denotes (Association.sequence 1 (before ++ values)))
    (h : List.Forall₂ (fun a v => fromValue w v = .ok a) items values) :
    itemsFrom w t values.length (before.length + 1) = .ok items := by
  induction h generalizing before with
  | nil => rfl
  | @cons a v items values ha _ ih =>
    have hget : t.getInt ((before.length : Int) + 1) = v := by
      have hplace : (before.length : Int) + 1 = ((1 + before.length : Nat) : Int) := by omega
      rw [hplace, ht.getInt, Association.readInteger, if_pos (by omega), Int.toNat_natCast,
        Association.read, Association.lookup?_sequence]
      simp
    have hrest : t.Denotes (Association.sequence 1 ((before ++ [v]) ++ values)) := by
      simpa using ht
    have hnext := ih hrest
    simp only [List.length_append, List.length_singleton] at hnext
    simp [itemsFrom, hget, ha, hnext]

/-- A list is read off a table that holds its items in a sequence. -/
theorem fromValue_of_sequence [FromValue α] {w : World H} {r : TableRef} {values : List Value}
    {items : List α} (hr : (w.table r).Denotes (Association.sequence 1 values))
    (h : List.Forall₂ (fun a v => fromValue w v = .ok a) items values) :
    fromValue w (.table r) = .ok items := by
  have hborder : (w.table r).length = values.length := by
    rw [hr.length, Association.border_sequence]
  have hall : (w.table r).Denotes (Association.sequence 1 ([] ++ values)) := hr
  have hread := itemsFrom_eq hall h
  rw [← hborder] at hread
  exact hread

/-- What a list is written as: a table with those of the values that are not nil. -/
theorem toValue_list [ToValue α] {items : List α} {w : World H}
    (hlength : items.length ≤ Key.maxPosition)
    (hvalues : ∀ v ∈ (valuesOf items w).1, v.toStorable = v) :
    ∃ r, (toValue items w).1 = .table r ∧
      (valuesOf items w).2.Precedes (toValue items w).2 ∧
      ∀ w', (toValue items w).2.Precedes w' → (w'.table r).Denotes
        (Association.sequence 1 ((valuesOf items w).1.filter fun v => !v.isNil)) := by
  have hempty : ({} : Table).Denotes (Association.sequence 1 []) := Table.denotes_empty
  obtain ⟨hdenotes, hworld⟩ := denotes_appendItems hempty (by simpa using hlength) hvalues
  refine ⟨((appendItems items {} w).2.addTable (appendItems items {} w).1).1, rfl, ?_, ?_⟩
  · rw [← hworld]
    exact World.precedes_add _ _
  · intro w' hw
    rw [hw.table_addTable]
    exact hdenotes

theorem ComesBack.list [FromValue α] [ToValue α] (h : ComesBack α P) :
    ComesBack (List α) fun items => items.length ≤ Key.maxPosition ∧ ∀ a ∈ items, P a := by
  rintro H w items ⟨hlength, hitems⟩
  obtain ⟨hlater, hreads⟩ := h.row hitems w
  have hkeeps := ReadsAs.keeps hreads
  obtain ⟨r, hvalue, hprecedes, hdenotes⟩ := toValue_list hlength fun v hv => (hkeeps v hv).1
  have hlive : ((valuesOf items w).1.filter fun v => !v.isNil) = (valuesOf items w).1 :=
    List.filter_eq_self.mpr fun v hv => by simp [(hkeeps v hv).2]
  rw [hlive] at hdenotes
  refine ⟨hlater.trans hprecedes, ?_⟩
  rw [hvalue]
  refine ⟨Value.toStorable_eq_self (by simp) rfl, rfl, fun w' hw => ?_⟩
  exact fromValue_of_sequence (hdenotes w' hw) (ReadsAs.reads hreads (hprecedes.trans hw))

/-! ## Records -/

theorem writeFields_eq [ToValue α] {items : List (String × α)} (t : Table) {w : World H}
    (hvalues : ∀ v ∈ (valuesOf (items.map (·.2)) w).1, v.toStorable = v) :
    writeFields items t w =
      (t.writeAll (Association.named (items.map (·.1)) (valuesOf (items.map (·.2)) w).1),
        (valuesOf (items.map (·.2)) w).2) := by
  induction items generalizing t w with
  | nil => rfl
  | cons item rest ih =>
    obtain ⟨name, a⟩ := item
    simp only [List.map_cons, valuesOf, List.forall_mem_cons] at hvalues
    have hset : t.setName name (toValue a w).1 =
        t.setKey (.name name) (.string name) (toValue a w).1 := by
      rw [Table.setName, hvalues.1]
    have hrest := ih (t.setName name (toValue a w).1) hvalues.2
    rw [writeFields]
    refine hrest.trans ?_
    rw [hset]
    rfl

theorem Fields.items_insert {fields : Fields α} {name : String} (a : α)
    (h : name ∉ fields.items.map Prod.fst) :
    (fields.insert name a).items = fields.items ++ [(name, a)] := by
  simp [Fields.insert, h]

/-- Names that are all new are read in the order in which they were written. -/
theorem fieldsFrom_eq [FromValue α] {w : World H} {items : List (String × α)}
    {values : List Value}
    (h : List.Forall₂ (fun item v => fromValue w v = .ok item.2) items values)
    {fields : Fields α} (hnodup : ((fields.items ++ items).map Prod.fst).Nodup) :
    fieldsFrom w
        ((Association.named (items.map (·.1)) values).map fun b => (b.written, b.value))
        fields =
      .ok ⟨fields.items ++ items, hnodup⟩ := by
  induction h generalizing fields with
  | nil => simp [Association.named, fieldsFrom]
  | @cons item v items values hitem _ ih =>
    obtain ⟨name, a⟩ := item
    have hnew : name ∉ fields.items.map Prod.fst := by
      intro hmem
      rw [List.map_append, List.nodup_append] at hnodup
      exact hnodup.2.2 name hmem name (by simp) rfl
    have hinsert := Fields.items_insert a hnew
    have hnext : (((fields.insert name a).items ++ items).map Prod.fst).Nodup := by
      simpa [hinsert] using hnodup
    have hrest := ih hnext
    simp only [Association.named, List.map_cons, List.zip_cons_cons, fieldsFrom, hitem]
    refine hrest.trans ?_
    simp [hinsert]

theorem ComesBack.fields [FromValue α] [ToValue α] (h : ComesBack α P) :
    ComesBack (Fields α) fun fields => ∀ item ∈ fields.items, P item.2 := by
  intro H w fields hitems
  let names := fields.items.map (·.1)
  let data := fields.items.map (·.2)
  have hdata : ∀ a ∈ data, P a := by
    simpa [data] using fun a name hitem => hitems (name, a) hitem
  obtain ⟨hlater, hreads⟩ := h.row hdata w
  let values := (valuesOf data w).1
  let u := (valuesOf data w).2
  have hkeeps := ReadsAs.keeps hreads
  have hcount : names.length = values.length := by
    simpa [names, data] using hreads.length_eq
  have hdenotes := JsonValue.denotes_named fields.nodup hcount hkeeps
  have hwrite : toValue fields w =
      (.table (u.addTable ((({} : Table)).writeAll (Association.named names values))).1,
        (u.addTable (({} : Table).writeAll (Association.named names values))).2) := by
    simp only [toValue, writeFields_eq {} fun v hv => (hkeeps v hv).1]
    rfl
  rw [hwrite]
  refine ⟨hlater.trans (World.precedes_add _ _), ?_⟩
  refine ⟨Value.toStorable_eq_self (by simp) rfl, rfl, fun w' hw => ?_⟩
  have hnow : u.Precedes w' := (World.precedes_add _ _).trans hw
  have hnodup : (((Fields.empty : Fields α).items ++ fields.items).map Prod.fst).Nodup :=
    fields.nodup
  have hread :=
    fieldsFrom_eq (List.forall₂_map_left_iff.mp (ReadsAs.reads hreads hnow)) hnodup
  change fieldsFrom w' (w'.table (u.addTable _).1).pairs .empty = _
  rw [hw.table_addTable, hdenotes.represents.pairs]
  exact hread

/-! ## All types -/

/-- A type of the host's data. -/
inductive HostType where
  | float
  | boolean
  | string
  | integer
  | list (item : HostType)
  | fields (item : HostType)

namespace HostType

def Data : HostType → Type
  | .float => Float
  | .boolean => Bool
  | .string => String
  | .integer => Int64
  | .list item => List item.Data
  | .fields item => Fields item.Data

instance reading : (type : HostType) → FromValue type.Data
  | .float => inferInstanceAs (FromValue Float)
  | .boolean => inferInstanceAs (FromValue Bool)
  | .string => inferInstanceAs (FromValue String)
  | .integer => inferInstanceAs (FromValue Int64)
  | .list item =>
    have := reading item
    inferInstanceAs (FromValue (List item.Data))
  | .fields item =>
    have := reading item
    inferInstanceAs (FromValue (Fields item.Data))

instance writing : (type : HostType) → ToValue type.Data
  | .float => inferInstanceAs (ToValue Float)
  | .boolean => inferInstanceAs (ToValue Bool)
  | .string => inferInstanceAs (ToValue String)
  | .integer => inferInstanceAs (ToValue Int64)
  | .list item =>
    have := writing item
    inferInstanceAs (ToValue (List item.Data))
  | .fields item =>
    have := writing item
    inferInstanceAs (ToValue (Fields item.Data))

/-- Every integer in the data is a number of its own, and no list has more items than there are
positions, which no memory exceeds. -/
def Exact : (type : HostType) → type.Data → Prop
  | .float => fun _ => True
  | .boolean => fun _ => True
  | .string => fun _ => True
  | .integer => fun (n : Int64) => n.toInt.natAbs ≤ 2 ^ 53
  | .list item => fun (items : List item.Data) =>
    items.length ≤ Key.maxPosition ∧ ∀ a ∈ items, item.Exact a
  | .fields item => fun (record : Fields item.Data) => ∀ entry ∈ record.items, item.Exact entry.2

instance decidableExact : (type : HostType) → DecidablePred type.Exact
  | .float | .boolean | .string => fun _ => inferInstanceAs (Decidable True)
  | .integer => fun (n : Int64) => inferInstanceAs (Decidable (n.toInt.natAbs ≤ 2 ^ 53))
  | .list item => fun (items : List item.Data) =>
    have := decidableExact item
    inferInstanceAs (Decidable (items.length ≤ Key.maxPosition ∧ ∀ a ∈ items, item.Exact a))
  | .fields item => fun (record : Fields item.Data) =>
    have := decidableExact item
    inferInstanceAs (Decidable (∀ entry ∈ record.items, item.Exact entry.2))

theorem comesBack (type : HostType) : ComesBack type.Data type.Exact := by
  induction type with
  | float => exact comesBack_float
  | boolean => exact comesBack_bool
  | string => exact comesBack_string
  | integer => exact comesBack_int64
  | list item ih => exact ih.list
  | fields item ih => exact ih.fields

/-- Data of any type reads as itself once it has been written, in the world it was written to
and in every later one; nothing that there was before has changed. -/
theorem reads_written (type : HostType) {x : type.Data} (hx : type.Exact x) (w : World H) :
    fromValue (toValue x w).2 (toValue x w).1 = .ok x ∧
      w.Precedes (toValue x w).2 ∧
      ∀ w', (toValue x w).2.Precedes w' → fromValue w' (toValue x w).1 = .ok x := by
  obtain ⟨hprecedes, hreads⟩ := type.comesBack w x hx
  exact ⟨hreads.read _ (.refl _), hprecedes, hreads.read⟩

/-- Records that are out of order, empty containers, and the last integer that is exact. -/
def shelf : (fields (list (fields integer))).Data :=
  (⟨[("b", [⟨[("last", (9007199254740992 : Int64)), ("", -7)], by decide⟩, ⟨[], by decide⟩]),
      ("a", [])], by decide⟩ : Fields (List (Fields Int64)))

theorem exact_shelf : (fields (list (fields integer))).Exact shelf := by
  decide

theorem reads_written_shelf :
    (fields (list (fields integer))).Exact shelf ∧
      let w : World Workbench.types := .start { modules := ⟨false, false, false⟩ } {}
      fromValue (toValue shelf w).2 (toValue shelf w).1 = .ok shelf :=
  ⟨exact_shelf, (reads_written _ exact_shelf _).1⟩

end HostType

end ScriptEngine
