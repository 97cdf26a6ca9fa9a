import ScriptEngine.Native.Arguments
import ScriptEngine.Proofs.Table.Reading

/-!
# Flat values

A value is single if it is no tuple, and flat if it has no tuple as an item.  Rows of flat
values are spliced into rows of single ones, and what a variable or a table keeps of any
value is single.  A table whose entries are all of this kind stays so under every
operation, whatever the operation is given; so every table that came about by operations
is one.
-/

namespace ScriptEngine

namespace Value

def isTuple : Value → Bool
  | .tuple _ => true
  | _ => false

/-- No tuple at all. -/
def Single (v : Value) : Prop := v.isTuple = false

/-- No tuple in a tuple. -/
def Flat : Value → Prop
  | .tuple items => ∀ v ∈ items, v.Single
  | _ => True

/-- Neither a tuple nor Void. -/
def Storable (v : Value) : Prop := v.Single ∧ v ≠ .void

instance (v : Value) : Decidable v.Single := inferInstanceAs (Decidable (_ = _))

theorem storable_nil : Storable .nil := by
  simp [Storable, Single, isTuple]

theorem Single.flat {v : Value} (h : v.Single) : v.Flat := by
  cases v with
  | tuple items => cases h
  | _ => trivial

theorem single_iff {v : Value} : v.Single ↔ ∀ items, v ≠ .tuple items := by
  cases v <;> simp [Single, isTuple]

theorem single_toScalar (v : Value) : v.toScalar.Single := by
  rw [single_iff]
  exact toScalar_ne_tuple v

theorem storable_toStorable (v : Value) : v.toStorable.Storable := by
  constructor
  · exact single_iff.mpr (toStorable_ne_tuple v)
  · exact toStorable_ne_void v

/-- Nothing is lost of it when it is stored. -/
theorem Storable.toStorable {v : Value} (h : v.Storable) : v.toStorable = v := by
  rw [Value.toStorable, toScalar_eq_self (single_iff.mp h.1)]
  cases v with
  | void => exact absurd rfl h.2
  | _ => rfl

theorem single_toStorable (v : Value) : v.toStorable.Single := by
  obtain ⟨hsingle, -⟩ := storable_toStorable v
  exact hsingle

/-- One item is as storable as a variable's value. -/
theorem single_tupleItem (v : Value) (index : Nat) : (v.tupleItem index).Single := by
  unfold tupleItem
  split
  · next items =>
    cases items[index]? with
    | none => rfl
    | some item => exact single_toStorable item
  · split
    · exact single_toStorable _
    · rfl

/-! ## Rows -/

theorem single_spliceLast {values : List Value} (h : ∀ v ∈ values, v.Flat) :
    ∀ v ∈ spliceLast values, v.Single := by
  fun_induction spliceLast values with
  | case1 => simp
  | case2 items => exact h (.tuple items) (by simp)
  | case3 v hv =>
    simp only [List.mem_singleton, forall_eq]
    exact single_iff.mpr hv
  | case4 v w rest ih =>
    rw [List.forall_mem_cons] at h ⊢
    exact ⟨single_toScalar v, ih h.2⟩

theorem flat_tupled {values : List Value} (h : ∀ v ∈ values, v.Flat) : (tupled values).Flat :=
  single_spliceLast h

theorem flat_of_single {values : List Value} (h : ∀ v ∈ values, v.Single) :
    ∀ v ∈ values, v.Flat := by
  intro v hv
  exact (h v hv).flat

/-- A value looked up in a row of single ones. -/
theorem single_getElem? {values : List Value} (h : ∀ v ∈ values, v.Single) {i : Nat} {v : Value}
    (hv : values[i]? = some v) : v.Single := by
  refine h v ?_
  exact List.mem_of_getElem? hv

end Value

theorem single_flattenArgs {args : List Value} (h : ∀ v ∈ args, v.Flat) :
    ∀ v ∈ flattenArgs args, v.Single :=
  Value.single_spliceLast h

/-! ## Arguments -/

/-- No argument is a tuple. -/
def Arguments.Single (a : Arguments) : Prop := ∀ v ∈ a.values, v.Single

namespace Arguments

theorem single_ofValues {values : List Value} (h : ∀ v ∈ values, v.Flat) (methodCall : Bool) :
    (ofValues values methodCall).Single :=
  single_flattenArgs h

variable {a : Arguments}

theorem Single.get (h : a.Single) (i : Nat) : (a.get i).Single := by
  unfold Arguments.get
  cases hv : a.values[i]? with
  | none => rfl
  | some v => exact Value.single_getElem? h hv

theorem Single.rest (h : a.Single) (i : Nat) : ∀ v ∈ a.rest i, v.Single := by
  intro v hv
  exact h v (List.mem_of_mem_drop hv)

end Arguments

/-! ## Errors -/

/-- The value that a script raised. -/
def ScriptError.Flat (e : ScriptError) : Prop := ∀ v, e.payload? = some v → v.Flat

def RuntimeError.Flat : RuntimeError → Prop
  | .script e => e.Flat
  | _ => True

namespace ScriptError

variable {e : ScriptError}

theorem flat_of_payload (h : e.payload? = none) : e.Flat := by
  intro v hv
  simp [h] at hv

theorem flat_user {v : Value} (h : v.Flat) : (user v).Flat := by
  unfold user
  split
  · exact flat_of_payload rfl
  · rintro v' ⟨⟩
    exact h

theorem Flat.freeze (h : e.Flat) : e.freeze.Flat := h

theorem Flat.value (h : e.Flat) : e.value.Flat := by
  unfold ScriptError.value
  cases hpayload : e.payload? with
  | none => trivial
  | some v => exact h v hpayload

theorem Flat.withLocation (h : e.Flat) (location? : Option SourceLocation) :
    (e.withLocation location?).Flat := by
  unfold ScriptError.withLocation
  split <;> exact h

theorem flat_replaceValue {v : Value} (h : v.Flat) : (e.replaceValue v).Flat := by
  unfold replaceValue
  split
  · exact flat_of_payload rfl
  · rintro v' ⟨⟩
    exact h

end ScriptError

/-- A result whose value satisfies the predicate, or a flat error. -/
def FlatResult {α : Type} (P : α → Prop) : Except RuntimeError α → Prop
  | .ok a => P a
  | .error e => e.Flat

theorem FlatResult.map {α β : Type} {P : α → Prop} {Q : β → Prop} {f : α → β}
    {r : Except RuntimeError α} (h : FlatResult P r) (hf : ∀ a, P a → Q (f a)) :
    FlatResult Q (r.map f) := by
  cases r with
  | ok a => exact hf a h
  | error e => exact h

/-- The same of a result that can only be a script error. -/
def FlatScript {α : Type} (P : α → Prop) : Except ScriptError α → Prop
  | .ok a => P a
  | .error e => e.Flat

/-! ## Arguments of a type -/

/-- What passes a check is a scalar. -/
theorem Value.single_check (v : Value) (function : String) (expected : DataType)
    (position : Nat) (how : TypeCheck) :
    FlatScript Value.Single (v.check function expected position how) := by
  unfold Value.check
  dsimp only
  split
  · exact single_toScalar v
  · split
    · rfl
    · split
      · next hconverted =>
        split at hconverted
        · split at hconverted
          · cases hconverted
            rfl
          · obtain ⟨n, -, rfl⟩ := Option.map_eq_some_iff.mp hconverted
            rfl
          · obtain ⟨s, -, rfl⟩ := Option.map_eq_some_iff.mp hconverted
            rfl
          · cases hconverted
        · cases hconverted
      · exact ScriptError.flat_of_payload rfl

namespace Arguments

variable (a : Arguments) (i : Nat) (function : String)

theorem flat_asType (expected : DataType) (allowNil : Bool) :
    FlatScript Value.Single (a.asType i function expected allowNil) :=
  Value.single_check _ _ _ _ _

theorem flat_asString : FlatScript (fun _ => True) (a.asString i function) := by
  have h := a.flat_asType i function .string false
  unfold asString
  split
  · trivial
  · exact ScriptError.flat_of_payload rfl
  · next e he =>
    rw [he] at h
    exact h

theorem flat_asNumber : FlatScript (fun _ => True) (a.asNumber i function) := by
  have h := a.flat_asType i function .number false
  unfold asNumber
  split
  · trivial
  · exact ScriptError.flat_of_payload rfl
  · next e he =>
    rw [he] at h
    exact h

theorem flat_asInteger : FlatScript (fun _ => True) (a.asInteger i function) := by
  have h := a.flat_asNumber i function
  unfold asInteger
  cases hn : a.asNumber i function with
  | ok n => trivial
  | error e =>
    rw [hn] at h
    exact h

theorem flat_asOptionalInteger (missing : Int) :
    FlatScript (fun _ => True) (a.asOptionalInteger i function missing) := by
  unfold asOptionalInteger
  split
  · trivial
  · exact a.flat_asInteger i function

theorem flat_asTable : FlatScript (fun _ => True) (a.asTable i function) := by
  have h := a.flat_asType i function .table false
  unfold asTable
  split
  · trivial
  · exact ScriptError.flat_of_payload rfl
  · next e he =>
    rw [he] at h
    exact h

end Arguments

/-! ## Tables -/

/-- A value that can be a key is neither a tuple nor Void once it is a scalar. -/
theorem Key.storable_of_ofValue? {v : Value} {key : Key} (h : ofValue? v = some key) :
    v.toScalar.Storable := by
  refine ⟨Value.single_toScalar v, fun hvoid => ?_⟩
  simp [ofValue?, hvoid] at h

structure Entry.Storable (e : Entry) : Prop where
  key : e.key.Storable
  value : e.value.Storable

def Table.Storable (t : Table) : Prop := ∀ e ∈ t.entries.toList, e.Storable

namespace Table

variable {t : Table}

theorem storable_empty : Storable {} := by
  simp [Storable]

theorem Storable.valueAt (h : t.Storable) (place : Nat) : (t.valueAt place).Storable := by
  unfold Table.valueAt
  split
  · next e he =>
    rw [Array.getElem?_eq_some_iff] at he
    obtain ⟨hplace, rfl⟩ := he
    exact (h _ (by simp)).value
  · exact Value.storable_nil

theorem Storable.getKey (h : t.Storable) (key : Key) : (t.getKey key).Storable := by
  unfold Table.getKey
  split
  · exact h.valueAt _
  · exact Value.storable_nil

theorem Storable.get (h : t.Storable) (key : Value) : (t.get key).Storable := by
  unfold Table.get
  split
  · exact h.getKey _
  · exact Value.storable_nil

theorem Storable.getInt (h : t.Storable) (i : Int) : (t.getInt i).Storable := by
  unfold Table.getInt
  split
  · exact h.getKey _
  · exact h.get _

theorem Storable.getName (h : t.Storable) (name : String) : (t.getName name).Storable :=
  h.getKey _

theorem mem_of_firstLive {fuel place : Nat} {e : Entry} (h : t.firstLive fuel place = some e) :
    e ∈ t.entries.toList := by
  fun_induction Table.firstLive t fuel place with
  | case1 => cases h
  | case2 place fuel found hplace hlive =>
    cases h
    rw [Array.getElem?_eq_some_iff] at hplace
    obtain ⟨hbound, rfl⟩ := hplace
    simp
  | case3 place fuel found hplace hlive ih => exact ih h
  | case4 => cases h

theorem Storable.next (h : t.Storable) {key k v : Value} (hnext : t.next key = .entry k v) :
    k.Storable ∧ v.Storable := by
  simp only [Table.next] at hnext
  split at hnext
  · cases hnext
  · split at hnext
    · next e hlive =>
      cases hnext
      have hmem := h _ (mem_of_firstLive hlive)
      exact ⟨hmem.key, hmem.value⟩
    · cases hnext

/-- Only the entries count. -/
theorem Storable.congr {t' : Table} (h : t.Storable) (hentries : t'.entries = t.entries) :
    t'.Storable := by
  unfold Storable
  rw [hentries]
  exact h

theorem Storable.noteLength (h : t.Storable) : t.noteLength.Storable := h

theorem Storable.sweep (h : t.Storable) : t.sweep.Storable := by
  intro e he
  simp only [Table.sweep, Array.toList_filter, List.mem_filter] at he
  exact h e he.1

theorem Storable.setAt (h : t.Storable) (place : Nat) {value : Value} (hvalue : value.Storable) :
    (t.setAt place value).Storable := by
  intro e he
  obtain ⟨other, hother⟩ := List.getElem?_of_mem he
  rw [getElem?_setAt, Option.map_eq_some_iff] at hother
  obtain ⟨old, hold, rfl⟩ := hother
  have hmem := h old (List.mem_of_getElem? hold)
  split
  · exact ⟨hmem.key, hvalue⟩
  · exact hmem

theorem Storable.appendEntry (h : t.Storable) (key : Key) {written value : Value}
    (hwritten : written.Storable) (hvalue : value.Storable) :
    (t.appendEntry key written value).Storable := by
  intro e he
  rw [show (t.appendEntry key written value).entries = t.entries.push ⟨written, value⟩ by
    simp [Table.appendEntry]] at he
  simp only [Array.toList_push, List.mem_append, List.mem_singleton] at he
  rcases he with hold | rfl
  · exact h e hold
  · exact ⟨hwritten, hvalue⟩

theorem Storable.setKey (h : t.Storable) (key : Key) {written value : Value}
    (hwritten : written.Storable) (hvalue : value.Storable) :
    (t.setKey key written value).Storable := by
  have hcleared (place : Nat) := h.setAt place Value.storable_nil
  unfold Table.setKey
  split
  · next place hfind =>
    dsimp only
    split
    · split
      · exact h
      · exact (hcleared place).congr (by simp)
    · split
      · exact h.sweep.appendEntry key hwritten hvalue
      · exact h.setAt place hvalue
  · split
    · exact h
    · split
      · exact h.sweep.appendEntry key hwritten hvalue
      · exact h.appendEntry key hwritten hvalue

theorem Storable.set? (h : t.Storable) {key value : Value} {t' : Table}
    (hset : t.set? key value = some t') : t'.Storable := by
  simp only [Table.set?, Option.map_eq_some_iff] at hset
  obtain ⟨k, hk, rfl⟩ := hset
  exact h.setKey k (Key.storable_of_ofValue? hk) (Value.storable_toStorable value)

theorem Storable.setName (h : t.Storable) (name : String) (value : Value) :
    (t.setName name value).Storable := by
  refine h.setKey _ ?_ (Value.storable_toStorable value)
  simp [Value.Storable, Value.Single, Value.isTuple]

theorem Storable.setInt (h : t.Storable) (i : Int) (value : Value) :
    (t.setInt i value).Storable := by
  simp only [Table.setInt]
  split
  · refine h.setKey _ ?_ (Value.storable_toStorable value)
    simp [Value.Storable, Value.Single, Value.isTuple]
  · exact h

theorem Storable.remove (h : t.Storable) (key : Value) : (t.remove key).2.Storable := by
  have hcleared (place : Nat) := h.setAt place Value.storable_nil
  unfold Table.remove
  split
  · exact h
  · split
    · exact h
    · next k hk place hfind =>
      dsimp only
      split
      · exact (hcleared place).congr (by simp)
      · exact (hcleared place).congr rfl

theorem Storable.shiftUp (h : t.Storable) (first n : Nat) :
    (Table.shiftUp first n t).Storable := by
  induction n generalizing t with
  | zero => exact h
  | succ n ih => exact ih (h.setInt _ _)

theorem Storable.shiftDown (h : t.Storable) (first n : Nat) :
    (Table.shiftDown first n t).Storable := by
  induction n generalizing t first with
  | zero => exact h
  | succ n ih => exact ih (h.setInt _ _) _

theorem Storable.append (h : t.Storable) (value : Value) : (t.append value).Storable :=
  h.noteLength.setInt _ _

theorem Storable.insertAt (h : t.Storable) (place : Nat) (value : Value) :
    (t.insertAt place value).Storable := by
  have hshifted := h.noteLength.shiftUp
  exact (hshifted _ _).setInt _ _

theorem Storable.removeAt (h : t.Storable) (place : Nat) : (t.removeAt place).2.Storable := by
  have hmoved := h.noteLength.shiftDown place (t.noteLength.length - place)
  simp only [Table.removeAt]
  split
  · exact hmoved.setInt _ _
  · exact hmoved

/-- No operation puts a tuple or Void into a table, whatever it is given. -/
theorem Storable.perform (h : t.Storable) (op : TableOperation) : (t.perform op).2.Storable := by
  cases op with
  | set key value =>
    simp only [Table.perform]
    split
    · next t' hset => exact h.set? hset
    · exact h
  | setName name value => exact h.setName name value
  | setInteger i value => exact h.setInt i value
  | remove key => exact h.remove key
  | sweep => exact h.sweep
  | askLength => exact h.noteLength
  | append value => exact h.append value
  | insertAt place value => exact h.insertAt place value
  | removeAt place => exact h.removeAt place

/-- What came about by operations holds nothing else. -/
theorem Arises.storable (h : t.Arises) : t.Storable := by
  induction h with
  | empty => exact storable_empty
  | perform h op ih => exact ih.perform op
  | setMetatable h m? ih => exact ih

/-- A storable value goes under a key as it does by the operation. -/
theorem Arises.setKey (h : t.Arises) {written value : Value} {key : Key}
    (hkey : Key.ofValue? written = some key) (hvalue : value.Storable) :
    (t.setKey key written.toScalar value).Arises := by
  have hset := h.perform (.set written value)
  simpa only [Table.perform, Table.set?, hkey, Option.map_some, hvalue.toStorable] using hset

end Table

end ScriptEngine
