import ScriptEngine.Error.Script
import ScriptEngine.Proofs.Table.Writing

/-!
# Histories of a table

Whatever is done with a table, it answers like the association list to which
the same is done, and it shows the same pairs, values, count and length.  The
proof is a simulation: `Table.Denotes` holds of the empty table and is kept by
every operation, so it holds after every history.
-/

namespace ScriptEngine

/-- What a script or a library function does with a table. -/
inductive TableOperation where
  | set (key value : Value)
  | setName (name : String) (value : Value)
  | setInteger (i : Int) (value : Value)
  | remove (key : Value)
  | sweep
  | askLength
  | append (value : Value)
  | insertAt (place : Nat) (value : Value)
  | removeAt (place : Nat)

inductive TableAnswer where
  | done
  | refused (e : ScriptError)
  | removed (wasBound : Bool)
  | length (n : Nat)
  | taken (value : Value)

/-- Nil and NaN are no keys, nor is a tuple that starts with one of them. -/
def Value.isNoKey (v : Value) : Prop :=
  match v.toScalar with
  | .nil | .void => True
  | .number n => n.isNaN = true
  | _ => False

theorem Key.ofValue?_eq_none_iff (v : Value) :
    Key.ofValue? v = none ↔ v.isNoKey := by
  unfold Key.ofValue? Value.isNoKey
  cases hv : v.toScalar with
  | tuple items => exact absurd hv (Value.toScalar_ne_tuple v items)
  | number n =>
      simp only [Key.ofNumber?]
      by_cases hnan : n.isNaN = true
      · rw [if_pos hnan]
        exact iff_of_true rfl hnan
      · rw [if_neg hnan]
        generalize (if Double.isWhole n then (Dyadic.ofFloat n).truncate else 0) =
          whole
        by_cases hwhole : 1 ≤ whole ∧ whole ≤ Key.maxPosition
        · rw [if_pos hwhole]
          exact iff_of_false (by simp) hnan
        · rw [if_neg hwhole]
          exact iff_of_false (by simp) hnan
  | _ => simp

namespace Association

def perform (a : Association) : TableOperation → TableAnswer × Association
  | .set key value =>
    match Key.ofValue? key with
    | some k => (.done, a.write k key.toScalar value.toStorable)
    | none => (.refused (.badKey key), a)
  | .setName name value =>
    (.done, a.write (.name name) (.string name) value.toStorable)
  | .setInteger i value => (.done, a.writeInteger i value)
  | .remove key =>
    match Key.ofValue? key with
    | some k => (.removed (a.Bound k), a.filter fun b => b.key ≠ k)
    | none => (.removed false, a)
  | .sweep => (.done, a)
  | .askLength => (.length a.border, a)
  | .append value => (.done, a.append value)
  | .insertAt place value => (.done, a.insertAt place value)
  | .removeAt place =>
    (.taken (a.readInteger (Table.signedWord place)), a.removeAt place)

end Association

namespace Table

def perform (t : Table) : TableOperation → TableAnswer × Table
  | .set key value =>
    match t.set? key value with
    | some t' => (.done, t')
    | none => (.refused (.badKey key), t)
  | .setName name value => (.done, t.setName name value)
  | .setInteger i value => (.done, t.setInt i value)
  | .remove key => (.removed (t.remove key).1, (t.remove key).2)
  | .sweep => (.done, t.sweep)
  | .askLength => (.length t.length, t.noteLength)
  | .append value => (.done, t.append value)
  | .insertAt place value => (.done, t.insertAt place value)
  | .removeAt place => (.taken (t.removeAt place).1, (t.removeAt place).2)

/-- The table is in order and stands for the association list. -/
structure Denotes (t : Table) (a : Association) : Prop where
  consistent : t.Consistent
  bindings : t.bindings = a

/-- What there is to see of a table, and how the three indexes serve it. -/
structure Represents (t : Table) (a : Association) : Prop where
  pairs : t.pairs = a.map fun b => (b.written, b.value)
  canonical : ∀ b ∈ a, Key.ofValue? b.written = some b.key
  distinct : (a.map (·.key)).Nodup
  live : ∀ b ∈ a, b.value.isNil = false
  get : ∀ key, t.get key = a.get key
  getName : ∀ name, t.getName name = a.read (.name name)
  getInteger : ∀ i, t.getInt i = a.readInteger i
  count : t.count = a.length
  length : t.length = a.border
  storedKey : ∀ e ∈ t.entries.toList,
    e.key ≠ .void ∧ ∀ items, e.key ≠ .tuple items
  storedValue : ∀ e ∈ t.entries.toList,
    e.value ≠ .void ∧ ∀ items, e.value ≠ .tuple items
  reached : ∀ (place : Nat) (e : Entry), t.entries[place]? = some e →
    e.isLive = true → ∃! key, t.index.find? key = some place
  slot : ∀ key place, t.index.find? key = some place →
    ∃ e, t.entries[place]? = some e ∧ Key.ofValue? e.key = some key
  plain : ∀ code place, t.index.plain[code]? = some place →
    ∃ key : PlainKey, key.code = code

/-! ## Operations on both sides -/

variable {t : Table} {a : Association}

theorem Denotes.setKey (h : t.Denotes a) {key : Key} {written value : Value}
    (hkey : Key.ofValue? written = some key)
    (hwritten : written.toScalar = written)
    (hvalue : value.toStorable = value) :
    (t.setKey key written value).Denotes (a.write key written value) := by
  obtain ⟨hconsistent, hbindings⟩ := h.consistent.setKey hkey hwritten hvalue
  exact ⟨hconsistent, by rw [hbindings, h.bindings]⟩

theorem Denotes.setInt (h : t.Denotes a) (i : Int) (value : Value) :
    (t.setInt i value).Denotes (a.writeInteger i value) := by
  unfold Table.setInt Association.writeInteger
  rw [integerKey?_eq_ofValue?]
  cases hkey : Key.ofValue? (.number (Float.ofInt i)) with
  | none =>
      simp only [hkey]
      exact h
  | some key =>
      simp only [hkey]
      have hwritten : (Value.number (Float.ofInt i)).toScalar =
          .number (Float.ofInt i) :=
        Value.toScalar_eq_self (by simp)
      exact h.setKey hkey hwritten (Value.toStorable_toStorable value)

theorem Denotes.noteLength (h : t.Denotes a) : t.noteLength.Denotes a :=
  ⟨h.consistent.noteLength, h.bindings⟩

theorem Denotes.getKey (h : t.Denotes a) (key : Key) :
    t.getKey key = a.read key := by
  rw [h.consistent.getKey_eq_read, h.bindings]

theorem Denotes.get (h : t.Denotes a) (key : Value) : t.get key = a.get key := by
  unfold Table.get Association.get
  cases Key.ofValue? key with
  | none => rfl
  | some k => exact h.getKey k

theorem Denotes.getInt (h : t.Denotes a) (i : Int) :
    t.getInt i = a.readInteger i := by
  unfold Table.getInt Association.readInteger
  split
  · exact h.getKey _
  · exact h.get _

theorem Denotes.length (h : t.Denotes a) : t.length = a.border := by
  rw [h.consistent.length_eq_border, h.bindings]

theorem Denotes.shiftUp (h : t.Denotes a) (first n : Nat) :
    (Table.shiftUp first n t).Denotes (Association.moveUp first n a) := by
  induction n generalizing t a with
  | zero => exact h
  | succ n ih =>
      simp only [Table.shiftUp, Association.moveUp]
      rw [h.getInt]
      exact ih (h.setInt _ _)

theorem Denotes.shiftDown (h : t.Denotes a) (first n : Nat) :
    (Table.shiftDown first n t).Denotes (Association.moveDown first n a) := by
  induction n generalizing first t a with
  | zero => exact h
  | succ n ih =>
      simp only [Table.shiftDown, Association.moveDown]
      rw [h.getInt]
      exact ih (h.setInt _ _) (first + 1)

theorem Denotes.append (h : t.Denotes a) (value : Value) :
    (t.append value).Denotes (a.append value) := by
  unfold Table.append Association.append
  rw [← h.noteLength.length]
  exact h.noteLength.setInt _ _

theorem Denotes.insertAt (h : t.Denotes a) (place : Nat) (value : Value) :
    (t.insertAt place value).Denotes (a.insertAt place value) := by
  unfold Table.insertAt Association.insertAt
  rw [← h.noteLength.length]
  exact (h.noteLength.shiftUp _ _).setInt _ _

theorem Denotes.removeAt (h : t.Denotes a) (place : Nat) :
    (t.removeAt place).2.Denotes (a.removeAt place) := by
  unfold Table.removeAt Association.removeAt
  have hmoved := h.noteLength.shiftDown place (t.noteLength.length - place)
  simp only
  rw [← h.noteLength.length]
  split
  · exact hmoved.setInt _ _
  · exact hmoved

/-- One operation: the answers are the same and the meaning is kept. -/
theorem Denotes.perform (h : t.Denotes a) (op : TableOperation) :
    (t.perform op).1 = (a.perform op).1 ∧
      (t.perform op).2.Denotes (a.perform op).2 := by
  cases op with
  | set key value =>
      simp only [Table.perform, Association.perform, Table.set?]
      cases hkey : Key.ofValue? key with
      | none => exact ⟨rfl, h⟩
      | some k =>
          have hwritten : Key.ofValue? key.toScalar = some k := by
            rw [Key.ofValue?_toScalar, hkey]
          exact ⟨rfl, h.setKey hwritten (Value.toScalar_toScalar key)
            (Value.toStorable_toStorable value)⟩
  | setName name value =>
      have hwritten : (Value.string name).toScalar = .string name :=
        Value.toScalar_eq_self (by simp)
      have hkey : Key.ofValue? (.string name) = some (.name name) := by
        simp [Key.ofValue?, hwritten]
      exact ⟨rfl, h.setKey hkey hwritten (Value.toStorable_toStorable value)⟩
  | setInteger i value => exact ⟨rfl, h.setInt i value⟩
  | remove key =>
      obtain ⟨hconsistent, hbindings, hanswer⟩ := h.consistent.remove key
      rw [h.bindings] at hbindings hanswer
      simp only [Table.perform, Association.perform]
      cases hkey : Key.ofValue? key with
      | none =>
          rw [hkey] at hbindings hanswer
          have hfalse : (t.remove key).1 = false := by simpa using hanswer
          exact ⟨congrArg _ hfalse, hconsistent, hbindings⟩
      | some k =>
          rw [hkey] at hbindings hanswer
          have hbound : (t.remove key).1 = decide (a.Bound k) := by
            rw [Bool.eq_iff_iff, hanswer, decide_eq_true_iff]
            simp
          exact ⟨congrArg _ hbound, hconsistent, hbindings⟩
  | sweep =>
      exact ⟨rfl, h.consistent.sweep, (bindings_sweep t).trans h.bindings⟩
  | askLength => exact ⟨congrArg _ h.length, h.noteLength⟩
  | append value => exact ⟨rfl, h.append value⟩
  | insertAt place value => exact ⟨rfl, h.insertAt place value⟩
  | removeAt place =>
      exact ⟨congrArg _ (h.noteLength.getInt _), h.removeAt place⟩

end Table

/-! ## Histories -/

/-- The answers to a history of operations and what is left in the end. -/
def performAll {σ : Type} (perform : σ → TableOperation → TableAnswer × σ) :
    σ → List TableOperation → List TableAnswer × σ
  | s, [] => ([], s)
  | s, op :: rest =>
    let (answer, s') := perform s op
    let (answers, last) := performAll perform s' rest
    (answer :: answers, last)

namespace Table

variable {t : Table} {a : Association}

theorem Denotes.performAll (h : t.Denotes a) (history : List TableOperation) :
    (performAll Table.perform t history).1 =
        (performAll Association.perform a history).1 ∧
      (performAll Table.perform t history).2.Denotes
        (performAll Association.perform a history).2 := by
  induction history generalizing t a with
  | nil => exact ⟨rfl, h⟩
  | cons op rest ih =>
      obtain ⟨hanswer, hstep⟩ := h.perform op
      obtain ⟨hanswers, hlast⟩ := ih hstep
      simp only [ScriptEngine.performAll]
      exact ⟨by rw [hanswer, hanswers], hlast⟩

theorem denotes_empty : Denotes {} [] :=
  ⟨consistent_empty, rfl⟩

/-! ## What is seen of a table -/

theorem pairs_eq_bindings (h : t.Indexed) :
    t.pairs = t.bindings.map fun b => (b.written, b.value) := by
  have hentry : ∀ e ∈ t.entries.toList,
      e.binding?.map (fun b => (b.written, b.value)) =
        if e.isLive then some (e.key, e.value) else none := by
    intro e he
    obtain ⟨key, hkey⟩ := h.keyed e he
    unfold Entry.binding?
    cases e.isLive <;> simp [hkey]
  unfold Table.pairs Table.live Table.bindings
  rw [List.map_filterMap, List.filterMap_congr hentry, ← List.filterMap_eq_map,
    List.filterMap_filter]
  rfl

theorem canonical_of_mem_bindings {b : Binding} (hb : b ∈ t.bindings) :
    Key.ofValue? b.written = some b.key := by
  obtain ⟨place, e, -, hbinding⟩ := mem_bindings.mp hb
  obtain ⟨-, hkey, hwritten, -⟩ := Entry.binding?_eq_some_iff.mp hbinding
  rw [hwritten, hkey]

theorem live_of_mem_bindings {b : Binding} (hb : b ∈ t.bindings) : b.value.isNil = false := by
  obtain ⟨place, e, -, hbinding⟩ := mem_bindings.mp hb
  obtain ⟨hlive, -, -, hvalue⟩ := Entry.binding?_eq_some_iff.mp hbinding
  rw [hvalue]
  simpa [Entry.isLive] using hlive

/-- A stored key has a canonical form, so it is a single value. -/
theorem Indexed.storedKey (h : t.Indexed) {e : Entry} (he : e ∈ t.entries.toList) :
    e.key ≠ .void ∧ ∀ items, e.key ≠ .tuple items := by
  obtain ⟨key, hkey⟩ := h.keyed e he
  refine ⟨fun hvoid => ?_, fun items htuple => ?_⟩
  · have hnone : Key.ofValue? e.key = none := by
      rw [Key.ofValue?_eq_none_iff, hvoid]
      trivial
    rw [hkey] at hnone
    cases hnone
  · exact Value.toScalar_ne_tuple e.key items ((h.scalar e he).trans htuple)

theorem Indexed.storedValue (h : t.Indexed) {e : Entry} (he : e ∈ t.entries.toList) :
    e.value ≠ .void ∧ ∀ items, e.value ≠ .tuple items := by
  have hstorable := h.storable e he
  exact ⟨fun hvoid => Value.toStorable_ne_void e.value (hstorable.trans hvoid),
    fun items htuple => Value.toStorable_ne_tuple e.value items (hstorable.trans htuple)⟩

/-- The index leads to a live entry from its own key and from no other. -/
theorem Indexed.existsUnique_find (h : t.Indexed) {place : Nat} {e : Entry}
    (hplace : t.entries[place]? = some e) (hlive : e.isLive = true) :
    ∃! key, t.index.find? key = some place := by
  rw [← Array.getElem?_toList] at hplace
  obtain ⟨key, hkey⟩ := h.keyed e (List.mem_of_getElem? hplace)
  refine ⟨key, h.reached place e key hplace hlive hkey, fun other hother => ?_⟩
  obtain ⟨e', hplace', hkey'⟩ := h.indexed other place hother
  obtain rfl : e = e' := Option.some.inj (hplace.symm.trans hplace')
  exact Option.some.inj (hkey'.symm.trans hkey)

theorem Denotes.represents (h : t.Denotes a) : t.Represents a := by
  have ht := h.consistent.toIndexed
  have hpairs : t.pairs = a.map fun b => (b.written, b.value) := by
    rw [pairs_eq_bindings ht, h.bindings]
  exact {
    pairs := hpairs
    canonical := fun b hb => canonical_of_mem_bindings (h.bindings ▸ hb)
    distinct := h.bindings ▸ ht.nodup_keys
    live := fun b hb => live_of_mem_bindings (h.bindings ▸ hb)
    get := h.get
    getName := fun name => h.getKey (.name name)
    getInteger := h.getInt
    count := by simpa [Table.count, Table.pairs] using congrArg List.length hpairs
    length := h.length
    storedKey := fun e he => ht.storedKey he
    storedValue := fun e he => ht.storedValue he
    reached := fun place e hplace hlive => ht.existsUnique_find hplace hlive
    slot := fun key place hfind => by
      obtain ⟨e, hplace, hkey⟩ := ht.indexed key place hfind
      exact ⟨e, by rwa [Array.getElem?_toList] at hplace, hkey⟩
    plain := ht.plain }

/-! ## Refusals -/

/-- A write under nil or NaN is refused and changes nothing; no other is. -/
theorem perform_set (t : Table) (key value : Value) :
    (key.isNoKey → t.perform (.set key value) = (.refused (.badKey key), t)) ∧
      (¬ key.isNoKey → (t.perform (.set key value)).1 = .done) := by
  rw [← Key.ofValue?_eq_none_iff]
  simp only [perform, set?]
  cases Key.ofValue? key <;> simp

/-- After any history a table represents the association list with the same
history, it has given the same answers, and the next write will be refused
only for its key. -/
theorem represents_performAll (history : List TableOperation) :
    let table := performAll perform {} history
    let list := performAll Association.perform [] history
    table.1 = list.1 ∧ table.2.Represents list.2 ∧
      ∀ key value,
        (key.isNoKey →
          table.2.perform (.set key value) =
            (.refused (.badKey key), table.2)) ∧
        (¬ key.isNoKey → (table.2.perform (.set key value)).1 = .done) := by
  obtain ⟨hanswers, hlast⟩ := denotes_empty.performAll history
  exact ⟨hanswers, hlast.represents, perform_set _⟩

end Table

end ScriptEngine
