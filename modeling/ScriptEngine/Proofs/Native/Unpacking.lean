import ScriptEngine.Proofs.Interchange.Integers
import ScriptEngine.Proofs.Native.Removal
import ScriptEngine.Proofs.Tuple.Flat
import ScriptEngine.Proofs.Tuple.Splicing

/-!
# Packing and unpacking

The values of a row are written to positions 1, 2 and so on, and what counts as nil is not
written at all; its position shows nil for want of an entry.  So what is unpacked is the
row again, with nil for Void, but how many values there were only the field `n` can tell.

The bounds of what is unpacked are words, and the number of integers between two words need
not be one.  A count that overflows is past the limit anyway, so it is refused like those
that are too large.
-/

namespace ScriptEngine

variable {H : HostTypes}

/-! ## The row in the table -/

/-- The value, with nil in place of Void. -/
def Value.orNil : Value → Value
  | .void => .nil
  | v => v

theorem Value.Single.toStorable {v : Value} (hv : v.Single) : v.toStorable = v.orNil := by
  rw [Value.toStorable, Value.toScalar_eq_self (single_iff.mp hv)]
  cases v <;> rfl

namespace Library

open ScriptEngine.Action

variable {values : List Value} {t : Table} {first : Nat}

theorem packed_cons (v : Value) :
    packed (first : Int) (v :: values) t =
      packed ((first + 1 : Nat) : Int) values (t.setInt first v.toStorable) := by
  rw [packed, Nat.cast_add, Nat.cast_one]

/-- A key that is no position of the row keeps its value. -/
theorem getKey_packed_of_ne (ht : t.Consistent) (hfirst : 1 ≤ first)
    (hlast : first + values.length ≤ Key.maxPosition + 1) {key : Key}
    (hkey : ∀ j < values.length, key ≠ .position (first + j)) :
    (packed first values t).getKey key = t.getKey key := by
  induction values generalizing first t with
  | nil => rfl
  | cons v rest ih =>
    rw [List.length_cons] at hlast hkey
    have hhere : key ≠ .position first := hkey 0 (by omega)
    have hbehind : ∀ j < rest.length, key ≠ .position (first + 1 + j) := fun j hj => by
      rw [Nat.add_assoc, Nat.add_comm 1 j]
      exact hkey (j + 1) (by omega)
    rw [packed_cons, ih (ht.setInt _ _) (by omega) (by omega) hbehind,
      ht.getKey_setInt_position hfirst (by omega), if_neg hhere]

/-- Each position of the row shows what is kept of its value. -/
theorem getKey_packed_position (ht : t.Consistent) (hfirst : 1 ≤ first)
    (hlast : first + values.length ≤ Key.maxPosition + 1) {j : Nat} (hj : j < values.length) :
    (packed first values t).getKey (.position (first + j)) = values[j].toStorable := by
  induction values generalizing first t j with
  | nil => cases hj
  | cons v rest ih =>
    rw [List.length_cons] at hlast hj
    rw [packed_cons]
    cases j with
    | zero =>
      have hbehind : ∀ j < rest.length, Key.position first ≠ .position (first + 1 + j) :=
        fun j _ => by simp only [ne_eq, Key.position.injEq]; omega
      rw [Nat.add_zero first, getKey_packed_of_ne (ht.setInt _ _) (by omega) (by omega) hbehind,
        ht.getKey_setInt_position hfirst (by omega), if_pos rfl, Value.toStorable_toStorable]
      rfl
    | succ j =>
      have hplace : first + (j + 1) = first + 1 + j := by omega
      rw [hplace, List.getElem_cons_succ]
      exact ih (ht.setInt _ _) (by omega) (by omega) (by omega)

/-- The table of a row, with its length in the field `n`. -/
def packedTable (values : List Value) : Table :=
  (packed 1 values {}).setName "n" (.number (Float.ofNat values.length))

theorem getKey_packedTable (values : List Value) (key : Key) :
    (packedTable values).getKey key =
      if key = .name "n" then .number (Float.ofNat values.length)
      else (packed 1 values {}).getKey key := by
  have hname : Key.ofValue? (.string "n") = some (.name "n") := by
    simp [Key.ofValue?, Value.toScalar]
  have hnumber : (Value.number (Float.ofNat values.length)).toStorable =
      .number (Float.ofNat values.length) := rfl
  rw [packedTable, Table.setName, hnumber]
  exact (consistent_packed values Table.consistent_empty).getKey_setKey hname
    (Value.toScalar_eq_self (by simp)) hnumber key

/-- The items of the table are the row again, with nil for Void. -/
theorem slice_packedTable (hvalues : ∀ v ∈ values, v.Single)
    (hlength : values.length ≤ Key.maxPosition) :
    (packedTable values).slice 1 values.length = values.map Value.orNil := by
  apply List.ext_getElem
  · rw [Table.length_slice, List.length_map]
  · intro i hi hi'
    have hvalue : i < values.length := by simpa using hi'
    rw [Table.getElem_slice_one, getKey_packedTable, if_neg (by simp), Nat.add_comm,
      List.getElem_map, ← (hvalues _ (List.getElem_mem hvalue)).toStorable]
    exact getKey_packed_position Table.consistent_empty (le_refl 1) (by omega) hvalue

/-! ## Counting in words -/

/-- The word of an integer, nothing if it has none. -/
def word? (i : Int) : Option Int64 :=
  if -2 ^ 63 ≤ i ∧ i < 2 ^ 63 then some (Int64.ofInt i) else none

/-- The number of integers from one word to another, counted in words. -/
def wordCount? (first last : Int64) : Option Int64 :=
  (word? (last.toInt - first.toInt)).bind fun difference => word? (difference.toInt + 1)

theorem word?_eq_some_iff {i : Int} {n : Int64} : word? i = some n ↔ n.toInt = i := by
  have hlow := n.le_toInt
  have hhigh := n.toInt_lt
  unfold word?
  split
  · next hi =>
    rw [Option.some.injEq]
    constructor
    · rintro rfl
      exact Int64.toInt_ofInt_of_le hi.1 hi.2
    · rintro rfl
      exact Int64.ofInt_toInt n
  · next hi =>
    refine iff_of_false (by simp) ?_
    rintro rfl
    exact hi ⟨hlow, hhigh⟩

theorem word?_eq_none_iff {i : Int} : word? i = none ↔ ¬ (-2 ^ 63 ≤ i ∧ i < 2 ^ 63) := by
  simp [word?]

/-- Words come to the right count or to none, and none only for a count past all words. -/
theorem wordCount?_eq {first last : Int64} (hle : first.toInt ≤ last.toInt) :
    wordCount? first last = word? (last.toInt - first.toInt + 1) := by
  unfold wordCount?
  cases hdifference : word? (last.toInt - first.toInt) with
  | some difference => rw [Option.bind_some, word?_eq_some_iff.mp hdifference]
  | none =>
    rw [word?_eq_none_iff] at hdifference
    exact (word?_eq_none_iff.mpr (by omega)).symm

/-- A limit that is a word is passed by what does not pass the test in words. -/
theorem wordCount?_refuses_iff {first last : Int64} (hle : first.toInt ≤ last.toInt) {limit : Nat}
    (hlimit : limit < 2 ^ 63) :
    (∀ n, wordCount? first last = some n → limit < n.toInt) ↔
      limit < last.toInt - first.toInt + 1 := by
  rw [wordCount?_eq hle]
  cases hcount : word? (last.toInt - first.toInt + 1) with
  | some n =>
    rw [← word?_eq_some_iff.mp hcount]
    simp
  | none =>
    rw [word?_eq_none_iff] at hcount
    refine iff_of_true (by simp) (by omega)

/-! ## What unpacking comes to -/

/-- What is read as a bound is a word, if what it is by default is one. -/
theorem exists_word_of_asOptionalInteger {a : Arguments} {i : Nat} {function : String}
    {missing n : Int} (hmissing : ∃ word : Int64, word.toInt = missing)
    (h : a.asOptionalInteger i function missing = .ok n) : ∃ word : Int64, word.toInt = n := by
  unfold Arguments.asOptionalInteger at h
  split at h
  · cases h
    exact hmissing
  · unfold Arguments.asInteger at h
    cases hnumber : a.asNumber i function with
    | error e =>
      rw [hnumber] at h
      cases h
    | ok x =>
      rw [hnumber] at h
      cases h
      have hbounds : -2 ^ 63 ≤ Arguments.floorInt64 x ∧ Arguments.floorInt64 x < 2 ^ 63 := by
        simp only [Arguments.floorInt64, Double.clampToInt, Int.pow_eq]
        split
        · decide
        · split
          · split <;> decide
          · omega
      exact ⟨_, Int64.toInt_ofInt_of_le hbounds.1 hbounds.2⟩

variable {a : Arguments} {w : World H} {r : TableRef} {lower upper : Int}

def tooManyResults : RuntimeError :=
  .script { kind := .stackOverflow, message := "too many results to unpack" }

/-- What a call of `unpack` comes to, for the bounds that it reads. -/
theorem settled_unpack (hr : a.asTable 0 "unpack" = .ok r)
    (h : w.object? r.id = some (.table t)) (hlower : a.asOptionalInteger 1 "unpack" 1 = .ok lower)
    (hupper : a.asOptionalInteger 2 "unpack" t.length = .ok upper) :
    (unpack a : Action H NativeOutcome).settled w =
      (if maxUnpacked < (upper - lower + 1).toNat then .fail tooManyResults
        else .done (.result (.tuple (t.slice lower (upper - lower + 1).toNat))),
        w.noteLength (.table r)) := by
  have htable := World.table_noteLength h
  have hbounds : (bounds a r 1 "unpack" : Action H (Int × Int)).settled w =
      (.done (lower, upper), w.noteLength (.table r)) := by
    unfold bounds
    rw [hlower, settled_bind]
    change (tableLength r >>= _ : Action H (Int × Int)).settled w = _
    rw [settled_bind, settled_tableLength, htable, Table.length_noteLength]
    change (ofScript (a.asOptionalInteger 2 "unpack" t.length) >>= _ :
      Action H (Int × Int)).settled _ = _
    rw [hupper]
    rfl
  unfold unpack
  rw [hr, settled_bind]
  change (bounds a r 1 "unpack" >>= _ : Action H NativeOutcome).settled w = _
  rw [settled_bind, hbounds]
  change (ite _ _ _ : Action H NativeOutcome).settled _ = _
  split
  · rfl
  · rw [settled_bind, settled_ask, htable]
    rfl

/-- What a call of `unpack` with bounds in order comes to.  Each value is the one that the
library reads at its integer, which is the one that a script reads there up to the last
position. -/
inductive Unpacks (t : Table) (first last : Int64) : Action H NativeOutcome → Prop where
  | values {items : List Value} {count : Int64} (hcount : wordCount? first last = some count)
      (hlimit : count.toInt ≤ maxUnpacked)
      (hlength : items.length = last.toInt - first.toInt + 1)
      (hitems : ∀ m (hm : m < items.length), items[m] = t.getInt (first.toInt + m) ∧
        (first.toInt + m ≤ Key.maxPosition → items[m] = t.getNumber (first.toInt + m))) :
      Unpacks t first last (.done (.result (.tuple items)))
  | refused (hlimit : maxUnpacked < last.toInt - first.toInt + 1)
      (hcount : ∀ count, wordCount? first last = some count → maxUnpacked < count.toInt) :
      Unpacks t first last (.fail tooManyResults)

theorem unpacks_settled {first last : Int64} (hr : a.asTable 0 "unpack" = .ok r)
    (h : w.object? r.id = some (.table t))
    (hfirst : a.asOptionalInteger 1 "unpack" 1 = .ok first.toInt)
    (hlast : a.asOptionalInteger 2 "unpack" t.length = .ok last.toInt)
    (hle : first.toInt ≤ last.toInt) :
    Unpacks t first last ((unpack a : Action H NativeOutcome).settled w).1 := by
  have hwords := wordCount?_refuses_iff hle (show maxUnpacked < 2 ^ 63 by decide)
  rw [settled_unpack hr h hfirst hlast]
  split
  · next hmany =>
    have hlimit : (maxUnpacked : Int) < last.toInt - first.toInt + 1 := by omega
    exact .refused hlimit (hwords.mpr hlimit)
  · next hfew =>
    have hlimit : last.toInt - first.toInt + 1 ≤ (maxUnpacked : Int) := by omega
    obtain ⟨count, hcount, hsmall⟩ : ∃ count, wordCount? first last = some count ∧
        count.toInt ≤ (maxUnpacked : Int) := by
      simpa using mt hwords.mp (by omega)
    refine .values hcount hsmall ?_ fun m hm => ?_
    · rw [Table.length_slice]
      omega
    · have hitem : (t.slice first.toInt (last.toInt - first.toInt + 1).toNat)[m] =
          t.getInt (first.toInt + m) := by
        simp [Table.slice]
      exact ⟨hitem, fun hposition => hitem.trans (t.getInt_eq_getNumber hposition)⟩

end Library

/-! ## Calls -/

namespace Machine

/-- The call comes to its end by itself, with this outcome and in this world. -/
def Settles [Host H] (core : Core H) (activations : List (Activation H))
    (call outcome : Action H NativeOutcome) (w : World H) : Prop :=
  ∃ n, (⟨core, activations, .running call⟩ : Machine H).after n =
    ⟨⟨w, core.proc⟩, activations, .running outcome⟩

variable [Host H] (core : Core H) (activations : List (Activation H))

theorem settles_settled (call : Action H NativeOutcome) :
    Settles core activations call (call.settled core.world).1 (call.settled core.world).2 :=
  after_settled core activations call

/-- Unpacking as many values as were packed gives the row again, with nil for Void. -/
theorem settles_unpack_packed {values : List Value} (hvalues : ∀ v ∈ values, v.Single)
    (hlength : values.length ≤ Library.maxUnpacked) {r : TableRef}
    (h : core.world.object? r.id = some (.table (Library.packedTable values)))
    (methodCall : Bool) :
    ∃ w, Settles core activations
      (Library.unpack
        (.ofValues [.table r, .number 1, .number (Float.ofNat values.length)] methodCall))
      (.done (.result (.tuple (values.map Value.orNil)))) w := by
  set a := Arguments.ofValues [.table r, .number 1, .number (Float.ofNat values.length)] methodCall
  have hmax : Library.maxUnpacked < 2 ^ 53 := by decide
  have hone : a.asOptionalInteger 1 "unpack" 1 = .ok 1 :=
    congrArg Except.ok (Double.floorInt64_ofInt (i := 1) (by decide))
  have hall : a.asOptionalInteger 2 "unpack" (Library.packedTable values).length =
      .ok (values.length : Int) :=
    congrArg Except.ok (Double.floorInt64_ofInt (i := values.length) (by omega))
  have hcount : ((values.length : Int) - 1 + 1).toNat = values.length := by omega
  have hsettled := Library.settled_unpack (H := H) (a := a) rfl h hone hall
  rw [hcount, if_neg (Nat.not_lt_of_le hlength),
    Library.slice_packedTable hvalues (by simp only [Key.maxPosition, Nat.pow_eq]; omega)]
    at hsettled
  have hsettles := settles_settled core activations (Library.unpack a)
  rw [hsettled] at hsettles
  exact ⟨_, hsettles⟩

/-- Packing at most so many single values as may be unpacked and unpacking them by their
number gives them again, with nil for Void; the table has their number in the field `n`.
And from any table, a call of `unpack` with bounds in order either gives one value for each
integer from one bound to the other, or is refused because there are too many of them; which
of the two is found by counting in words, whatever words the bounds are. -/
theorem unpacks :
    (∀ (values : List Value) (methodCall : Bool), (∀ v ∈ values, v.Single) →
      values.length ≤ Library.maxUnpacked →
      ∃ w r,
        Settles core activations (Library.pack (.ofValues values methodCall))
          (.done (.result (.table r))) w ∧
        (w.table r).getName "n" = .number (Float.ofNat values.length) ∧
        ∃ w', Settles ⟨w, core.proc⟩ activations
          (Library.unpack
            (.ofValues [.table r, .number 1, .number (Float.ofNat values.length)] methodCall))
          (.done (.result (.tuple (values.map Value.orNil)))) w') ∧
    ∀ (a : Arguments) (r : TableRef) (t : Table) (lower upper : Int),
      a.asTable 0 "unpack" = .ok r → core.world.object? r.id = some (.table t) → t.Arises →
      a.asOptionalInteger 1 "unpack" 1 = .ok lower →
      a.asOptionalInteger 2 "unpack" t.length = .ok upper → lower ≤ upper →
      ∃ (w : World H) (outcome : Action H NativeOutcome) (first last : Int64),
        first.toInt = lower ∧ last.toInt = upper ∧
        Settles core activations (Library.unpack a) outcome w ∧
        Library.Unpacks t first last outcome := by
  constructor
  case left =>
    intro values methodCall hvalues hlength
    have hrow : Arguments.ofValues values methodCall = ⟨values, methodCall⟩ := by
      rw [Arguments.ofValues, flattenArgs, Value.spliceLast_of_single hvalues]
    have hpack := settles_settled core activations (Library.pack ⟨values, methodCall⟩)
    have hobject := World.object?_add_nextId core.world (.table (Library.packedTable values))
    refine ⟨core.world.add (.table (Library.packedTable values)), ⟨core.world.nextId⟩, ?_, ?_, ?_⟩
    · rw [hrow]
      exact hpack
    · have htable : (core.world.add (.table (Library.packedTable values))).table
          ⟨core.world.nextId⟩ = Library.packedTable values := by
        simp [World.table]
      rw [htable, Table.getName, Library.getKey_packedTable, if_pos rfl]
    · exact settles_unpack_packed ⟨_, core.proc⟩ activations hvalues hlength hobject methodCall
  case right =>
    intro a r t lower upper hr h ht hlower hupper hle
    have hlength := ht.consistent.length_le
    simp only [Key.maxPosition, Nat.pow_eq] at hlength
    obtain ⟨first, hfirst⟩ := Library.exists_word_of_asOptionalInteger ⟨1, by decide⟩ hlower
    obtain ⟨last, hlast⟩ := Library.exists_word_of_asOptionalInteger
      ⟨_, Int64.toInt_ofInt_of_le (by omega) (by omega)⟩ hupper
    subst hfirst hlast
    exact ⟨_, _, first, last, rfl, rfl, settles_settled core activations _,
      Library.unpacks_settled hr h hlower hupper hle⟩

/-- A call that asks for values of a table with a gap. -/
def unpacking (lower upper : Float) : Arguments :=
  ⟨[.table (Removal.holding Table.gapped).1, .number lower, .number upper], false⟩

/-- Nil and Void in a row, a range over a gap, and the range of all words, whose count is no
word. -/
theorem unpacks_gapped :
    let core : Core Workbench.types := ⟨(Removal.holding Table.gapped).2, {}⟩
    (∃ w r w',
      Settles core [] (Library.pack (.ofValues [.nil, .void, .boolean true] false))
          (.done (.result (.table r))) w ∧
        (w.table r).getName "n" = .number 3 ∧
        Settles ⟨w, core.proc⟩ []
          (Library.unpack (.ofValues [.table r, .number 1, .number 3] false))
          (.done (.result (.tuple [.nil, .nil, .boolean true]))) w') ∧
      (∃ w outcome,
        Settles core [] (Library.unpack (unpacking 2 5)) outcome w ∧
          Library.Unpacks Table.gapped 2 5 outcome) ∧
      ∃ w outcome,
        Settles core [] (Library.unpack (unpacking (Float.ofInt (-2 ^ 80)) (Float.ofInt (2 ^ 80))))
            outcome w ∧
          Library.Unpacks Table.gapped Int64.minValue Int64.maxValue outcome := by
  intro core
  obtain ⟨hpacked, hunpacked⟩ := unpacks core []
  have hobject := Removal.object?_holding Table.gapped
  refine ⟨?_, ?_, ?_⟩
  · obtain ⟨w, r, hpack, hname, w', hunpack⟩ :=
      hpacked [.nil, .void, .boolean true] false (by decide) (by decide)
    exact ⟨w, r, w', hpack, hname, hunpack⟩
  · obtain ⟨w, outcome, first, last, hfirst, hlast, hsettles, hunpacks⟩ :=
      hunpacked (unpacking 2 5) _ _ 2 5 rfl hobject Table.arises_gapped (by decide +kernel)
        (by decide +kernel) (by decide)
    obtain rfl : first = 2 := Int64.toInt_inj.mp hfirst
    obtain rfl : last = 5 := Int64.toInt_inj.mp hlast
    exact ⟨w, outcome, hsettles, hunpacks⟩
  · obtain ⟨w, outcome, first, last, hfirst, hlast, hsettles, hunpacks⟩ :=
      hunpacked (unpacking (Float.ofInt (-2 ^ 80)) (Float.ofInt (2 ^ 80))) _ _
        (-2 ^ 63) (2 ^ 63 - 1) rfl hobject Table.arises_gapped (by decide +kernel)
        (by decide +kernel) (by decide)
    obtain rfl : first = Int64.minValue := Int64.toInt_inj.mp hfirst
    obtain rfl : last = Int64.maxValue := Int64.toInt_inj.mp hlast
    exact ⟨w, outcome, hsettles, hunpacks⟩

end Machine

end ScriptEngine
