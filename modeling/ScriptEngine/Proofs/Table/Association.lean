import Mathlib.Data.List.Perm.Subperm
import Mathlib.Data.List.Nodup
import Mathlib.Data.Nat.Find
import ScriptEngine.Proofs.Number.WholeNumbers
import ScriptEngine.Table.Sequence

/-!
# Association lists in the order of insertion

The plain meaning of a table: a list of bindings with distinct canonical keys,
in the order in which the keys came in.  Writing replaces a value where it
stands, binds a new key at the end, and takes a binding out when the value is
nil.  There are no places, no index and no dead entries here.

The sequence operations are the same writes at whole-number keys, between 1
and the border: the largest `n` such that all positions up to `n` are bound.
-/

namespace ScriptEngine

/-- A canonical key with its value, and the key as it was written first. -/
structure Binding where
  key : Key
  written : Value
  value : Value
deriving DecidableEq

abbrev Association := List Binding

/-- The canonical key of an integer: a position, or else that of its number. -/
def integerKey? (i : Int) : Option Key :=
  if 1 ≤ i ∧ i ≤ Key.maxPosition then some (.position i.toNat)
  else Key.ofValue? (.number (Float.ofInt i))

theorem integerKey?_eq_ofValue? (i : Int) :
    integerKey? i = Key.ofValue? (.number (Float.ofInt i)) := by
  unfold integerKey?
  split
  · next hrange =>
      obtain ⟨n, rfl⟩ := Int.eq_ofNat_of_zero_le (by omega : 0 ≤ i)
      have hn : 1 ≤ n ∧ n ≤ 2 ^ 53 := by
        simp only [Key.maxPosition, Nat.pow_eq] at hrange
        omega
      have hnumber : Key.ofNumber? (Float.ofNat n) = some (.position n) := by
        by_cases hlast : n = 2 ^ 53
        · subst hlast
          decide +kernel
        · have hlt : n < 2 ^ 53 := by omega
          have hnormal := Double.isNormal_ofNat hn.1 hlt
          have htruncate :
              (Dyadic.ofFloat (Float.ofNat n)).truncate = (n : Int) :=
            hnormal.truncate hn.1 hlt
          unfold Key.ofNumber?
          rw [Double.isNaN_ofNat, hnormal.isWhole, htruncate]
          simp only [Bool.false_eq_true, if_false, if_true]
          rw [if_pos]
          · rfl
          · simp only [Key.maxPosition, Nat.pow_eq]
            omega
      exact hnumber.symm
  · rfl

namespace Association

def lookup? (a : Association) (key : Key) : Option Value :=
  (a.find? fun b => b.key = key).map (·.value)

def read (a : Association) (key : Key) : Value :=
  (a.lookup? key).getD .nil

def get (a : Association) (key : Value) : Value :=
  match Key.ofValue? key with
  | some k => a.read k
  | none => .nil

def write (a : Association) (key : Key) (written value : Value) : Association :=
  if value.isNil then a.filter fun b => b.key ≠ key
  else if (a.lookup? key).isSome then
    a.map fun b => if b.key = key then { b with value } else b
  else a ++ [⟨key, written, value⟩]

def Bound (a : Association) (key : Key) : Prop :=
  ∃ b ∈ a, b.key = key

instance (a : Association) (key : Key) : Decidable (a.Bound key) :=
  inferInstanceAs (Decidable (∃ b ∈ a, b.key = key))

theorem isSome_lookup? {a : Association} {key : Key} :
    (a.lookup? key).isSome = true ↔ a.Bound key := by
  simp [lookup?, Bound]

theorem lookup?_eq_none {a : Association} {key : Key} :
    a.lookup? key = none ↔ ¬ a.Bound key := by
  rw [← isSome_lookup?]
  cases a.lookup? key <;> simp

/-- With distinct keys a binding is found wherever it stands. -/
theorem lookup?_eq_some_iff {a : Association}
    (hnodup : (a.map (·.key)).Nodup) {key : Key} {value : Value} :
    a.lookup? key = some value ↔ ∃ b ∈ a, b.key = key ∧ b.value = value := by
  constructor
  · intro h
    obtain ⟨b, hfind, hvalue⟩ := Option.map_eq_some_iff.mp h
    have hkey : b.key = key := by simpa using List.find?_some hfind
    exact ⟨b, List.mem_of_find?_eq_some hfind, hkey, hvalue⟩
  · rintro ⟨b, hmem, hkey, hvalue⟩
    have hsome : (a.lookup? key).isSome = true :=
      isSome_lookup?.mpr ⟨b, hmem, hkey⟩
    obtain ⟨value', hlookup⟩ := Option.isSome_iff_exists.mp hsome
    obtain ⟨c, hfind, hvalue'⟩ := Option.map_eq_some_iff.mp hlookup
    have hkey' : c.key = key := by simpa using List.find?_some hfind
    have hsame : c = b :=
      List.inj_on_of_nodup_map hnodup (List.mem_of_find?_eq_some hfind) hmem
        (hkey'.trans hkey.symm)
    rw [hlookup, ← hvalue', hsame, hvalue]

theorem filter_eq_self_of_not_bound {a : Association}
    (hunbound : ¬ a.Bound key) : (a.filter fun b => b.key ≠ key) = a := by
  rw [List.filter_eq_self]
  intro b hmem
  have hne : b.key ≠ key := fun hkey => hunbound ⟨b, hmem, hkey⟩
  simpa using hne

theorem map_replace_eq_self_of_not_bound {a : Association} {key : Key}
    (hunbound : ¬ a.Bound key) (value : Value) :
    (a.map fun b => if b.key = key then { b with value } else b) = a := by
  have hid : (a.map fun b => if b.key = key then { b with value } else b) = a.map id :=
    List.map_congr_left fun b hb => if_neg fun hkey => hunbound ⟨b, hb, hkey⟩
  rw [hid, List.map_id]

/-! ## The border -/

theorem nodup_positions (n : Nat) :
    ((List.range n).map fun i => Key.position (i + 1)).Nodup := by
  apply List.Nodup.map _ List.nodup_range
  intro i j h
  simpa using h

/-- Only finitely many positions are bound. -/
theorem exists_unbound_position (a : Association) :
    ∃ n, ¬ a.Bound (.position (n + 1)) := by
  by_contra hall
  have hbound : ∀ n, a.Bound (.position (n + 1)) := by
    intro n
    by_contra hn
    exact hall ⟨n, hn⟩
  have hsubset :
      ((List.range (a.length + 1)).map fun n => Key.position (n + 1)) ⊆
        a.map (·.key) := by
    intro key hkey
    obtain ⟨n, -, rfl⟩ := List.mem_map.mp hkey
    obtain ⟨b, hmem, hb⟩ := hbound n
    exact List.mem_map.mpr ⟨b, hmem, hb⟩
  have hlength :=
    (List.subperm_of_subset (nodup_positions _) hsubset).length_le
  simp only [List.length_map, List.length_range] at hlength
  omega

/-- The largest `n` such that the positions from 1 to `n` are bound. -/
def border (a : Association) : Nat :=
  Nat.find a.exists_unbound_position

theorem border_eq_iff {a : Association} {n : Nat} :
    a.border = n ↔
      ¬ a.Bound (.position (n + 1)) ∧ ∀ m < n, a.Bound (.position (m + 1)) := by
  simp [border, Nat.find_eq_iff]

/-! ## Whole numbers -/

def readInteger (a : Association) (i : Int) : Value :=
  if 1 ≤ i then a.read (.position i.toNat)
  else a.get (.number (Float.ofInt i))

def writeInteger (a : Association) (i : Int) (value : Value) : Association :=
  match integerKey? i with
  | some key => a.write key (.number (Float.ofInt i)) value.toStorable
  | none => a

def append (a : Association) (value : Value) : Association :=
  a.writeInteger (Int.ofNat a.border + 1) value

/-- Moves `n` items up by one, the topmost first. -/
def moveUp (first : Nat) : Nat → Association → Association
  | 0, a => a
  | n + 1, a =>
    let i := Int.ofNat (first + n)
    moveUp first n (a.writeInteger (i + 1) (a.readInteger i))

/-- Moves `n` items down by one, the lowest first. -/
def moveDown : Nat → Nat → Association → Association
  | _, 0, a => a
  | first, n + 1, a =>
    let i := Int.ofNat first
    moveDown (first + 1) n (a.writeInteger i (a.readInteger (i + 1)))

def insertAt (a : Association) (place : Nat) (value : Value) : Association :=
  (moveUp place (a.border + 1 - place) a).writeInteger
    (Table.signedWord place) value

def removeAt (a : Association) (place : Nat) : Association :=
  let moved := moveDown place (a.border - place) a
  if place ≤ a.border then moved.writeInteger (Int.ofNat a.border) .nil
  else moved

/-! ## What a write does to the border -/

theorem border_le_length (a : Association) : a.border ≤ a.length := by
  have hbound := (border_eq_iff.mp (rfl : a.border = a.border)).2
  have hsubset :
      ((List.range a.border).map fun n => Key.position (n + 1)) ⊆
        a.map (·.key) := by
    intro key hkey
    obtain ⟨n, hn, rfl⟩ := List.mem_map.mp hkey
    obtain ⟨b, hmem, hb⟩ := hbound n (List.mem_range.mp hn)
    exact List.mem_map.mpr ⟨b, hmem, hb⟩
  have hlength :=
    (List.subperm_of_subset (nodup_positions a.border) hsubset).length_le
  simpa using hlength

/-- The border depends only on which positions are bound. -/
theorem border_congr {a c : Association}
    (h : ∀ n, a.Bound (.position (n + 1)) ↔ c.Bound (.position (n + 1))) :
    a.border = c.border := by
  rw [border_eq_iff, h]
  have hc := border_eq_iff.mp (rfl : c.border = c.border)
  exact ⟨hc.1, fun m hm => (h m).mpr (hc.2 m hm)⟩

theorem bound_filter_ne {a : Association} {key other : Key} :
    Bound (a.filter fun b => b.key ≠ key) other ↔
      a.Bound other ∧ other ≠ key := by
  constructor
  · rintro ⟨b, hmem, rfl⟩
    have hb := List.mem_filter.mp hmem
    exact ⟨⟨b, hb.1, rfl⟩, by simpa using hb.2⟩
  · rintro ⟨⟨b, hmem, rfl⟩, hne⟩
    exact ⟨b, List.mem_filter.mpr ⟨hmem, by simpa using hne⟩, rfl⟩

theorem bound_map_replace {a : Association} {key other : Key} {value : Value} :
    Bound (a.map fun b => if b.key = key then { b with value } else b) other ↔
      a.Bound other := by
  have hkey : ∀ b : Binding,
      (if b.key = key then { b with value } else b).key = b.key := by
    intro b
    split <;> rfl
  simp only [Bound, List.mem_map, exists_exists_and_eq_and, hkey]

theorem bound_append_single {a : Association} {b : Binding} {other : Key} :
    Bound (a ++ [b]) other ↔ a.Bound other ∨ b.key = other := by
  simp only [Bound, List.mem_append, List.mem_singleton]
  constructor
  · rintro ⟨c, hc | rfl, hkey⟩
    · exact Or.inl ⟨c, hc, hkey⟩
    · exact Or.inr hkey
  · rintro (⟨c, hc, hkey⟩ | hkey)
    · exact ⟨c, Or.inl hc, hkey⟩
    · exact ⟨b, Or.inr rfl, hkey⟩

/-- Taking out a position within the border moves the border before it. -/
theorem border_filter_position {a : Association} {i : Nat} (hi : 1 ≤ i) :
    border (a.filter fun b => b.key ≠ .position i) =
      if i ≤ a.border then i - 1 else a.border := by
  have ha := border_eq_iff.mp (rfl : a.border = a.border)
  rw [border_eq_iff]
  simp only [bound_filter_ne, ne_eq, Key.position.injEq, not_and, not_not]
  split
  · refine ⟨fun _ => by omega, ?_⟩
    intro m hm
    exact ⟨ha.2 m (by omega), by omega⟩
  · refine ⟨fun h => absurd h ha.1, ?_⟩
    intro m hm
    exact ⟨ha.2 m hm, by omega⟩

theorem border_filter_of_ne {a : Association} {key : Key}
    (hkey : ∀ i, key ≠ .position i) :
    border (a.filter fun b => b.key ≠ key) = a.border := by
  apply border_congr
  intro n
  rw [bound_filter_ne]
  exact ⟨fun h => h.1, fun h => ⟨h, fun heq => hkey _ heq.symm⟩⟩

/-- A new key moves the border only if it is the next position. -/
theorem border_append_of_ne {a : Association} {b : Binding}
    (hkey : b.key ≠ .position (a.border + 1)) :
    border (a ++ [b]) = a.border := by
  have ha := border_eq_iff.mp (rfl : a.border = a.border)
  rw [border_eq_iff]
  simp only [bound_append_single]
  exact ⟨fun h => h.elim ha.1 hkey, fun m hm => Or.inl (ha.2 m hm)⟩

theorem border_le_append {a : Association} {b : Binding} :
    a.border ≤ border (a ++ [b]) := by
  by_contra hlt
  have ha := border_eq_iff.mp (rfl : a.border = a.border)
  have hc := border_eq_iff.mp (rfl : border (a ++ [b]) = border (a ++ [b]))
  apply hc.1
  rw [bound_append_single]
  exact Or.inl (ha.2 _ (by omega))

end Association

end ScriptEngine
