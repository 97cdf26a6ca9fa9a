/-!
# Stacks

A stack with its top first that knows its height.  It is looked at through its items:
what is pushed is what is popped, and cutting back to a height undoes every push above it.
-/

namespace ScriptEngine

structure Stack (α : Type) where
  /-- The top is first. -/
  items : List α
  height : Nat
  height_eq : height = items.length

namespace Stack

variable {α : Type}

@[ext] theorem ext {s t : Stack α} (h : s.items = t.items) : s = t := by
  obtain ⟨items, height, hs⟩ := s
  obtain ⟨items', height', ht⟩ := t
  subst hs ht
  cases h
  rfl

def empty : Stack α := ⟨[], 0, rfl⟩

instance : Inhabited (Stack α) := ⟨empty⟩

def push (s : Stack α) (a : α) : Stack α :=
  ⟨a :: s.items, s.height + 1, by simp [s.height_eq]⟩

/-- Pushes the items of a list, the last one ends on top. -/
def pushAll (s : Stack α) (as : List α) : Stack α := as.foldl push s

def top? (s : Stack α) : Option α := s.items.head?

/-- The item at an offset from the top. -/
def get? (s : Stack α) (offset : Nat) : Option α := s.items[offset]?

def pop? (s : Stack α) : Option (α × Stack α) :=
  match s with
  | ⟨[], _, _⟩ => none
  | ⟨a :: rest, h, hh⟩ => some (a, ⟨rest, h - 1, by simp_all⟩)

/-- The topmost `n` items, the lowest of them first, and the stack below. -/
def popMany? (s : Stack α) (n : Nat) : Option (List α × Stack α) :=
  if n ≤ s.height then
    some ((s.items.take n).reverse, ⟨s.items.drop n, s.height - n, by simp [s.height_eq]⟩)
  else none

/-- Cuts the stack down to a height. -/
def truncate (s : Stack α) (height : Nat) : Stack α :=
  ⟨s.items.drop (s.height - height), s.height - (s.height - height), by simp [s.height_eq]⟩

/-- Replaces the item at an offset from the top. -/
def set (s : Stack α) (offset : Nat) (a : α) : Stack α :=
  ⟨s.items.set offset a, s.height, by simp [s.height_eq]⟩

/-- Exchanges the items at two offsets, if both are there. -/
def swap? (s : Stack α) (i j : Nat) : Option (Stack α) :=
  match s.get? i, s.get? j with
  | some a, some b => some ((s.set i b).set j a)
  | _, _ => none

/-- The items above a height, top first. -/
def above (s : Stack α) (height : Nat) : List α :=
  s.items.take (s.height - height)

/-! ## Through the items -/

@[simp] theorem items_empty : (empty : Stack α).items = [] := rfl

@[simp] theorem items_push (s : Stack α) (a : α) : (s.push a).items = a :: s.items := rfl

@[simp] theorem height_push (s : Stack α) (a : α) : (s.push a).height = s.height + 1 := rfl

@[simp] theorem items_pushAll (s : Stack α) (as : List α) :
    (s.pushAll as).items = as.reverse ++ s.items := by
  induction as generalizing s with
  | nil => simp [pushAll]
  | cons a as ih =>
    rw [show s.pushAll (a :: as) = (s.push a).pushAll as from rfl, ih]
    simp

@[simp] theorem height_pushAll (s : Stack α) (as : List α) :
    (s.pushAll as).height = s.height + as.length := by
  simp [height_eq, Nat.add_comm]

@[simp] theorem items_truncate (s : Stack α) (height : Nat) :
    (s.truncate height).items = s.items.drop (s.height - height) := rfl

@[simp] theorem items_set (s : Stack α) (offset : Nat) (a : α) :
    (s.set offset a).items = s.items.set offset a := rfl

/-- The stack that is left has the popped item right above it. -/
theorem pop?_eq_some_iff {s t : Stack α} {a : α} : s.pop? = some (a, t) ↔ s = t.push a := by
  constructor
  · intro h
    obtain ⟨items, height, hs⟩ := s
    cases items with
    | nil => simp [pop?] at h
    | cons b rest =>
      simp only [pop?, Option.some.injEq, Prod.mk.injEq] at h
      obtain ⟨rfl, rfl⟩ := h
      exact ext rfl
  · rintro rfl
    simp only [pop?, push, Nat.add_sub_cancel]

theorem pop?_eq_none_iff {s : Stack α} : s.pop? = none ↔ s.items = [] := by
  obtain ⟨items, height, hs⟩ := s
  cases items <;> simp [pop?]

@[simp] theorem pop?_push (s : Stack α) (a : α) : (s.push a).pop? = some (a, s) :=
  pop?_eq_some_iff.2 rfl

/-- Cutting back to a height undoes the pushes since then. -/
@[simp] theorem truncate_pushAll (s : Stack α) (as : List α) :
    (s.pushAll as).truncate s.height = s := by
  ext1
  simp

end Stack

end ScriptEngine
