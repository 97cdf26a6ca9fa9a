import ScriptEngine.World.Metamethod

/-!
# Operators on values

What an operator comes to: a value at once, or the call of a metamethod that is still
to be made.  Indexing follows a chain of tables as long as each of them passes the key
on, up to a hundred steps.
-/

namespace ScriptEngine

/-- The call of a metamethod and what happens to its result. -/
structure PendingCall where
  function : Value
  args : List Value
  post : PostReturn
deriving DecidableEq

inductive Resolved where
  | value (v : Value)
  | call (p : PendingCall)
deriving DecidableEq

namespace Resolved

def boolean (b : Bool) : Resolved := .value (.boolean b)

def number (n : Float) : Resolved := .value (.number n)

end Resolved

namespace World

variable {H : HostTypes} [HostObjects H]

/-- An arithmetic operator on two operands. -/
def resolveArith (w : World H) (op : Operator) (a b : Value) : Except RuntimeError Resolved :=
  let a := a.toScalar
  let b := b.toScalar
  let numeric? :=
    match a.toNumber?, b.toNumber? with
    | some x, some y => op.onNumbers? x y
    | _, _ => none
  match numeric? with
  | some n => .ok (.number n)
  | none =>
    match w.binaryHook? a b op with
    | some h => .ok (.call ⟨h, [a, b], .scalar⟩)
    | none => .error (.script (.arithmetic op.sign a b))

def resolveNegate (w : World H) (a : Value) : Except RuntimeError Resolved :=
  let a := a.toScalar
  match a.toNumber? with
  | some n => .ok (.number (-n))
  | none =>
    match w.hook? a .neg with
    | some h => .ok (.call ⟨h, [a, a], .scalar⟩)
    | none => .error (.script (.negate a))

def resolveConcat (w : World H) (a b : Value) : Except RuntimeError Resolved :=
  let a := a.toScalar
  let b := b.toScalar
  match a.toText?, b.toText? with
  | some x, some y => .ok (.value (.string (x ++ y)))
  | left?, _ =>
    match w.binaryHook? a b .concat with
    | some h => .ok (.call ⟨h, [a, b], .scalar⟩)
    | none => .error (.script (.concat (if left?.isNone then a else b)))

/-- The length of a value. -/
def resolveLength (w : World H) (a : Value) : Except RuntimeError Resolved :=
  match a.toScalar with
  | .string s => .ok (.number (Float.ofNat s.utf8ByteSize))
  | .table t =>
    match w.metatableHook? (.table t) .length with
    | some h => .ok (.call ⟨h, [.table t], .length⟩)
    | none => .ok (.number (Float.ofNat (w.table t).length))
  | v =>
    match w.hook? v .length with
    | some h => .ok (.call ⟨h, [v], .length⟩)
    | none => .error (.script (.length v))

/-- The definition of equality that counts for two different values: both are tables with one and
the same metatable, or user data of one kind. -/
def equalHook? (w : World H) (a b : Value) : Option Value :=
  match a, b with
  | .table x, .table y =>
    match (w.table x).metatable?, (w.table y).metatable? with
    | some m, some n =>
      if m = n then present? ((w.table m).getName Operator.equal.field) else none
    | _, _ => none
  | .userData x, .userData y => if w.sameUserKind x y then w.hook? a .equal else none
  | _, _ => none

/-- Equality never fails. -/
def resolveEqual (w : World H) (a b : Value) : Resolved :=
  let a := a.toScalar
  let b := b.toScalar
  if w.valuesEqual a b then .boolean true
  else
    match w.equalHook? a b with
    | some h => .call ⟨h, [a, b], .toBool⟩
    | none => .boolean false

def resolveLess (w : World H) (a b : Value) : Except RuntimeError Resolved :=
  let a := a.toScalar
  let b := b.toScalar
  match a, b with
  | .number x, .number y => .ok (.boolean (x < y))
  | .string x, .string y => .ok (.boolean (x < y))
  | _, _ =>
    match w.binaryHook? a b .less with
    | some h => .ok (.call ⟨h, [a, b], .toBool⟩)
    | none => .error (.script (.comparison a b))

/-- `a <= b`; where only `<` is defined it is the opposite of `b < a`. -/
def resolveLessEqual (w : World H) (a b : Value) : Except RuntimeError Resolved :=
  let a := a.toScalar
  let b := b.toScalar
  match a, b with
  | .number x, .number y => .ok (.boolean (x ≤ y))
  | .string x, .string y => .ok (.boolean (x ≤ y))
  | _, _ =>
    match w.binaryHook? a b .lessEqual with
    | some h => .ok (.call ⟨h, [a, b], .toBool⟩)
    | none =>
      match w.binaryHook? b a .less with
      | some h => .ok (.call ⟨h, [b, a], .negateBool⟩)
      | none => .error (.script (.comparison a b))

/-- The text of a value, its own definition first. -/
def resolveText (w : World H) (a : Value) : Resolved :=
  let a := a.toScalar
  match w.hook? a .toString with
  | some h => .call ⟨h, [a], .scalar⟩
  | none => .value (.string a.display)

/-! ## Indexing -/

/-- The longest chain of tables that is followed. -/
def maxIndexHops : Nat := 100

/-- `object[key]` within the given number of steps. -/
def indexWithin (w : World H) (key : Value) : Nat → Value → Except RuntimeError Resolved
  | 0, _ => .error (.script (.indexLoop false))
  | hops + 1, object =>
    let follow (h : Value) : Except RuntimeError Resolved :=
      if h.isCallable then .ok (.call ⟨h, [object, key], .scalar⟩) else indexWithin w key hops h
    match object with
    | .table t =>
      let raw := (w.table t).get key
      if !raw.isNil then .ok (.value raw)
      else
        match w.metatableHook? object .index with
        | some h => follow h
        | none => .ok (.value .nil)
    | .userData u => (w.userIndex u key).map .value
    | _ =>
      match w.metatableHook? object .index with
      | some h => follow h
      | none => .error (.script (.index object))

/-- `object[key]`. -/
def resolveIndex (w : World H) (object key : Value) : Except RuntimeError Resolved :=
  w.indexWithin key maxIndexHops object.toScalar

/-- What an assignment comes to. -/
inductive Assignment (H : HostTypes) where
  /-- A storable value goes into an entry of a table; `written` is the key as it was given. -/
  | entry (t : TableRef) (key : Key) (written value : Value)
  /-- User data has a new object behind it. -/
  | object (u : UserDataRef) (o : H.Object)
  /-- A metamethod does it. -/
  | call (p : PendingCall)

/-- `object[key] = value` within the given number of steps; the value is storable. -/
def setIndexWithin (w : World H) (key value : Value) :
    Nat → Value → Except RuntimeError (Assignment H)
  | 0, _ => .error (.script (.indexLoop true))
  | hops + 1, object =>
    let follow (h : Value) : Except RuntimeError (Assignment H) :=
      if h.isCallable then .ok (.call ⟨h, [object, key, value], .discard⟩)
      else setIndexWithin w key value hops h
    match object with
    | .table t =>
      let hook? :=
        if ((w.table t).get key).isNil then w.metatableHook? object .newIndex else none
      match hook? with
      | some h => follow h
      | none =>
        match Key.ofValue? key with
        | some k => .ok (.entry t k key.toScalar value)
        | none => .error (.script (.badKey key))
    | .userData u => (w.userAssign u key value).map (.object u)
    | _ =>
      match w.metatableHook? object .newIndex with
      | some h => follow h
      | none => .error (.script (.index object))

/-- `object[key] = value`. -/
def resolveSetIndex (w : World H) (object key value : Value) :
    Except RuntimeError (Assignment H) :=
  w.setIndexWithin key value.toStorable maxIndexHops object.toScalar

omit [HostObjects H] in
/-- Carries out an assignment that needs no call. -/
def assign (w : World H) : Assignment H → World H
  | .entry t key written value => w.modifyTable t fun t => t.setKey key written value
  | .object u o => w.setUserObject u o
  | .call _ => w

end World

end ScriptEngine
