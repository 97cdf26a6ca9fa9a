import ScriptEngine.Machine.Call
import ScriptEngine.Proofs.World.Extension

/-!
# What scripts can see of a world

The processors of coroutines at rest are part of the world, but no script and
no operator looks into them.  `World.bare` leaves them out; every question the
instructions ask has the same answer in the bare world, and every change they
make is made alike there.
-/

namespace ScriptEngine

variable {H : HostTypes} {α : Type}

def Object.bare : Object H → Object H
  | .coroutine c => .coroutine { c with processor? := none }
  | o => o

namespace World

def bare (w : World H) : World H :=
  { w with objects := w.objects.map Object.bare }

/-- The answer does not depend on processors at rest. -/
def Blind (f : World H → α) : Prop :=
  ∀ w, f w.bare = f w

/-- A change that only extends the world, is made without a look at processors
at rest and has nothing to do with coroutines and functions of the host. -/
structure Tame (f : World H → World H) : Prop where
  extending : ∀ w : World H, w.Extends (f w)
  bare : ∀ w, (f w).bare = f w.bare
  coroutine? : ∀ w r, (f w).coroutine? r = w.coroutine? r
  native? : ∀ w r, (f w).native? r = w.native? r

/-- A change of this kind that gives a value. -/
structure TameWith (f : World H → α × World H) : Prop where
  extending : ∀ w : World H, w.Extends (f w).2
  value : ∀ w, (f w.bare).1 = (f w).1
  bare : ∀ w, (f w).2.bare = (f w.bare).2
  coroutine? : ∀ w r, (f w).2.coroutine? r = w.coroutine? r

/-! ## Questions -/

theorem object?_bare (w : World H) (id : Nat) :
    w.bare.object? id = (w.object? id).map Object.bare := by
  cases id with
  | zero => rfl
  | succ n => simp [object?, bare]

@[simp] theorem table_bare (w : World H) (r : TableRef) :
    w.bare.table r = w.table r := by
  unfold table
  rw [object?_bare]
  cases w.object? r.id with
  | none => rfl
  | some o => cases o <;> rfl

@[simp] theorem closure_bare (w : World H) (r : FunctionRef) :
    w.bare.closure r = w.closure r := by
  unfold closure
  rw [object?_bare]
  cases w.object? r.id with
  | none => rfl
  | some o => cases o <;> rfl

@[simp] theorem native?_bare (w : World H) (r : NativeRef) :
    w.bare.native? r = w.native? r := by
  unfold native?
  rw [object?_bare]
  cases w.object? r.id with
  | none => rfl
  | some o => cases o <;> rfl

@[simp] theorem userObject?_bare (w : World H) (r : UserDataRef) :
    w.bare.userObject? r = w.userObject? r := by
  unfold userObject?
  rw [object?_bare]
  cases w.object? r.id with
  | none => rfl
  | some o => cases o <;> rfl

@[simp] theorem cell_bare (w : World H) (c : CellRef) :
    w.bare.cell c = w.cell c := rfl

@[simp] theorem typeMetatable?_bare (w : World H) (type : DataType) :
    w.bare.typeMetatable? type = w.typeMetatable? type := rfl

@[simp] theorem host_bare (w : World H) : w.bare.host = w.host := rfl

@[simp] theorem settings_bare (w : World H) : w.bare.settings = w.settings := rfl

@[simp] theorem cancelled_bare (w : World H) :
    w.bare.cancelled = w.cancelled := rfl

@[simp] theorem metatable?_bare (w : World H) (v : Value) :
    w.bare.metatable? v = w.metatable? v := by
  cases v <;> simp [metatable?]

@[simp] theorem metatableHook?_bare (w : World H) (v : Value) (op : Operator) :
    w.bare.metatableHook? v op = w.metatableHook? v op := by
  simp [metatableHook?]

variable [HostObjects H]

@[simp] theorem objectHook?_bare (w : World H) (v : Value) (op : Operator) :
    w.bare.objectHook? v op = w.objectHook? v op := by
  cases v <;> simp [objectHook?]

@[simp] theorem hook?_bare (w : World H) (v : Value) (op : Operator) :
    w.bare.hook? v op = w.hook? v op := by
  simp [hook?]

@[simp] theorem binaryHook?_bare (w : World H) (a b : Value) (op : Operator) :
    w.bare.binaryHook? a b op = w.binaryHook? a b op := by
  simp [binaryHook?]

@[simp] theorem userIndex_bare (w : World H) (u : UserDataRef) (key : Value) :
    w.bare.userIndex u key = w.userIndex u key := by
  simp [userIndex]

@[simp] theorem userAssign_bare (w : World H) (u : UserDataRef)
    (key value : Value) :
    w.bare.userAssign u key value = w.userAssign u key value := by
  simp [userAssign]

@[simp] theorem sameUserKind_bare (w : World H) (a b : UserDataRef) :
    w.bare.sameUserKind a b = w.sameUserKind a b := by
  unfold sameUserKind
  rw [userObject?_bare, userObject?_bare]

@[simp] theorem valuesEqual_bare (w : World H) (a b : Value) :
    w.bare.valuesEqual a b = w.valuesEqual a b := by
  cases a <;> cases b <;> simp [valuesEqual, userEquals]

@[simp] theorem equalHook?_bare (w : World H) (a b : Value) :
    w.bare.equalHook? a b = w.equalHook? a b := by
  cases a <;> cases b <;> simp [equalHook?]

theorem blind_resolveArith (op : Operator) (a b : Value) :
    Blind (H := H) fun w => w.resolveArith op a b := by
  intro w
  simp [resolveArith]

theorem blind_resolveNegate (a : Value) :
    Blind (H := H) fun w => w.resolveNegate a := by
  intro w
  simp [resolveNegate]

theorem blind_resolveConcat (a b : Value) :
    Blind (H := H) fun w => w.resolveConcat a b := by
  intro w
  simp [resolveConcat]

theorem blind_resolveLength (a : Value) :
    Blind (H := H) fun w => w.resolveLength a := by
  intro w
  simp [resolveLength]

theorem blind_resolveEqual (a b : Value) :
    Blind (H := H) fun w => w.resolveEqual a b := by
  intro w
  simp [resolveEqual]

theorem blind_resolveLess (a b : Value) :
    Blind (H := H) fun w => w.resolveLess a b := by
  intro w
  simp [resolveLess]

theorem blind_resolveLessEqual (a b : Value) :
    Blind (H := H) fun w => w.resolveLessEqual a b := by
  intro w
  simp [resolveLessEqual]

@[simp] theorem indexWithin_bare (w : World H) (key : Value) (hops : Nat)
    (object : Value) :
    w.bare.indexWithin key hops object = w.indexWithin key hops object := by
  induction hops generalizing object with
  | zero => rfl
  | succ hops ih => cases object <;> simp [indexWithin, ih]

theorem blind_resolveIndex (object key : Value) :
    Blind (H := H) fun w => w.resolveIndex object key := by
  intro w
  simp [resolveIndex]

@[simp] theorem setIndexWithin_bare (w : World H) (key value : Value)
    (hops : Nat) (object : Value) :
    w.bare.setIndexWithin key value hops object =
      w.setIndexWithin key value hops object := by
  induction hops generalizing object with
  | zero => rfl
  | succ hops ih => cases object <;> simp [setIndexWithin, ih]

theorem blind_resolveSetIndex (object key value : Value) :
    Blind (H := H) fun w => w.resolveSetIndex object key value := by
  intro w
  simp [resolveSetIndex]

@[simp] theorem callee_bare (w : World H) (hops : Nat) (v : Value)
    (args : List Value) : w.bare.callee hops v args = w.callee hops v args := by
  induction hops generalizing v args with
  | zero => cases v <;> simp [callee]
  | succ hops ih => cases v <;> simp [callee, ih]

omit [HostObjects H]

/-! ## Changes -/

theorem bare_add (w : World H) (o : Object H) :
    (w.add o).bare = w.bare.add o.bare := by
  simp [add, World.bare]

@[simp] theorem nextId_bare (w : World H) : w.bare.nextId = w.nextId := by
  simp [nextId, World.bare]

theorem bare_modifyObject_of (w : World H) (id : Nat) {f g : Object H → Object H}
    (hf : ∀ o : Object H, (f o).bare = g o.bare) :
    (w.modifyObject id f).bare = w.bare.modifyObject id g := by
  cases id with
  | zero => rfl
  | succ n =>
      simp only [modifyObject, World.bare]
      congr 1
      apply Array.ext_getElem?
      intro i
      simp only [Array.getElem?_map, Array.getElem?_modify]
      split
      · cases w.objects[i]? <;> simp [hf]
      · rfl

theorem bare_modifyObject (w : World H) (id : Nat) {f : Object H → Object H}
    (hf : ∀ o : Object H, (f o).bare = f o.bare) :
    (w.modifyObject id f).bare = w.bare.modifyObject id f :=
  bare_modifyObject_of w id hf

/-- An object of another kind is no coroutine, whatever becomes of it. -/
theorem coroutine?_modifyObject (w : World H) (id : Nat) {f : Object H → Object H}
    (hf : ∀ o c, f o = .coroutine c ↔ o = .coroutine c) (r : CoroutineRef) :
    (w.modifyObject id f).coroutine? r = w.coroutine? r := by
  have hsame : ∀ c, (w.modifyObject id f).coroutine? r = some c ↔
      w.coroutine? r = some c := by
    intro c
    rw [coroutine?_eq_some_iff, coroutine?_eq_some_iff, object?_modifyObject]
    split
    · simp [hf]
    · rfl
  exact Option.ext hsame

theorem native?_eq_some_iff {w : World H} {r : NativeRef} {n : Native H} :
    w.native? r = some n ↔ w.object? r.id = some (.native n) := by
  unfold native?
  split
  · next hobject => simp [hobject]
  · next hother =>
      constructor
      · intro h
        cases h
      · intro h
        exact absurd h (hother n)

theorem native?_modifyObject (w : World H) (id : Nat) {f : Object H → Object H}
    (hf : ∀ o n, f o = .native n ↔ o = .native n) (r : NativeRef) :
    (w.modifyObject id f).native? r = w.native? r := by
  have hsame : ∀ n, (w.modifyObject id f).native? r = some n ↔
      w.native? r = some n := by
    intro n
    rw [native?_eq_some_iff, native?_eq_some_iff, object?_modifyObject]
    split
    · simp [hf]
    · rfl
  exact Option.ext hsame

theorem object?_nextId (w : World H) : w.object? w.nextId = none := by
  simp [nextId, object?]

theorem coroutine?_add (w : World H) {o : Object H} (ho : ∀ c, o ≠ .coroutine c)
    (r : CoroutineRef) : (w.add o).coroutine? r = w.coroutine? r := by
  have hsame : ∀ c, (w.add o).coroutine? r = some c ↔ w.coroutine? r = some c := by
    intro c
    rw [coroutine?_eq_some_iff, coroutine?_eq_some_iff]
    by_cases hid : r.id = w.nextId
    · rw [hid, object?_add_nextId, object?_nextId]
      simp [ho]
    · rw [object?_add_of_ne w o hid]
  exact Option.ext hsame

theorem tame_modifyObject (id : Nat) {f : Object H → Object H}
    (hcontinues : ∀ o : Object H, o.Continues (f o))
    (hbare : ∀ o : Object H, (f o).bare = f o.bare)
    (hcoroutine : ∀ o c, f o = .coroutine c ↔ o = .coroutine c)
    (hnative : ∀ o n, f o = .native n ↔ o = .native n) :
    Tame fun w => w.modifyObject id f := by
  refine ⟨?_, ?_, ?_, ?_⟩
  · intro w
    exact .modifyObject w id f hcontinues
  · intro w
    exact bare_modifyObject w id hbare
  · intro w
    exact coroutine?_modifyObject w id hcoroutine
  · intro w
    exact native?_modifyObject w id hnative

theorem tame_modifyTable (r : TableRef) (f : Table → Table) :
    Tame (H := H) fun w => w.modifyTable r f := by
  refine tame_modifyObject r.id ?_ ?_ ?_ ?_
  · intro o
    cases o with
    | table t => exact .table t (f t)
    | _ => exact .same _
  all_goals
    intro o
    cases o <;> simp [Object.bare]

theorem tame_setUserObject (r : UserDataRef) (o : H.Object) :
    Tame (H := H) fun w => w.setUserObject r o := by
  refine tame_modifyObject r.id ?_ ?_ ?_ ?_
  · intro other
    cases other with
    | userData old => exact .userData old o
    | _ => exact .same _
  all_goals
    intro other
    cases other <;> simp [Object.bare]

theorem tame_id : Tame (H := H) fun w => w := by
  refine ⟨.refl, ?_, ?_, ?_⟩
  · intro _
    rfl
  · intro _ _
    rfl
  · intro _ _
    rfl

theorem tame_noteLength (v : Value) :
    Tame (H := H) fun w => w.noteLength v := by
  unfold noteLength
  split
  · exact tame_modifyTable _ _
  · exact tame_id

theorem tame_assign (a : Assignment H) : Tame fun w => w.assign a := by
  cases a with
  | entry t key written value => exact tame_modifyTable t _
  | object u o => exact tame_setUserObject u o
  | call p => exact tame_id

theorem tame_setCell (c : CellRef) (v : Value) :
    Tame (H := H) fun w => w.setCell c v := by
  refine ⟨?_, ?_, ?_, ?_⟩
  · intro w
    exact .setCell w c v
  · intro _
    rfl
  · intro _ _
    rfl
  · intro _ _
    rfl

theorem tame_print (line : String) : Tame (H := H) fun w => w.print line := by
  refine ⟨?_, ?_, ?_, ?_⟩
  · intro w
    exact .print w line
  · intro _
    rfl
  · intro _ _
    rfl
  · intro _ _
    rfl

theorem tameWith_newCell (v : Value) :
    TameWith (H := H) fun w => w.newCell v := by
  refine ⟨?_, ?_, ?_, ?_⟩
  · intro w
    exact .newCell w v
  · intro _
    rfl
  · intro _
    rfl
  · intro _ _
    rfl

theorem tameWith_newCells (n : Nat) :
    TameWith (H := H) fun w => w.newCells n := by
  refine ⟨?_, ?_, ?_, ?_⟩
  · intro w
    exact .newCells w n
  · intro _
    rfl
  · intro _
    rfl
  · intro _ _
    rfl

theorem tameWith_addClosure (c : Closure) :
    TameWith (H := H) fun w => w.addClosure c := by
  refine ⟨fun w => .addClosure w c, ?_, fun w => bare_add w _,
    fun w => coroutine?_add w (o := .closure c) (by simp)⟩
  intro w
  simp [addClosure]

theorem tameWith_newTable : TameWith (H := H) newTable := by
  refine ⟨fun w => .addTable w {}, ?_, fun w => bare_add w _,
    fun w => coroutine?_add w (o := .table {}) (by simp)⟩
  intro w
  simp [newTable, addTable]

end World

end ScriptEngine
