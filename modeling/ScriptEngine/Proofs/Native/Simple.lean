import ScriptEngine.Proofs.Coroutine.Lawful
import ScriptEngine.Proofs.Error.Sources

/-!
# Simple host functions

Most of what the functions of the library do is put together from a few
operations: they ask the world for what scripts can see, too, make changes that
scripts can make, create objects and call back.  `Action.Simple` is the class of
such actions: a fact about its operations, by induction, is a fact about every
function of the library but the two that resume a coroutine.
-/

namespace ScriptEngine

variable {H : HostTypes} {E : RuntimeError → Prop}

/-- An action that does nothing scripts could not do; all errors that it fails
with of its own are script errors or from the given set. -/
inductive Action.Simple (E : RuntimeError → Prop) :
    {α : Type} → Action H α → Prop where
  | pure {α : Type} (a : α) : Simple E (pure a)
  | raise {α : Type} (e : ScriptError) : Simple E (raise e : Action H α)
  | bind {α β : Type} {x : Action H α} {f : α → Action H β} (hx : Simple E x)
      (hf : ∀ a, Simple E (f a)) : Simple E (x >>= f)
  | ask {α : Type} {f : World H → α} (hf : World.Blind f) : Simple E (ask f)
  | consult {α : Type} {f : World H → Except RuntimeError α}
      (hf : World.Blind f) (hE : ∀ w, ErrorsIn E (f w)) :
      Simple E (ask f >>= ofResult)
  | change {f : World H → World H} (hf : World.Tame f) : Simple E (change f)
  | create {o : Object H} (ho : ∀ c, o ≠ .coroutine c)
      (hnative : ∀ n, o = .native n → ∃ c, n.body = .library (.wrapped c)) :
      Simple E (create o)
  | newCoroutine (entry : Value) : Simple E (Library.newCoroutine entry)
  | callValue (function : Value) (args : List Value) :
      Simple E (callValue function args)

namespace World

/-- What there is of a coroutine but its processor is seen in the bare world,
too. -/
theorem coroutine_bare (w : World H) (r : CoroutineRef) :
    (w.bare.coroutine r).state = (w.coroutine r).state := by
  unfold coroutine
  rw [object?_bare]
  cases w.object? r.id with
  | none => rfl
  | some o => cases o <;> rfl

theorem blind_current? : Blind (H := H) fun w => w.current? := by
  intro _
  rfl

end World

namespace Action

/-! ## Operators -/

theorem simple_ofScript {α : Type} (r : Except ScriptError α) :
    Simple E (ofScript r : Action H α) := by
  cases r with
  | ok a => exact .pure a
  | error e => exact .raise e

theorem simple_tableLength (t : TableRef) :
    Simple E (tableLength t : Action H Nat) := by
  refine .bind (.change (World.tame_noteLength _)) fun _ => .ask fun w => ?_
  rw [World.table_bare]

theorem simple_complete (r : Resolved) :
    Simple E (complete r : Action H Value) := by
  cases r with
  | value v => exact .pure v
  | call p =>
      exact .bind (.callValue _ _) fun _ =>
        .bind (simple_ofScript _) fun _ => .pure _

/-- A question to the world whose answer may be an error. -/
theorem simple_consult {α β : Type} {f : World H → Except RuntimeError α}
    {g : α → Action H β} (hf : World.Blind f) (hE : ∀ w, ErrorsIn E (f w))
    (hg : ∀ a, Simple E (g a)) :
    Simple E (do
      let a ← ofResult (← ask f)
      g a) := by
  have hassoc : (do
      let a ← ofResult (← ask f)
      g a) = (ask f >>= ofResult) >>= g := by
    rw [LawfulMonad.bind_assoc]
  rw [hassoc]
  exact .bind (.consult hf hE) hg

section

variable [HostObjects H] (hE : Covers H E)

include hE

theorem simple_index (object key : Value) :
    Simple E (index object key : Action H Value) := by
  refine simple_consult (World.blind_resolveIndex object key) ?_ simple_complete
  intro w
  exact hE.withstands.resolveIndex w object key

omit hE in
theorem simple_displayText (v : Value) :
    Simple E (displayText v : Action H String) := by
  refine .bind (.ask fun w => ?_) fun r => .bind (simple_complete r) ?_
  · simp [World.resolveText]
  · intro text
    split
    · exact .pure _
    · exact .raise _

end

end Action

namespace Library

open ScriptEngine.Action

theorem simple_results (values : List Value) :
    Simple E (results values : Action H NativeOutcome) :=
  .pure _

theorem simple_one (v : Value) :
    Simple E (one v : Action H NativeOutcome) :=
  .pure _

theorem simple_assert (a : Arguments) :
    Simple E (assert a : Action H NativeOutcome) := by
  unfold assert
  split
  · exact simple_results _
  · split <;> exact .raise _

theorem simple_error (a : Arguments) :
    Simple E (error a : Action H NativeOutcome) := by
  refine .bind (simple_ofScript _) fun _ => ?_
  exact .raise _

theorem simple_pcall (ok failed : NativeRef) (a : Arguments) :
    Simple E (pcall ok failed a : Action H NativeOutcome) := by
  unfold pcall
  split
  · exact .raise _
  · exact .pure _

theorem simple_xpcall (ok failed : NativeRef) (a : Arguments) :
    Simple E (xpcall ok failed a : Action H NativeOutcome) := by
  refine .bind (simple_ofScript _) fun _ => ?_
  exact .pure _

/-! ## Sequences -/

theorem simple_bounds (a : Arguments) (t : TableRef) (place : Nat)
    (function : String) :
    Simple E (bounds a t place function : Action H (Int × Int)) := by
  refine .bind (simple_ofScript _) fun _ => ?_
  refine .bind (simple_tableLength t) fun _ => ?_
  refine .bind (simple_ofScript _) fun _ => ?_
  exact .pure _

theorem simple_askTable (t : TableRef) {β : Type} (f : Table → β) :
    Simple E (ask fun w : World H => f (w.table t)) := by
  refine .ask fun w => ?_
  rw [World.table_bare w t]

theorem simple_changeTable (t : TableRef) (f : Table → Table) :
    Simple E (change fun w : World H => w.modifyTable t f) :=
  .change (World.tame_modifyTable t f)

theorem simple_unpack (a : Arguments) :
    Simple E (unpack a : Action H NativeOutcome) := by
  refine .bind (simple_ofScript _) fun t => ?_
  refine .bind (simple_bounds a t _ _) fun range => ?_
  dsimp only
  split
  · exact .raise _
  · exact .bind (simple_askTable t fun t => t.slice _ _) fun _ =>
      simple_one _

theorem simple_concat (a : Arguments) :
    Simple E (concat a : Action H NativeOutcome) := by
  refine .bind (simple_ofScript _) fun t => ?_
  dsimp only
  split
  all_goals
    refine .bind ?_ fun separator => ?_
    · first
      | exact .pure _
      | exact simple_ofScript _
    · refine .bind (simple_bounds a t _ _) fun range => ?_
      refine .bind (simple_askTable t fun t => t.texts _ _) fun texts => ?_
      cases texts with
      | ok texts => exact simple_one _
      | error i => exact .raise _

theorem simple_insert (a : Arguments) :
    Simple E (insert a : Action H NativeOutcome) := by
  refine .bind (simple_ofScript _) fun t => ?_
  refine .bind (simple_tableLength t) fun n => ?_
  split
  · exact .bind (simple_changeTable t _) fun _ => simple_one _
  · refine .bind (simple_ofScript _) fun position => ?_
    split
    · exact .bind (simple_changeTable t _) fun _ => simple_one _
    · exact .raise _
  · exact .raise _

theorem simple_removeFrom (t : TableRef) (position : Nat) :
    Simple E (removeFrom t position : Action H NativeOutcome) := by
  refine .bind (simple_askTable t fun t => (t.removeAt position).1) fun _ => ?_
  refine .bind (simple_changeTable t _) fun _ => ?_
  exact simple_one _

theorem simple_remove (a : Arguments) :
    Simple E (remove a : Action H NativeOutcome) := by
  refine .bind (simple_ofScript _) fun t => ?_
  refine .bind (simple_tableLength t) fun n => ?_
  split
  · split
    · exact simple_one _
    · exact simple_removeFrom _ _
  · refine .bind (simple_ofScript _) fun position => ?_
    split
    · exact .bind (simple_askTable t fun t => t.getInt position) fun _ =>
        simple_one _
    · split
      · exact simple_removeFrom _ _
      · exact .raise _

theorem simple_pack (a : Arguments) :
    Simple E (pack a : Action H NativeOutcome) := by
  refine .bind (.create ?_ ?_) fun _ => simple_one _
  · intro c h
    cases h
  · intro n h
    cases h

/-! ## Types and metatables -/

theorem simple_typeOf (a : Arguments) :
    Simple E (typeOf a : Action H NativeOutcome) := by
  unfold typeOf
  dsimp only
  split
  · exact .raise _
  · exact simple_one _

theorem simple_askGuard (m : TableRef) :
    Simple E (ask fun w : World H => guardOf w m) :=
  simple_askTable m fun t => t.getName Operator.metatable.field

theorem simple_getMetatable (a : Arguments) :
    Simple E (getMetatable a : Action H NativeOutcome) := by
  refine .bind (.ask fun w => World.metatable?_bare w _) fun m? => ?_
  cases m? with
  | none => exact simple_one _
  | some m => exact .bind (simple_askGuard m) fun _ => simple_one _

theorem simple_setMetatable (a : Arguments) :
    Simple E (setMetatable a : Action H NativeOutcome) := by
  refine .bind (simple_ofScript _) fun t => ?_
  dsimp only
  split
  all_goals
    refine .bind ?_ fun m? => ?_
    · first
      | exact .pure _
      | exact .raise _
    · refine .bind (.ask fun w => ?_) fun isGuarded => ?_
      · simp [guardOf]
      · split
        · exact .raise _
        · exact .bind (simple_changeTable t _) fun _ => simple_one _

theorem simple_rawGet (a : Arguments) :
    Simple E (rawGet a : Action H NativeOutcome) := by
  refine .bind (simple_ofScript _) fun t => ?_
  refine .bind (simple_askTable t fun t => t.get _) fun _ => ?_
  exact simple_one _

theorem simple_rawSet (a : Arguments) :
    Simple E (rawSet a : Action H NativeOutcome) := by
  refine .bind (simple_ofScript _) fun t => ?_
  dsimp only
  split
  · exact .raise _
  · exact .bind (simple_changeTable t _) fun _ => simple_one _

theorem simple_rawLength (a : Arguments) :
    Simple E (rawLength a : Action H NativeOutcome) := by
  unfold rawLength
  split
  · exact .bind (simple_tableLength _) fun _ => simple_one _
  · exact simple_one _
  · exact .raise _

/-! ## Going through arguments -/

theorem simple_ipairs (step : NativeRef) (a : Arguments) :
    Simple E (ipairs step a : Action H NativeOutcome) := by
  refine .bind (simple_ofScript _) fun _ => ?_
  exact simple_results _

theorem simple_select (a : Arguments) :
    Simple E (select a : Action H NativeOutcome) := by
  unfold select
  dsimp only
  split
  · exact simple_one _
  · refine .bind (simple_ofScript _) fun position => ?_
    split
    · exact simple_results _
    · exact .raise _

theorem simple_next (a : Arguments) :
    Simple E (next a : Action H NativeOutcome) := by
  refine .bind (simple_ofScript _) fun t => ?_
  refine .bind (simple_askTable t fun t => t.next _) fun found => ?_
  split
  · exact simple_results _
  · exact simple_one _
  · exact .raise _

theorem simple_oneNumber (n? : Option Float) :
    Simple E (oneNumber n? : Action H NativeOutcome) :=
  simple_one _

theorem simple_toNumber (a : Arguments) :
    Simple E (toNumber a : Action H NativeOutcome) := by
  unfold toNumber
  split
  · split
    · exact simple_oneNumber _
    · exact simple_oneNumber _
    · exact .raise _
    · exact simple_oneNumber _
  · refine .bind (simple_ofScript _) fun base => ?_
    split
    · exact .raise _
    · exact .bind (simple_ofScript _) fun _ => simple_oneNumber _

/-! ## Coroutines -/

theorem simple_coroutineArgument (a : Arguments) (function : String) :
    Simple E (coroutineArgument a function : Action H CoroutineRef) := by
  unfold coroutineArgument
  split
  · exact .pure _
  · exact .raise _

theorem simple_createCoroutine (a : Arguments) :
    Simple E (create a : Action H NativeOutcome) := by
  refine .bind (simple_ofScript _) fun _ => ?_
  refine .bind (.newCoroutine _) fun _ => ?_
  exact simple_one _

theorem simple_running :
    Simple E (running : Action H NativeOutcome) := by
  refine .bind (.ask World.blind_current?) fun current? => ?_
  cases current? with
  | none => exact simple_one _
  | some c =>
      exact .bind (.ask fun w => World.coroutine_bare w c) fun _ =>
        simple_results _

theorem simple_status (a : Arguments) :
    Simple E (status a : Action H NativeOutcome) := by
  refine .bind (simple_coroutineArgument a _) fun c => ?_
  refine .bind (.ask fun _ => rfl) fun _ => ?_
  refine .bind (.ask fun w => World.coroutine_bare w c) fun _ => ?_
  exact simple_one _

theorem simple_wrap (a : Arguments) :
    Simple E (wrap a : Action H NativeOutcome) := by
  refine .bind (simple_ofScript _) fun f => ?_
  refine .bind (.newCoroutine f) fun c => ?_
  refine .bind (.create ?_ ?_) fun _ => simple_one _
  · intro coroutine h
    cases h
  · intro n h
    cases h
    exact ⟨c, rfl⟩

/-! ## Functions that call back -/

section

variable [HostObjects H]

theorem simple_pairs (nextEntry : NativeRef) (a : Arguments) :
    Simple E (pairs nextEntry a : Action H NativeOutcome) := by
  refine .bind (.ask fun w => World.hook?_bare w _ _) fun h? => ?_
  cases h? with
  | none => exact .bind (simple_ofScript _) fun _ => simple_results _
  | some h => exact .pure _

theorem simple_ipairsStep (hE : Covers H E) (a : Arguments) :
    Simple E (ipairsStep a : Action H NativeOutcome) := by
  refine .bind (simple_ofScript _) fun position => ?_
  refine .bind (simple_index hE _ _) fun value => ?_
  split
  · exact simple_one _
  · exact simple_results _

theorem simple_displayAll (texts : List String) (values : List Value) :
    Simple E (displayAll texts values : Action H (List String)) := by
  induction values generalizing texts with
  | nil => exact .pure _
  | cons v rest ih =>
      exact .bind (simple_displayText v) fun text => ih (text :: texts)

theorem simple_print (a : Arguments) :
    Simple E (print a : Action H NativeOutcome) := by
  refine .bind (simple_displayAll _ _) fun _ => ?_
  refine .bind (.change (World.tame_print _)) fun _ => ?_
  exact simple_one _

theorem simple_toString (a : Arguments) :
    Simple E (toString a : Action H NativeOutcome) := by
  unfold toString
  split
  · exact .raise _
  · exact .bind (simple_displayText _) fun _ => simple_one _

end

end Library

/-- The functions that resume a coroutine. -/
def LibraryFunction.resumes : LibraryFunction → Bool
  | .coroutineResume | .wrapped _ => true
  | _ => false

/-- Whatever does not resume a coroutine is simple. -/
theorem LibraryFunction.simple_action [HostObjects H] (hE : Covers H E)
    {f : LibraryFunction} (hf : f.resumes = false) (info : CallInfo)
    (a : Arguments) : Action.Simple E (f.action info a : Action H NativeOutcome) := by
  cases f with
  | assert => exact Library.simple_assert a
  | error => exact Library.simple_error a
  | getMetatable => exact Library.simple_getMetatable a
  | next => exact Library.simple_next a
  | print => exact Library.simple_print a
  | rawEqual => exact Library.simple_one _
  | rawGet => exact Library.simple_rawGet a
  | rawLen => exact Library.simple_rawLength a
  | rawSet => exact Library.simple_rawSet a
  | select => exact Library.simple_select a
  | setMetatable => exact Library.simple_setMetatable a
  | toNumber => exact Library.simple_toNumber a
  | toString => exact Library.simple_toString a
  | typeOf => exact Library.simple_typeOf a
  | unpack => exact Library.simple_unpack a
  | pairs nextEntry => exact Library.simple_pairs nextEntry a
  | ipairsStep => exact Library.simple_ipairsStep hE a
  | ipairs step => exact Library.simple_ipairs step a
  | protectedOk => exact Library.simple_results _
  | protectedFailed => exact Library.simple_results _
  | pcall ok failed => exact Library.simple_pcall ok failed a
  | xpcall ok failed => exact Library.simple_xpcall ok failed a
  | tableConcat => exact Library.simple_concat a
  | tableInsert => exact Library.simple_insert a
  | tablePack => exact Library.simple_pack a
  | tableRemove => exact Library.simple_remove a
  | coroutineCreate => exact Library.simple_createCoroutine a
  | coroutineIsYieldable => exact Library.simple_one _
  | coroutineResume => cases hf
  | coroutineRunning => exact Library.simple_running
  | coroutineStatus => exact Library.simple_status a
  | coroutineWrap => exact Library.simple_wrap a
  | wrapped c => cases hf
  | coroutineYield => exact .pure _

/-! ## An engine with nothing but its library -/

/-- A host that brings nothing along. -/
abbrev HostTypes.alone : HostTypes := ⟨Empty, Empty, Unit⟩

instance : Host HostTypes.alone where
  typeName := Empty.elim
  sameKind := fun o => o.elim
  index := fun _ o => o.elim
  setIndex := fun _ o => o.elim
  metamethod := fun _ o => o.elim
  equal := fun o => o.elim
  run := fun f => f.elim

instance : LawfulHost HostTypes.alone where
  lawful f := f.elim

end ScriptEngine
