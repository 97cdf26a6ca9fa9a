import ScriptEngine.Embedding.Basic
import ScriptEngine.Embedding.Builder
import ScriptEngine.Embedding.Path
import ScriptEngine.Proofs.World.Extension
import ScriptEngine.Workbench.Functions

/-!
# Host functions within the interface

The interface of an engine lets a host function create objects, change tables
and user data and have the machine call and resume, but not move coroutines or
take objects away.  An action is lawful if every change it makes is of this
kind, whatever the calls it waits for come to.  All functions of the library
are lawful, and so are those of the workbench.  What a host does to the world
while nothing runs only extends it, too.
-/

namespace ScriptEngine

variable {H : HostTypes} {α β : Type}

inductive Action.Lawful : Action H α → Prop where
  | done (a : α) : Lawful (.done a)
  | fail (e : RuntimeError) : Lawful (.fail e)
  | read {next : World H → Action H α} (h : ∀ w, Lawful (next w)) :
      Lawful (.read next)
  | write {change : World H → World H} {next : Action H α}
      (hchange : ∀ w : World H, w.Extends (change w)) (h : Lawful next) :
      Lawful (.write change next)
  | call (function : Value) (args : List Value)
      {next : Except RuntimeError Value → Action H α} (h : ∀ r, Lawful (next r)) :
      Lawful (.call function args next)
  | resume (c : CoroutineRef) (args : List Value)
      {next : Except RuntimeError Value → Action H α} (h : ∀ r, Lawful (next r)) :
      Lawful (.resume c args next)
  | enterMain (function : Value) (args : List Value)
      {next : Except RuntimeError Value → Action H α} (h : ∀ r, Lawful (next r)) :
      Lawful (.enterMain function args next)

/-- A host all of whose functions keep to the interface. -/
class LawfulHost (H : HostTypes) [Host H] : Prop where
  lawful (f : H.Function) (info : CallInfo) (a : Arguments) :
    (Host.run f info a).Lawful

namespace Action

/-! ## Building lawful actions -/

theorem lawful_bind {x : Action H α} {f : α → Action H β} (hx : x.Lawful)
    (hf : ∀ a, (f a).Lawful) : (x >>= f).Lawful := by
  change (x.bind f).Lawful
  induction hx with
  | done a => exact hf a
  | fail e => exact .fail e
  | read h ih => exact .read fun w => ih w
  | write hchange h ih => exact .write hchange ih
  | call function args h ih => exact .call function args fun r => ih r
  | resume c args h ih => exact .resume c args fun r => ih r
  | enterMain function args h ih =>
      exact .enterMain function args fun r => ih r

theorem lawful_pure (a : α) : (pure a : Action H α).Lawful :=
  .done a

theorem lawful_raise (e : ScriptError) : (raise e : Action H α).Lawful :=
  .fail (.script e)

theorem lawful_ofResult (r : Except RuntimeError α) :
    (ofResult r : Action H α).Lawful := by
  cases r with
  | ok a => exact .done a
  | error e => exact .fail e

theorem lawful_ofScript (r : Except ScriptError α) :
    (ofScript r : Action H α).Lawful := by
  cases r with
  | ok a => exact .done a
  | error e => exact .fail (.script e)

theorem lawful_ask (f : World H → α) : (ask f).Lawful := by
  refine .read fun w => ?_
  exact .done (f w)

theorem lawful_change {f : World H → World H}
    (hf : ∀ w : World H, w.Extends (f w)) : (change f).Lawful :=
  .write hf (.done ())

theorem lawful_create {o : Object H} (ho : o.Fresh) : (create o).Lawful := by
  refine .read fun w => ?_
  exact .write (fun w' => .add w' ho) (.done w.nextId)

theorem lawful_callValue (function : Value) (args : List Value) :
    (callValue function args : Action H Value).Lawful :=
  .call function args lawful_ofResult

theorem lawful_tableLength (t : TableRef) :
    (tableLength t : Action H Nat).Lawful := by
  refine lawful_bind (lawful_change ?_) fun _ => lawful_ask _
  intro w
  exact .noteLength w _

theorem lawful_newTable : (newTable : Action H TableRef).Lawful := by
  refine lawful_bind (lawful_create ?_) fun _ => lawful_pure _
  intro c h
  cases h

section

variable [HostObjects H]

omit [HostObjects H] in
theorem lawful_complete (r : Resolved) : (complete r : Action H Value).Lawful := by
  cases r with
  | value v => exact lawful_pure v
  | call p =>
      exact lawful_bind (lawful_callValue _ _) fun _ =>
        lawful_bind (lawful_ofScript _) fun _ => lawful_pure _

theorem lawful_index (object key : Value) :
    (index object key : Action H Value).Lawful := by
  refine lawful_bind (lawful_ask _) fun _ => ?_
  refine lawful_bind (lawful_ofResult _) fun _ => ?_
  exact lawful_complete _

theorem lawful_setIndex (object key value : Value) :
    (setIndex object key value : Action H Unit).Lawful := by
  refine lawful_bind (lawful_ask _) fun r => lawful_bind (lawful_ofResult _) ?_
  intro assignment
  cases assignment with
  | entry t key written value =>
      exact lawful_change fun w => .assign w _
  | object u o => exact lawful_change fun w => .assign w _
  | call p => exact lawful_bind (lawful_callValue _ _) fun _ => lawful_pure _

theorem lawful_length (v : Value) : (length v : Action H Value).Lawful := by
  refine lawful_bind (lawful_change fun w => .noteLength w v) fun _ => ?_
  exact lawful_bind (lawful_ask _) fun _ =>
    lawful_bind (lawful_ofResult _) fun _ => lawful_complete _

theorem lawful_equals (a b : Value) : (equals a b : Action H Bool).Lawful := by
  refine lawful_bind (lawful_ask _) fun _ => ?_
  refine lawful_bind (lawful_complete _) fun _ => ?_
  exact lawful_pure _

theorem lawful_lessThan (a b : Value) : (lessThan a b : Action H Bool).Lawful := by
  refine lawful_bind (lawful_ask _) fun _ => ?_
  refine lawful_bind (lawful_ofResult _) fun _ => ?_
  refine lawful_bind (lawful_complete _) fun _ => ?_
  exact lawful_pure _

theorem lawful_displayText (v : Value) :
    (displayText v : Action H String).Lawful := by
  refine lawful_bind (lawful_ask _) fun _ => lawful_bind (lawful_complete _) ?_
  intro text
  split
  · exact lawful_pure _
  · exact lawful_raise _

end

end Action

namespace Library

open ScriptEngine.Action

/-! ## The library -/

theorem lawful_results (values : List Value) :
    (results values : Action H NativeOutcome).Lawful :=
  lawful_pure _

theorem lawful_one (v : Value) : (one v : Action H NativeOutcome).Lawful :=
  lawful_pure _

theorem lawful_assert (a : Arguments) :
    (assert a : Action H NativeOutcome).Lawful := by
  unfold assert
  split
  · exact lawful_results _
  · split <;> exact lawful_raise _

theorem lawful_error (a : Arguments) :
    (error a : Action H NativeOutcome).Lawful := by
  refine lawful_bind (lawful_ofScript _) fun _ => ?_
  exact lawful_raise _

theorem lawful_pcall (ok failed : NativeRef) (a : Arguments) :
    (pcall ok failed a : Action H NativeOutcome).Lawful := by
  unfold pcall
  split
  · exact lawful_raise _
  · exact lawful_pure _

theorem lawful_xpcall (ok failed : NativeRef) (a : Arguments) :
    (xpcall ok failed a : Action H NativeOutcome).Lawful := by
  refine lawful_bind (lawful_ofScript _) fun _ => ?_
  exact lawful_pure _

theorem lawful_bounds (a : Arguments) (t : TableRef) (place : Nat)
    (function : String) :
    (bounds a t place function : Action H (Int × Int)).Lawful := by
  refine lawful_bind (lawful_ofScript _) fun _ => ?_
  refine lawful_bind (lawful_tableLength t) fun _ => ?_
  refine lawful_bind (lawful_ofScript _) fun _ => ?_
  exact lawful_pure _

theorem lawful_unpack (a : Arguments) :
    (unpack a : Action H NativeOutcome).Lawful := by
  refine lawful_bind (lawful_ofScript _) fun t => ?_
  refine lawful_bind (lawful_bounds a t _ _) fun range => ?_
  dsimp only
  split
  · exact lawful_raise _
  · exact lawful_bind (lawful_ask _) fun _ => lawful_one _

theorem lawful_concat (a : Arguments) :
    (concat a : Action H NativeOutcome).Lawful := by
  refine lawful_bind (lawful_ofScript _) fun t => ?_
  dsimp only
  split
  all_goals
    refine lawful_bind ?_ fun separator => ?_
    · first
      | exact lawful_pure _
      | exact lawful_ofScript _
    · refine lawful_bind (lawful_bounds a t _ _) fun range => ?_
      refine lawful_bind (lawful_ask _) fun texts => ?_
      cases texts with
      | ok texts => exact lawful_one _
      | error i => exact lawful_raise _

theorem lawful_insert (a : Arguments) :
    (insert a : Action H NativeOutcome).Lawful := by
  refine lawful_bind (lawful_ofScript _) fun t => ?_
  refine lawful_bind (lawful_tableLength t) fun n => ?_
  split
  · exact lawful_bind (lawful_change fun w => .modifyTable w _ _) fun _ =>
      lawful_one _
  · refine lawful_bind (lawful_ofScript _) fun position => ?_
    split
    · exact lawful_bind (lawful_change fun w => .modifyTable w _ _) fun _ =>
        lawful_one _
    · exact lawful_raise _
  · exact lawful_raise _

theorem lawful_removeFrom (t : TableRef) (position : Nat) :
    (removeFrom t position : Action H NativeOutcome).Lawful := by
  refine lawful_bind (lawful_ask _) fun _ => ?_
  refine lawful_bind (lawful_change fun w => .modifyTable w _ _) fun _ => ?_
  exact lawful_one _

theorem lawful_remove (a : Arguments) :
    (remove a : Action H NativeOutcome).Lawful := by
  refine lawful_bind (lawful_ofScript _) fun t => ?_
  refine lawful_bind (lawful_tableLength t) fun n => ?_
  split
  · split
    · exact lawful_one _
    · exact lawful_removeFrom _ _
  · refine lawful_bind (lawful_ofScript _) fun position => ?_
    split
    · exact lawful_bind (lawful_ask _) fun _ => lawful_one _
    · split
      · exact lawful_removeFrom _ _
      · exact lawful_raise _

theorem lawful_pack (a : Arguments) :
    (pack a : Action H NativeOutcome).Lawful := by
  refine lawful_bind (lawful_create ?_) fun _ => lawful_one _
  intro c h
  cases h

theorem lawful_typeOf (a : Arguments) :
    (typeOf a : Action H NativeOutcome).Lawful := by
  unfold typeOf
  dsimp only
  split
  · exact lawful_raise _
  · exact lawful_one _

theorem lawful_getMetatable (a : Arguments) :
    (getMetatable a : Action H NativeOutcome).Lawful := by
  refine lawful_bind (lawful_ask _) fun m? => ?_
  cases m? with
  | none => exact lawful_one _
  | some m => exact lawful_bind (lawful_ask _) fun _ => lawful_one _

theorem lawful_setMetatable (a : Arguments) :
    (setMetatable a : Action H NativeOutcome).Lawful := by
  refine lawful_bind (lawful_ofScript _) fun t => ?_
  dsimp only
  split
  all_goals
    refine lawful_bind ?_ fun m? => ?_
    · first
      | exact lawful_pure _
      | exact lawful_raise _
    · refine lawful_bind (lawful_ask _) fun isGuarded => ?_
      split
      · exact lawful_raise _
      · exact lawful_bind (lawful_change fun w => .modifyTable w _ _) fun _ =>
          lawful_one _

theorem lawful_rawGet (a : Arguments) :
    (rawGet a : Action H NativeOutcome).Lawful := by
  refine lawful_bind (lawful_ofScript _) fun _ => ?_
  refine lawful_bind (lawful_ask _) fun _ => ?_
  exact lawful_one _

theorem lawful_rawSet (a : Arguments) :
    (rawSet a : Action H NativeOutcome).Lawful := by
  refine lawful_bind (lawful_ofScript _) fun t => ?_
  dsimp only
  split
  · exact lawful_raise _
  · exact lawful_bind (lawful_change fun w => .modifyTable w _ _) fun _ =>
      lawful_one _

theorem lawful_rawLength (a : Arguments) :
    (rawLength a : Action H NativeOutcome).Lawful := by
  unfold rawLength
  split
  · exact lawful_bind (lawful_tableLength _) fun _ => lawful_one _
  · exact lawful_one _
  · exact lawful_raise _

theorem lawful_ipairs (step : NativeRef) (a : Arguments) :
    (ipairs step a : Action H NativeOutcome).Lawful := by
  refine lawful_bind (lawful_ofScript _) fun _ => ?_
  exact lawful_results _

theorem lawful_select (a : Arguments) :
    (select a : Action H NativeOutcome).Lawful := by
  unfold select
  dsimp only
  split
  · exact lawful_one _
  · refine lawful_bind (lawful_ofScript _) fun position => ?_
    split
    · exact lawful_results _
    · exact lawful_raise _

theorem lawful_oneNumber (n? : Option Float) :
    (oneNumber n? : Action H NativeOutcome).Lawful :=
  lawful_one _

theorem lawful_toNumber (a : Arguments) :
    (toNumber a : Action H NativeOutcome).Lawful := by
  unfold toNumber
  split
  · split
    · exact lawful_oneNumber _
    · exact lawful_oneNumber _
    · exact lawful_raise _
    · exact lawful_oneNumber _
  · refine lawful_bind (lawful_ofScript _) fun base => ?_
    split
    · exact lawful_raise _
    · exact lawful_bind (lawful_ofScript _) fun _ => lawful_oneNumber _

theorem lawful_newCoroutine (entry : Value) :
    (newCoroutine entry : Action H CoroutineRef).Lawful := by
  refine .read fun _ => ?_
  exact .write (fun w => .addCoroutine w .script entry) (.done _)

theorem lawful_coroutineArgument (a : Arguments) (function : String) :
    (coroutineArgument a function : Action H CoroutineRef).Lawful := by
  unfold coroutineArgument
  split
  · exact lawful_pure _
  · exact lawful_raise _

theorem lawful_createCoroutine (a : Arguments) :
    (create a : Action H NativeOutcome).Lawful := by
  refine lawful_bind (lawful_ofScript _) fun _ => ?_
  refine lawful_bind (lawful_newCoroutine _) fun _ => ?_
  exact lawful_one _

theorem lawful_resume (a : Arguments) :
    (resume a : Action H NativeOutcome).Lawful := by
  refine lawful_bind (lawful_coroutineArgument a _) fun c => ?_
  refine .resume c _ fun r => ?_
  split
  · exact lawful_results _
  · exact lawful_results _
  · split
    · exact lawful_results _
    · exact .fail _

theorem lawful_running : (running : Action H NativeOutcome).Lawful := by
  refine lawful_bind (lawful_ask _) fun current? => ?_
  cases current? with
  | none => exact lawful_one _
  | some c => exact lawful_bind (lawful_ask _) fun _ => lawful_results _

theorem lawful_status (a : Arguments) :
    (status a : Action H NativeOutcome).Lawful := by
  refine lawful_bind (lawful_coroutineArgument a _) fun _ => ?_
  refine lawful_bind (lawful_ask _) fun _ => ?_
  refine lawful_bind (lawful_ask _) fun _ => ?_
  exact lawful_one _

theorem lawful_wrap (a : Arguments) :
    (wrap a : Action H NativeOutcome).Lawful := by
  refine lawful_bind (lawful_ofScript _) fun f => ?_
  refine lawful_bind (lawful_newCoroutine f) fun c => ?_
  refine lawful_bind (lawful_create ?_) fun _ => lawful_one _
  intro coroutine h
  cases h

theorem lawful_wrapped (c : CoroutineRef) (a : Arguments) :
    (wrapped c a : Action H NativeOutcome).Lawful := by
  refine .resume c _ fun r => ?_
  split
  · exact lawful_one _
  · split
    · exact lawful_raise _
    · exact .fail _

section

variable [HostObjects H]

omit [HostObjects H] in
theorem lawful_next (a : Arguments) :
    (next a : Action H NativeOutcome).Lawful := by
  refine lawful_bind (lawful_ofScript _) fun t => ?_
  refine lawful_bind (lawful_ask _) fun found => ?_
  split
  · exact lawful_results _
  · exact lawful_one _
  · exact lawful_raise _

theorem lawful_pairs (nextEntry : NativeRef) (a : Arguments) :
    (pairs nextEntry a : Action H NativeOutcome).Lawful := by
  refine lawful_bind (lawful_ask _) fun h? => ?_
  cases h? with
  | none => exact lawful_bind (lawful_ofScript _) fun _ => lawful_results _
  | some h => exact lawful_pure _

theorem lawful_ipairsStep (a : Arguments) :
    (ipairsStep a : Action H NativeOutcome).Lawful := by
  refine lawful_bind (lawful_ofScript _) fun position => ?_
  refine lawful_bind (lawful_index _ _) fun value => ?_
  split
  · exact lawful_one _
  · exact lawful_results _

theorem lawful_displayAll (texts : List String) (values : List Value) :
    (displayAll texts values : Action H (List String)).Lawful := by
  induction values generalizing texts with
  | nil => exact lawful_pure _
  | cons v rest ih =>
      exact lawful_bind (lawful_displayText v) fun text => ih (text :: texts)

theorem lawful_print (a : Arguments) :
    (print a : Action H NativeOutcome).Lawful := by
  refine lawful_bind (lawful_displayAll _ _) fun _ => ?_
  refine lawful_bind (lawful_change fun w => .print w _) fun _ => ?_
  exact lawful_one _

theorem lawful_toString (a : Arguments) :
    (toString a : Action H NativeOutcome).Lawful := by
  unfold toString
  split
  · exact lawful_raise _
  · exact lawful_bind (lawful_displayText _) fun _ => lawful_one _

end

end Library

theorem LibraryFunction.lawful [HostObjects H] (f : LibraryFunction)
    (info : CallInfo) (a : Arguments) :
    (f.action info a : Action H NativeOutcome).Lawful := by
  cases f with
  | assert => exact Library.lawful_assert a
  | error => exact Library.lawful_error a
  | getMetatable => exact Library.lawful_getMetatable a
  | next => exact Library.lawful_next a
  | print => exact Library.lawful_print a
  | rawEqual => exact Library.lawful_one _
  | rawGet => exact Library.lawful_rawGet a
  | rawLen => exact Library.lawful_rawLength a
  | rawSet => exact Library.lawful_rawSet a
  | select => exact Library.lawful_select a
  | setMetatable => exact Library.lawful_setMetatable a
  | toNumber => exact Library.lawful_toNumber a
  | toString => exact Library.lawful_toString a
  | typeOf => exact Library.lawful_typeOf a
  | unpack => exact Library.lawful_unpack a
  | pairs nextEntry => exact Library.lawful_pairs nextEntry a
  | ipairsStep => exact Library.lawful_ipairsStep a
  | ipairs step => exact Library.lawful_ipairs step a
  | protectedOk => exact Library.lawful_results _
  | protectedFailed => exact Library.lawful_results _
  | pcall ok failed => exact Library.lawful_pcall ok failed a
  | xpcall ok failed => exact Library.lawful_xpcall ok failed a
  | tableConcat => exact Library.lawful_concat a
  | tableInsert => exact Library.lawful_insert a
  | tablePack => exact Library.lawful_pack a
  | tableRemove => exact Library.lawful_remove a
  | coroutineCreate => exact Library.lawful_createCoroutine a
  | coroutineIsYieldable => exact Library.lawful_one _
  | coroutineResume => exact Library.lawful_resume a
  | coroutineRunning => exact Library.lawful_running
  | coroutineStatus => exact Library.lawful_status a
  | coroutineWrap => exact Library.lawful_wrap a
  | wrapped c => exact Library.lawful_wrapped c a
  | coroutineYield => exact Action.lawful_pure _

namespace Workbench

open ScriptEngine.Action

open Library (lawful_results lawful_one)

/-! ## The workbench -/

theorem lawful_numberFor (v : Value) (wrap : ConversionError → RuntimeError) :
    (numberFor v wrap).Lawful := by
  refine lawful_bind (lawful_ask _) fun _ => ?_
  refine lawful_bind (lawful_ofResult _) fun _ => ?_
  exact lawful_one _

theorem lawful_metamethodOf (a : Arguments) : (metamethodOf a).Lawful := by
  refine lawful_bind (lawful_ofScript _) fun name => ?_
  split
  · exact lawful_bind (lawful_ask _) fun _ => lawful_one _
  · exact lawful_one _

theorem Function.lawful (f : Function) (info : CallInfo) (a : Arguments) :
    (f.action info a).Lawful := by
  cases f with
  | echo => exact lawful_results _
  | first => exact lawful_one _
  | count => exact lawful_one _
  | void => exact lawful_one _
  | none => exact lawful_one _
  | const v => exact lawful_one _
  | raise kind message => exact lawful_raise _
  | call => exact lawful_bind (lawful_callValue _ _) fun _ => lawful_one _
  | attempt =>
      refine .call _ _ fun r => ?_
      cases r with
      | ok v => exact lawful_results _
      | error e => exact lawful_results _
  | yield => exact lawful_pure _
  | fail => exact lawful_raise _
  | failValue => exact lawful_raise _
  | internal => exact .fail _
  | terminate => exact .fail _
  | violate => exact .fail _
  | cancel =>
      exact lawful_bind (lawful_change fun w => .of_objects rfl rfl rfl rfl)
        fun _ => lawful_one _
  | hostNumber => exact lawful_numberFor _ _
  | scriptNumber => exact lawful_numberFor _ _
  | index => exact lawful_bind (lawful_index _ _) fun _ => lawful_one _
  | setIndex => exact lawful_bind (lawful_setIndex _ _ _) fun _ => lawful_one _
  | length => exact lawful_bind (lawful_length _) fun _ => lawful_one _
  | equals => exact lawful_bind (lawful_equals _ _) fun _ => lawful_one _
  | lessThan => exact lawful_bind (lawful_lessThan _ _) fun _ => lawful_one _
  | display => exact lawful_bind (lawful_displayText _) fun _ => lawful_one _
  | metamethod => exact lawful_metamethodOf a
  | metatable => exact lawful_bind (lawful_ask _) fun _ => lawful_one _
  | newTable => exact lawful_bind lawful_newTable fun _ => lawful_one _
  | current => exact lawful_bind (lawful_ask _) fun _ => lawful_one _
  | yieldable => exact lawful_one _
  | getGlobal =>
      exact lawful_bind (lawful_ofScript _) fun _ =>
        lawful_bind (lawful_ask _) fun _ => lawful_one _
  | location =>
      unfold Function.action
      dsimp only
      split
      · exact lawful_results _
      · exact lawful_one _
  | createCoroutine =>
      exact lawful_bind (Library.lawful_newCoroutine _) fun _ => lawful_one _
  | resumeCoroutine =>
      unfold Function.action
      dsimp only
      split
      · exact .resume _ _ fun r =>
          lawful_bind (lawful_ofResult r) fun _ => lawful_one _
      · exact lawful_one _
  | selfInfo => exact lawful_results _
  | asString => exact lawful_bind (lawful_ofScript _) fun _ => lawful_one _
  | asNumber => exact lawful_bind (lawful_ofScript _) fun _ => lawful_one _
  | asInteger => exact lawful_bind (lawful_ofScript _) fun _ => lawful_one _
  | asTable => exact lawful_bind (lawful_ofScript _) fun _ => lawful_one _
  | asUserData => exact lawful_bind (lawful_ofScript _) fun _ => lawful_one _
  | asOptionalInteger =>
      exact lawful_bind (lawful_ofScript _) fun _ => lawful_one _
  | asWord allowNil =>
      exact lawful_bind (lawful_ask _) fun _ =>
        lawful_bind (lawful_ofScript _) fun _ => lawful_one _
  | pointSum => exact lawful_bind (lawful_ask _) fun _ => lawful_one _
  | log =>
      exact lawful_bind (lawful_change fun w => .print w _) fun _ =>
        lawful_one _
  | tail continuation? errorHandler? decorated => exact lawful_pure _
  | reenter =>
      exact .enterMain _ _ fun r =>
        lawful_bind (lawful_ofResult r) fun _ => lawful_one _
  | tagged name => exact lawful_results _
  | failAgain => exact lawful_raise _

instance : LawfulHost types where
  lawful f info a := f.lawful info a

end Workbench

namespace World

/-! ## The host while nothing runs -/

theorem Extends.setNamed (w : World H) (r : TableRef) (name : String)
    (value : Value) : w.Extends (w.setNamed r name value) :=
  .modifyTable w r _

theorem Extends.setGlobal (w : World H) (name : String) (v : Value) :
    w.Extends (w.setGlobal name v) :=
  .setNamed w w.globals name v

theorem Extends.createCoroutine {w w' : World H} {f : Value} {r : CoroutineRef}
    (h : w.createCoroutine f = .ok (r, w')) : w.Extends w' := by
  unfold World.createCoroutine at h
  split at h
  · cases h
    exact .addCoroutine w .script f
  · cases h

theorem Extends.createNativeCoroutine (w : World H) (f : NativeRef) :
    w.Extends (w.createNativeCoroutine f).2 :=
  .addCoroutine w .native _

theorem Extends.setAutoYield {w w' : World H} {r : CoroutineRef}
    {budget? : Option Nat} (h : w.setAutoYield r budget? = .ok w') :
    w.Extends w' := by
  unfold World.setAutoYield at h
  cases hp : (w.coroutine r).processor? with
  | none =>
      rw [hp] at h
      cases h
  | some p =>
      rw [hp] at h
      cases h
      refine .modifyCoroutine w r ?_
      intro c hc
      rw [coroutine_of_coroutine? hc] at hp
      refine ⟨rfl, rfl, rfl, ?_⟩
      rw [hp]
      exact .some (.setAutoYield p budget?)

theorem Extends.load {w w' : World H} {chunk : Chunk} {f : Value}
    (h : w.load chunk = .ok (f, w')) : w.Extends w' := by
  unfold World.load World.loadWithEnv at h
  split at h
  · cases h
    exact (Extends.newCell w _).trans (.addClosure _ _)
  · cases h

theorem Extends.namespaceTable {w w' : World H} {name? : Option String}
    {t : TableRef} (h : w.namespaceTable name? = .ok (t, w')) : w.Extends w' := by
  cases name? with
  | none =>
      cases h
      exact .refl w
  | some name =>
      unfold World.namespaceTable at h
      dsimp only at h
      split at h
      · cases h
        exact .refl w
      · cases h
        exact (Extends.addTable w {}).trans (.setGlobal _ _ _)
      · cases h
        exact (Extends.addTable w {}).trans (.setGlobal _ _ _)
      · cases h

theorem Extends.register {w w' : World H} {namespace? : Option String}
    {f : NativeRef} (h : w.register namespace? f = .ok w') : w.Extends w' := by
  unfold World.register at h
  cases ht : w.namespaceTable namespace? with
  | error e =>
      rw [ht] at h
      cases h
  | ok found =>
      rw [ht] at h
      cases h
      exact (Extends.namespaceTable ht).trans (.setNamed _ _ _ _)

theorem Extends.setEntry {w w' : World H} {r : TableRef} {key value : Value}
    (h : w.setEntry r key value = .ok w') : w.Extends w' := by
  unfold World.setEntry at h
  split at h
  · cases h
  · cases h
    exact .modifyTable w r _

theorem Extends.setPath {w w' : World H} {t : TableRef} {path : List Value}
    {v : Value} (h : w.setPath t path v = .ok w') : w.Extends w' := by
  unfold World.setPath at h
  split at h
  · cases h
  · next key hkey =>
      cases hparent : w.navigate t path.dropLast with
      | error e =>
          rw [hparent] at h
          cases h
      | ok parent =>
          rw [hparent] at h
          exact Extends.setEntry h

theorem Extends.build {w w' : World H} {b : NativeBuilder H} {f : NativeRef}
    (h : b.build w = .ok (f, w')) : w.Extends w' := by
  unfold NativeBuilder.build at h
  split at h
  · cases h
  · cases h
    exact .addNative w _

theorem Extends.cancel (w : World H) : w.Extends w.cancel :=
  .of_objects rfl rfl rfl rfl

theorem Extends.resetCancel (w : World H) : w.Extends w.resetCancel :=
  .of_objects rfl rfl rfl rfl

end World

end ScriptEngine
