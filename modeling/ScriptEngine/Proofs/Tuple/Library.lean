import ScriptEngine.Proofs.Tuple.Operators

/-!
# What the library supplies

Every function of the library supplies flat values only, when its arguments are single.
-/

namespace ScriptEngine

variable {H : HostTypes} [HostObjects H] {α β : Type} {P : α → Prop} {Q : β → Prop}

namespace Action

theorem supplies_bind {x : Action H α} {f : α → Action H β} (hx : x.Supplies P)
    (hf : ∀ a, P a → (f a).Supplies Q) : (x >>= f).Supplies Q := by
  change (x.bind f).Supplies Q
  induction x with
  | done a => exact hf a hx
  | fail e => exact hx
  | read next ih => exact fun w hw => ih w (hx w hw)
  | write change next ih => exact ⟨hx.1, ih hx.2⟩
  | call function args next ih => exact ⟨hx.1, fun r hr => ih r (hx.2 r hr)⟩
  | resume c args next ih => exact ⟨hx.1, fun r hr => ih r (hx.2 r hr)⟩
  | enterMain function args next ih => exact ⟨hx.1, fun r hr => ih r (hx.2 r hr)⟩

theorem supplies_pure {a : α} (ha : P a) : (pure a : Action H α).Supplies P := ha

/-- An error without a value of a script's own. -/
theorem supplies_raise {e : ScriptError} (he : e.payload? = none) :
    (raise e : Action H α).Supplies P :=
  ScriptError.flat_of_payload he

theorem supplies_ofResult {r : Except RuntimeError α} (hr : FlatResult P r) :
    (ofResult r : Action H α).Supplies P := by
  cases r <;> exact hr

theorem supplies_ofScript {r : Except ScriptError α} (hr : FlatScript P r) :
    (ofScript r : Action H α).Supplies P := by
  cases r <;> exact hr

theorem supplies_ask {f : World H → α} (hf : ∀ w : World H, w.Flat → P (f w)) :
    (ask f).Supplies P :=
  hf

/-- A look at the world of which nothing needs to be known. -/
theorem supplies_look (f : World H → α) : (ask f).Supplies fun _ => True := by
  intro _ _
  trivial

theorem supplies_change {f : World H → World H} (hf : ∀ w : World H, w.Receives (f w)) :
    (change f).Supplies fun _ => True :=
  ⟨hf, trivial⟩

theorem supplies_create {o : Object H} (ho : ∀ w : World H, w.Receives (w.add o)) :
    (create o).Supplies fun _ => True := by
  intro _ _
  exact ⟨ho, trivial⟩

theorem supplies_callValue (function : Value) {args : List Value} (hargs : ∀ v ∈ args, v.Flat) :
    (callValue function args : Action H Value).Supplies Value.Flat := by
  refine ⟨hargs, fun _ hr => ?_⟩
  exact supplies_ofResult hr

theorem receives_noteLength (w : World H) (v : Value) :
    w.Receives (w.noteLength v) := by
  unfold World.noteLength
  split
  · exact .perform w _ .askLength
  · exact .refl w

theorem receives_setKey (w : World H) (r : TableRef) {key : Value} {k : Key}
    (hk : Key.ofValue? key = some k) (value : Value) :
    w.Receives (w.modifyTable r fun t => t.setKey k key.toScalar value.toStorable) := by
  have hset := World.Receives.perform w r (.set key value)
  simpa only [Table.perform, Table.set?, hk, Option.map_some] using hset

theorem supplies_tableLength (t : TableRef) :
    (tableLength t : Action H Nat).Supplies fun _ => True := by
  refine supplies_bind (supplies_change fun w => receives_noteLength w _) fun _ _ => ?_
  exact supplies_look _

theorem supplies_complete {r : Resolved} (hr : r.Flat) :
    (complete r : Action H Value).Supplies Value.Flat := by
  cases r with
  | value v => exact hr
  | call p =>
    refine supplies_bind (supplies_callValue _ hr) fun v hv => ?_
    refine supplies_bind (supplies_ofScript (p.post.single_apply v)) fun v? hv? => ?_
    cases v? with
    | none => trivial
    | some v => exact (hv? v rfl).flat

theorem supplies_index {object key : Value} (hkey : key.Flat) :
    (index object key : Action H Value).Supplies Value.Flat := by
  refine supplies_bind (supplies_ask fun w hw => hw.resolveIndex hkey object) fun r hr => ?_
  exact supplies_bind (supplies_ofResult hr) fun resolved => supplies_complete

theorem supplies_displayText (v : Value) :
    (displayText v : Action H String).Supplies fun _ => True := by
  refine supplies_bind (supplies_ask fun w _ => w.flat_resolveText v) fun r hr => ?_
  refine supplies_bind (supplies_complete hr) fun text _ => ?_
  split
  · trivial
  · exact supplies_raise rfl

end Action

namespace Library

open ScriptEngine.Action

theorem supplies_one {v : Value} (hv : v.Flat) :
    (one v : Action H NativeOutcome).Supplies NativeOutcome.Flat :=
  hv

theorem supplies_results {values : List Value} (h : ∀ v ∈ values, v.Flat) :
    (results values : Action H NativeOutcome).Supplies NativeOutcome.Flat :=
  Value.flat_tupled h

variable {a : Arguments}

/-! ## Raising and catching errors -/

theorem supplies_assert (ha : a.Single) :
    (assert a : Action H NativeOutcome).Supplies NativeOutcome.Flat := by
  unfold assert
  split
  · exact supplies_results (Value.flat_of_single ha)
  · split
    · exact supplies_raise rfl
    · exact ScriptError.flat_user (ha.get 1).flat

theorem supplies_error : (error a : Action H NativeOutcome).Supplies NativeOutcome.Flat := by
  refine supplies_bind (supplies_ofScript (a.flat_asOptionalInteger 1 "error" 1)) fun level _ => ?_
  have he := ScriptError.flat_user (a.get 0).single_toStorable.flat
  dsimp only
  split
  · exact he.freeze
  · exact he

theorem supplies_pcall (ok failed : NativeRef) (ha : a.Single) :
    (pcall ok failed a : Action H NativeOutcome).Supplies NativeOutcome.Flat := by
  unfold pcall
  split
  · exact supplies_raise rfl
  · exact Value.flat_of_single (ha.rest 1)

theorem supplies_xpcall (ok failed : NativeRef) (ha : a.Single) :
    (xpcall ok failed a : Action H NativeOutcome).Supplies NativeOutcome.Flat := by
  refine supplies_bind (supplies_ofScript (a.flat_asType 1 "xpcall" .function false)) fun _ _ => ?_
  exact Value.flat_of_single (ha.rest 2)

theorem supplies_protectedOk (ha : a.Single) :
    (protectedOk a : Action H NativeOutcome).Supplies NativeOutcome.Flat := by
  refine supplies_results (List.forall_mem_cons.mpr ⟨trivial, fun v hv => ?_⟩)
  exact (ha v (List.mem_of_mem_filter hv)).flat

theorem supplies_protectedFailed :
    (protectedFailed a : Action H NativeOutcome).Supplies NativeOutcome.Flat := by
  have herror := (a.get 0).single_toStorable.flat
  exact supplies_results (World.flat_pair trivial herror)

/-! ## Types, metatables and access without metamethods -/

theorem supplies_getMetatable :
    (getMetatable a : Action H NativeOutcome).Supplies NativeOutcome.Flat := by
  refine supplies_bind (supplies_look _) fun m? _ => ?_
  cases m? with
  | none => trivial
  | some m =>
    refine supplies_bind (P := Value.Flat) (supplies_ask fun w hw => ?_) fun guard hguard => ?_
    · exact ((hw.table m).getName _).1.flat
    · refine supplies_one ?_
      split
      · trivial
      · exact hguard

theorem supplies_setMetatable :
    (setMetatable a : Action H NativeOutcome).Supplies NativeOutcome.Flat := by
  refine supplies_bind (supplies_ofScript (a.flat_asTable 0 "setmetatable")) fun t _ => ?_
  dsimp only
  split
  all_goals
    refine supplies_bind (P := fun _ => True)
      (by first | trivial | exact supplies_raise rfl) fun m? _ => ?_
    refine supplies_bind (supplies_look _) fun isGuarded _ => ?_
    split
    · exact supplies_raise rfl
    · refine supplies_bind (supplies_change fun w => ?_) fun _ _ => supplies_one trivial
      exact .setMetatable w t m?

theorem supplies_typeOf : (typeOf a : Action H NativeOutcome).Supplies NativeOutcome.Flat := by
  unfold typeOf
  dsimp only
  split
  · exact supplies_raise rfl
  · trivial

theorem supplies_rawGet : (rawGet a : Action H NativeOutcome).Supplies NativeOutcome.Flat := by
  refine supplies_bind (supplies_ofScript (a.flat_asTable 0 "rawget")) fun t _ => ?_
  refine supplies_bind (P := Value.Flat) (supplies_ask fun w hw => ?_) fun v => supplies_one
  exact ((hw.table t).get _).1.flat

theorem supplies_rawSet : (rawSet a : Action H NativeOutcome).Supplies NativeOutcome.Flat := by
  refine supplies_bind (supplies_ofScript (a.flat_asTable 0 "rawset")) fun t _ => ?_
  dsimp only
  split
  · exact supplies_raise rfl
  · next k hk =>
    refine supplies_bind (supplies_change fun w => ?_) fun _ _ => supplies_one trivial
    have hset := receives_setKey w t hk (a.get 2)
    rwa [Value.toScalar_eq_self (Value.toStorable_ne_tuple _)] at hset

theorem supplies_rawLength :
    (rawLength a : Action H NativeOutcome).Supplies NativeOutcome.Flat := by
  unfold rawLength
  split
  · exact supplies_bind (supplies_tableLength _) fun _ _ => supplies_one trivial
  · trivial
  · exact supplies_raise rfl

/-! ## Tables as sequences -/

omit [HostObjects H] in
theorem flat_slice {t : Table} (ht : t.Storable) (first : Int) (n : Nat) :
    (Value.tuple (t.slice first n)).Flat := by
  intro v hv
  simp only [Table.slice, List.mem_map] at hv
  obtain ⟨i, -, rfl⟩ := hv
  exact (ht.getInt _).1

theorem supplies_bounds (t : TableRef) (place : Nat) (function : String) :
    (bounds a t place function : Action H (Int × Int)).Supplies fun _ => True := by
  refine supplies_bind (supplies_ofScript (a.flat_asOptionalInteger _ _ _)) fun first _ => ?_
  refine supplies_bind (supplies_tableLength t) fun length _ => ?_
  exact supplies_bind (supplies_ofScript (a.flat_asOptionalInteger _ _ _)) fun _ _ => trivial

theorem supplies_unpack : (unpack a : Action H NativeOutcome).Supplies NativeOutcome.Flat := by
  refine supplies_bind (supplies_ofScript (a.flat_asTable 0 "unpack")) fun t _ => ?_
  refine supplies_bind (supplies_bounds t 1 "unpack") fun range _ => ?_
  dsimp only
  split
  · exact supplies_raise rfl
  · refine supplies_bind (P := fun items => (Value.tuple items).Flat) (supplies_ask fun w hw => ?_)
      fun items => supplies_one
    exact flat_slice (hw.table t) _ _

theorem supplies_concat : (concat a : Action H NativeOutcome).Supplies NativeOutcome.Flat := by
  refine supplies_bind (supplies_ofScript (a.flat_asTable 0 "concat")) fun t _ => ?_
  dsimp only
  split
  all_goals
    refine supplies_bind (P := fun _ => True) ?_ fun separator _ => ?_
    · first
      | trivial
      | exact supplies_ofScript (a.flat_asString 1 "concat")
    refine supplies_bind (supplies_bounds t 2 "concat") fun range _ => ?_
    refine supplies_bind (supplies_look _) fun texts _ => ?_
    split
    · trivial
    · exact supplies_raise rfl

theorem supplies_insert : (insert a : Action H NativeOutcome).Supplies NativeOutcome.Flat := by
  refine supplies_bind (supplies_ofScript (a.flat_asTable 0 "insert")) fun t _ => ?_
  refine supplies_bind (supplies_tableLength t) fun n _ => ?_
  split
  · refine supplies_bind (supplies_change fun w => ?_) fun _ _ => supplies_one trivial
    exact .perform w t (.append _)
  · refine supplies_bind (supplies_ofScript (a.flat_asInteger 1 "insert")) fun position _ => ?_
    split
    · refine supplies_bind (supplies_change fun w => ?_) fun _ _ => supplies_one trivial
      exact .perform w t (.insertAt _ _)
    · exact supplies_raise rfl
  · exact supplies_raise rfl

theorem supplies_removeFrom (t : TableRef) (position : Nat) :
    (removeFrom t position : Action H NativeOutcome).Supplies NativeOutcome.Flat := by
  refine supplies_bind (P := Value.Flat) (supplies_ask fun w hw => ?_) fun removed hremoved => ?_
  · exact ((hw.table t).noteLength.getInt _).1.flat
  · refine supplies_bind (supplies_change fun w => ?_) fun _ _ => supplies_one hremoved
    exact .perform w t (.removeAt position)

theorem supplies_remove : (remove a : Action H NativeOutcome).Supplies NativeOutcome.Flat := by
  refine supplies_bind (supplies_ofScript (a.flat_asTable 0 "remove")) fun t _ => ?_
  refine supplies_bind (supplies_tableLength t) fun n _ => ?_
  split
  · split
    · trivial
    · exact supplies_removeFrom t n
  · refine supplies_bind (supplies_ofScript (a.flat_asInteger 1 "remove")) fun position _ => ?_
    split
    · refine supplies_bind (P := Value.Flat) (supplies_ask fun w hw => ?_) fun v => supplies_one
      exact ((hw.table t).getInt _).1.flat
    · split
      · exact supplies_removeFrom t _
      · exact supplies_raise rfl

omit [HostObjects H] in
/-- A table of the arguments is filled by operations. -/
theorem performAll_packed (i : Int) (values : List Value) (t : Table)
    (further : List TableOperation) :
    ∃ history, (performAll Table.perform t history).2 =
      (performAll Table.perform (packed i values t) further).2 := by
  induction values generalizing i t with
  | nil => exact ⟨further, rfl⟩
  | cons v rest ih =>
    obtain ⟨history, hhistory⟩ := ih (i + 1) (t.setInt i v.toStorable)
    exact ⟨.setInteger i v.toStorable :: history, hhistory⟩

theorem supplies_pack : (pack a : Action H NativeOutcome).Supplies NativeOutcome.Flat := by
  refine supplies_bind (supplies_create fun w => ?_) fun _ _ => supplies_one trivial
  obtain ⟨history, hhistory⟩ := performAll_packed 1 a.values {}
    [.setName "n" (.number (Float.ofNat a.count))]
  have hadd := World.Receives.addTable w history
  rw [hhistory] at hadd
  exact hadd

/-! ## Going through tables and arguments -/

theorem supplies_next : (next a : Action H NativeOutcome).Supplies NativeOutcome.Flat := by
  refine supplies_bind (supplies_ofScript (a.flat_asTable 0 "next")) fun t _ => ?_
  refine supplies_bind
    (P := fun found => ∀ k v, found = .entry k v → k.Flat ∧ v.Flat)
    (supplies_ask fun w hw k v hfound => ?_) fun found hfound => ?_
  · have hentry := (hw.table t).next hfound
    exact ⟨hentry.1.1.flat, hentry.2.1.flat⟩
  · cases found with
    | entry k v =>
      have hentry := hfound k v rfl
      exact supplies_results (World.flat_pair hentry.1 hentry.2)
    | finished => trivial
    | unknownKey => exact supplies_raise rfl

theorem supplies_pairs (nextEntry : NativeRef) (ha : a.Single) :
    (pairs nextEntry a : Action H NativeOutcome).Supplies NativeOutcome.Flat := by
  refine supplies_bind (supplies_look _) fun definition? _ => ?_
  cases definition? with
  | some definition =>
    exact supplies_pure (P := NativeOutcome.Flat) (List.forall_mem_singleton.mpr (ha.get 0).flat)
  | none =>
    refine supplies_bind (supplies_ofScript (a.flat_asType 0 "pairs" .table false)) fun t ht => ?_
    exact supplies_results (List.forall_mem_cons.mpr ⟨trivial, World.flat_pair ht.flat trivial⟩)

theorem supplies_ipairs (step : NativeRef) :
    (ipairs step a : Action H NativeOutcome).Supplies NativeOutcome.Flat := by
  refine supplies_bind (supplies_ofScript (a.flat_asType 0 "ipairs" .table false)) fun t ht => ?_
  exact supplies_results (List.forall_mem_cons.mpr ⟨trivial, World.flat_pair ht.flat trivial⟩)

theorem supplies_ipairsStep :
    (ipairsStep a : Action H NativeOutcome).Supplies NativeOutcome.Flat := by
  refine supplies_bind (supplies_ofScript (a.flat_asNumber 1 "ipairs")) fun position _ => ?_
  refine supplies_bind (supplies_index trivial) fun value hvalue => ?_
  split
  · trivial
  · exact supplies_results (World.flat_pair trivial hvalue)

theorem supplies_select (ha : a.Single) :
    (select a : Action H NativeOutcome).Supplies NativeOutcome.Flat := by
  unfold select
  dsimp only
  split
  · trivial
  · refine supplies_bind (supplies_ofScript (a.flat_asInteger 0 "select")) fun position _ => ?_
    split
    · refine supplies_results fun v hv => ?_
      exact (ha.rest 1 v (List.mem_of_mem_drop hv)).flat
    · exact supplies_raise rfl

/-! ## Texts and numbers -/

theorem supplies_displayAll (texts : List String) (values : List Value) :
    (displayAll texts values : Action H (List String)).Supplies fun _ => True := by
  induction values generalizing texts with
  | nil => trivial
  | cons v rest ih => exact supplies_bind (supplies_displayText v) fun text _ => ih _

theorem supplies_print : (print a : Action H NativeOutcome).Supplies NativeOutcome.Flat := by
  refine supplies_bind (supplies_displayAll [] a.values) fun texts _ => ?_
  refine supplies_bind (supplies_change fun w => ?_) fun _ _ => supplies_one trivial
  exact .aside rfl rfl id

theorem supplies_toString :
    (toString a : Action H NativeOutcome).Supplies NativeOutcome.Flat := by
  unfold toString
  split
  · exact supplies_raise rfl
  · exact supplies_bind (supplies_displayText _) fun _ _ => supplies_one trivial

theorem supplies_oneNumber (n? : Option Float) :
    (oneNumber n? : Action H NativeOutcome).Supplies NativeOutcome.Flat := by
  cases n? <;> trivial

theorem supplies_toNumber :
    (toNumber a : Action H NativeOutcome).Supplies NativeOutcome.Flat := by
  unfold toNumber
  split
  · split
    · exact supplies_oneNumber _
    · exact supplies_oneNumber _
    · exact supplies_raise rfl
    · exact supplies_oneNumber _
  · refine supplies_bind (supplies_ofScript (a.flat_asInteger 1 "tonumber")) fun base _ => ?_
    split
    · exact supplies_raise rfl
    · exact supplies_bind (supplies_ofScript (a.flat_asString 0 "tonumber"))
        fun text _ => supplies_oneNumber _

/-! ## Coroutines -/

theorem supplies_newCoroutine (entry : Value) :
    (newCoroutine entry : Action H CoroutineRef).Supplies fun _ => True := by
  intro _ _
  refine ⟨fun w => ?_, trivial⟩
  exact .addCoroutine w .script entry

theorem supplies_coroutineArgument (function : String) :
    (coroutineArgument a function : Action H CoroutineRef).Supplies fun _ => True := by
  unfold coroutineArgument
  split
  · trivial
  · exact supplies_raise rfl

theorem supplies_createCoroutine :
    (create a : Action H NativeOutcome).Supplies NativeOutcome.Flat := by
  refine supplies_bind (supplies_ofScript (a.flat_asType 0 "create" .function false)) fun f _ => ?_
  exact supplies_bind (supplies_newCoroutine f) fun _ _ => supplies_one trivial

theorem supplies_resume (ha : a.Single) :
    (resume a : Action H NativeOutcome).Supplies NativeOutcome.Flat := by
  refine supplies_bind (supplies_coroutineArgument "resume") fun c _ => ?_
  refine ⟨Value.flat_of_single (ha.rest 1), fun r hr => ?_⟩
  dsimp only
  split
  · exact supplies_results (World.flat_pair trivial hr)
  · exact supplies_results (World.flat_pair trivial (ScriptError.Flat.value hr))
  · split
    · exact supplies_results (World.flat_pair trivial trivial)
    · exact hr

theorem supplies_running : (running : Action H NativeOutcome).Supplies NativeOutcome.Flat := by
  refine supplies_bind (supplies_look _) fun c? _ => ?_
  cases c? with
  | none => trivial
  | some c =>
    refine supplies_bind (supplies_look _) fun state _ => ?_
    exact supplies_results (World.flat_pair trivial trivial)

theorem supplies_status : (status a : Action H NativeOutcome).Supplies NativeOutcome.Flat := by
  refine supplies_bind (supplies_coroutineArgument "status") fun _ _ => ?_
  refine supplies_bind (supplies_look _) fun _ _ => ?_
  refine supplies_bind (supplies_look _) fun _ _ => ?_
  exact supplies_one trivial

theorem supplies_wrap : (wrap a : Action H NativeOutcome).Supplies NativeOutcome.Flat := by
  refine supplies_bind (supplies_ofScript (a.flat_asType 0 "wrap" .function false)) fun f _ => ?_
  refine supplies_bind (supplies_newCoroutine f) fun c _ => ?_
  exact supplies_bind (supplies_create fun w => .addNative w _) fun _ _ => supplies_one trivial

theorem supplies_wrapped (c : CoroutineRef) (ha : a.Single) :
    (wrapped c a : Action H NativeOutcome).Supplies NativeOutcome.Flat := by
  refine ⟨Value.flat_of_single ha, fun r hr => ?_⟩
  dsimp only
  split
  · exact hr
  · split
    · exact supplies_raise rfl
    · exact hr

end Library

/-- A function of the library gets single arguments and supplies flat values. -/
theorem LibraryFunction.supplies_action (f : LibraryFunction) (info : CallInfo) {a : Arguments}
    (ha : a.Single) : (f.action info a : Action H NativeOutcome).Supplies NativeOutcome.Flat := by
  open Library in
  cases f with
  | assert => exact supplies_assert ha
  | error => exact supplies_error
  | getMetatable => exact supplies_getMetatable
  | next => exact supplies_next
  | print => exact supplies_print
  | rawEqual => exact supplies_one trivial
  | rawGet => exact supplies_rawGet
  | rawLen => exact supplies_rawLength
  | rawSet => exact supplies_rawSet
  | select => exact supplies_select ha
  | setMetatable => exact supplies_setMetatable
  | toNumber => exact supplies_toNumber
  | toString => exact supplies_toString
  | typeOf => exact supplies_typeOf
  | unpack => exact supplies_unpack
  | pairs nextEntry => exact supplies_pairs nextEntry ha
  | ipairsStep => exact supplies_ipairsStep
  | ipairs step => exact supplies_ipairs step
  | protectedOk => exact supplies_protectedOk ha
  | protectedFailed => exact supplies_protectedFailed
  | pcall ok failed => exact supplies_pcall ok failed ha
  | xpcall ok failed => exact supplies_xpcall ok failed ha
  | tableConcat => exact supplies_concat
  | tableInsert => exact supplies_insert
  | tablePack => exact supplies_pack
  | tableRemove => exact supplies_remove
  | coroutineCreate => exact supplies_createCoroutine
  | coroutineIsYieldable => exact supplies_one trivial
  | coroutineResume => exact supplies_resume ha
  | coroutineRunning => exact supplies_running
  | coroutineStatus => exact supplies_status
  | coroutineWrap => exact supplies_wrap
  | wrapped c => exact supplies_wrapped c ha
  | coroutineYield => exact Value.flat_tupled (Value.flat_of_single ha)

end ScriptEngine
