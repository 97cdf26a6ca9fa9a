import ScriptEngine.Proofs.Coroutine.History
import ScriptEngine.Proofs.Native.Simple

/-!
# The calls that host functions ask for

Three functions of the library end by asking for a call in their own place.  The
two protected calls give it functions that turn its results or its error into
theirs; `pairs` asks for the definition that its argument has, with nothing to
do afterwards.  All others end with a result, a yield or an error, and none of
them enters the main coroutine or makes a protected call of its own.
-/

namespace ScriptEngine

variable {H : HostTypes} {α β : Type}

/-- Whatever the action is done with is of this kind. -/
def Action.Ends (P : α → Prop) : Action H α → Prop
  | .done a => P a
  | .fail _ => True
  | .read next => ∀ w, Ends P (next w)
  | .write _ next => Ends P next
  | .call _ _ next => ∀ r, Ends P (next r)
  | .resume _ _ next => ∀ r, Ends P (next r)
  | .enterMain _ _ next => ∀ r, Ends P (next r)

/-- A call that is asked for is of this kind. -/
def NativeOutcome.Asks (P : TailCallRequest → Prop) : NativeOutcome → Prop
  | .tailCall request => P request
  | _ => True

/-- The calls that an action may end by asking for. -/
abbrev Action.Asks (P : TailCallRequest → Prop) (a : Action H NativeOutcome) : Prop :=
  a.Ends (NativeOutcome.Asks P)

/-- The calls that a function of the library asks for. -/
def LibraryFunction.Requests : LibraryFunction → TailCallRequest → Prop
  | .pcall ok _, request => request.continuation? = some ok
  | .xpcall ok _, request => request.continuation? = some ok
  | .pairs _, request => ∃ definition args, request = { function := definition, args }
  | _, _ => False

namespace Action

variable {P : α → Prop} {Q : β → Prop}

theorem Ends.imp {x : Action H α} {P' : α → Prop} (h : x.Ends P)
    (himp : ∀ a, P a → P' a) : x.Ends P' := by
  induction x with
  | done a => exact himp a h
  | fail e => trivial
  | read next ih => exact fun w => ih w (h w)
  | write change next ih => exact ih h
  | call function args next ih => exact fun r => ih r (h r)
  | resume c args next ih => exact fun r => ih r (h r)
  | enterMain function args next ih => exact fun r => ih r (h r)

/-- Only the end of an action counts. -/
theorem ends_bind {x : Action H α} {f : α → Action H β} (hf : ∀ a, (f a).Ends Q) :
    (x >>= f).Ends Q := by
  change (x.bind f).Ends Q
  induction x with
  | done a => exact hf a
  | fail e => trivial
  | read next ih => exact ih
  | write change next ih => exact ih
  | call function args next ih => exact ih
  | resume c args next ih => exact ih
  | enterMain function args next ih => exact ih

end Action

namespace Library

open ScriptEngine.Action

variable {P : TailCallRequest → Prop}

theorem ends_one (v : Value) : (one v : Action H NativeOutcome).Asks P :=
  trivial

theorem ends_results (values : List Value) :
    (results values : Action H NativeOutcome).Asks P :=
  trivial

theorem ends_assert (a : Arguments) :
    (assert a : Action H NativeOutcome).Asks P := by
  unfold assert
  split
  · exact ends_results _
  · split <;> trivial

theorem ends_unpack (a : Arguments) :
    (unpack a : Action H NativeOutcome).Asks P := by
  refine ends_bind fun t => ends_bind fun range => ?_
  dsimp only
  split
  · trivial
  · exact ends_bind fun _ => ends_one _

theorem ends_concat (a : Arguments) :
    (concat a : Action H NativeOutcome).Asks P := by
  refine ends_bind fun t => ?_
  dsimp only
  split
  all_goals
    refine ends_bind fun separator => ends_bind fun range => ends_bind fun texts => ?_
    cases texts <;> trivial

theorem ends_insert (a : Arguments) :
    (insert a : Action H NativeOutcome).Asks P := by
  refine ends_bind fun t => ends_bind fun n => ?_
  split
  · exact ends_bind fun _ => ends_one _
  · refine ends_bind fun position => ?_
    split
    · exact ends_bind fun _ => ends_one _
    · trivial
  · trivial

theorem ends_removeFrom (t : TableRef) (position : Nat) :
    (removeFrom t position : Action H NativeOutcome).Asks P := by
  refine ends_bind fun _ => ?_
  refine ends_bind fun _ => ?_
  exact ends_one _

theorem ends_remove (a : Arguments) :
    (remove a : Action H NativeOutcome).Asks P := by
  refine ends_bind fun t => ends_bind fun n => ?_
  split
  · split
    · exact ends_one _
    · exact ends_removeFrom _ _
  · refine ends_bind fun position => ?_
    split
    · exact ends_bind fun _ => ends_one _
    · split
      · exact ends_removeFrom _ _
      · trivial

theorem ends_getMetatable (a : Arguments) :
    (getMetatable a : Action H NativeOutcome).Asks P := by
  refine ends_bind fun m? => ?_
  cases m? with
  | none => exact ends_one _
  | some m => exact ends_bind fun _ => ends_one _

theorem ends_setMetatable (a : Arguments) :
    (setMetatable a : Action H NativeOutcome).Asks P := by
  refine ends_bind fun t => ?_
  dsimp only
  split
  all_goals
    refine ends_bind fun m? => ends_bind fun isGuarded => ?_
    split
    · trivial
    · exact ends_bind fun _ => ends_one _

theorem ends_typeOf (a : Arguments) :
    (typeOf a : Action H NativeOutcome).Asks P := by
  unfold typeOf
  dsimp only
  split <;> trivial

theorem ends_rawSet (a : Arguments) :
    (rawSet a : Action H NativeOutcome).Asks P := by
  refine ends_bind fun t => ?_
  dsimp only
  split
  · trivial
  · exact ends_bind fun _ => ends_one _

theorem ends_rawLength (a : Arguments) :
    (rawLength a : Action H NativeOutcome).Asks P := by
  unfold rawLength
  split
  · exact ends_bind fun _ => ends_one _
  · exact ends_one _
  · trivial

theorem ends_select (a : Arguments) :
    (select a : Action H NativeOutcome).Asks P := by
  unfold select
  dsimp only
  split
  · exact ends_one _
  · refine ends_bind fun position => ?_
    split
    · exact ends_results _
    · trivial

theorem ends_next (a : Arguments) :
    (next a : Action H NativeOutcome).Asks P := by
  refine ends_bind fun t => ends_bind fun found => ?_
  split
  · exact ends_results _
  · exact ends_one _
  · trivial

theorem ends_toNumber (a : Arguments) :
    (toNumber a : Action H NativeOutcome).Asks P := by
  unfold toNumber
  split
  · split <;> trivial
  · refine ends_bind fun base => ?_
    split
    · trivial
    · exact ends_bind fun _ => ends_one _

theorem ends_running :
    (running : Action H NativeOutcome).Asks P := by
  refine ends_bind fun current? => ?_
  cases current? with
  | none => exact ends_one _
  | some c => exact ends_bind fun _ => ends_results _

theorem ends_resume (a : Arguments) :
    (resume a : Action H NativeOutcome).Asks P := by
  refine ends_bind fun c => fun r => ?_
  dsimp only
  split
  · exact ends_results _
  · exact ends_results _
  · split
    · exact ends_results _
    · trivial

theorem ends_wrapped (c : CoroutineRef) (a : Arguments) :
    (wrapped c a : Action H NativeOutcome).Asks P := by
  intro r
  dsimp only
  split
  · exact ends_one _
  · split <;> trivial

theorem ends_pcall (ok failed : NativeRef) (a : Arguments) :
    (pcall ok failed a : Action H NativeOutcome).Asks
      fun request => request.continuation? = some ok := by
  unfold pcall
  split
  · trivial
  · exact rfl

theorem ends_xpcall (ok failed : NativeRef) (a : Arguments) :
    (xpcall ok failed a : Action H NativeOutcome).Asks
      fun request => request.continuation? = some ok := by
  refine ends_bind fun _ => ?_
  rfl

section

variable [HostObjects H]

theorem ends_pairs (nextEntry : NativeRef) (a : Arguments) :
    (pairs nextEntry a : Action H NativeOutcome).Asks
      fun request => ∃ definition args, request = { function := definition, args } := by
  refine ends_bind fun definition? => ?_
  cases definition? with
  | none => exact ends_bind fun _ => ends_results _
  | some definition => exact ⟨definition, _, rfl⟩

theorem ends_ipairsStep (a : Arguments) :
    (ipairsStep a : Action H NativeOutcome).Asks P := by
  refine ends_bind fun position => ends_bind fun value => ?_
  split
  · exact ends_one _
  · exact ends_results _

theorem ends_toString (a : Arguments) :
    (toString a : Action H NativeOutcome).Asks P := by
  unfold toString
  split
  · trivial
  · exact ends_bind fun _ => ends_one _

end

end Library

/-- A function of the library asks for no other calls. -/
theorem LibraryFunction.ends_action [HostObjects H] (f : LibraryFunction)
    (info : CallInfo) (a : Arguments) :
    (f.action info a : Action H NativeOutcome).Asks f.Requests := by
  open ScriptEngine.Action ScriptEngine.Library in
  cases f with
  | assert => exact ends_assert a
  | error => exact ends_bind fun _ => trivial
  | getMetatable => exact ends_getMetatable a
  | next => exact ends_next a
  | print => exact ends_bind fun _ => ends_bind fun _ => ends_one _
  | rawEqual => exact ends_one _
  | rawGet => exact ends_bind fun _ => ends_bind fun _ => ends_one _
  | rawLen => exact ends_rawLength a
  | rawSet => exact ends_rawSet a
  | select => exact ends_select a
  | setMetatable => exact ends_setMetatable a
  | toNumber => exact ends_toNumber a
  | toString => exact ends_toString a
  | typeOf => exact ends_typeOf a
  | unpack => exact ends_unpack a
  | pairs nextEntry => exact ends_pairs nextEntry a
  | ipairsStep => exact ends_ipairsStep a
  | ipairs step => exact ends_bind fun _ => ends_results _
  | protectedOk => exact ends_results _
  | protectedFailed => exact ends_results _
  | pcall ok failed => exact ends_pcall ok failed a
  | xpcall ok failed => exact ends_xpcall ok failed a
  | tableConcat => exact ends_concat a
  | tableInsert => exact ends_insert a
  | tablePack => exact ends_bind fun _ => ends_one _
  | tableRemove => exact ends_remove a
  | coroutineCreate => exact ends_bind fun _ => ends_bind fun _ => ends_one _
  | coroutineIsYieldable => exact ends_one _
  | coroutineResume => exact ends_resume a
  | coroutineRunning => exact ends_running
  | coroutineStatus =>
      exact ends_bind fun _ => ends_bind fun _ => ends_bind fun _ => ends_one _
  | coroutineWrap =>
      exact ends_bind fun _ => ends_bind fun _ => ends_bind fun _ => ends_one _
  | wrapped c => exact ends_wrapped c a
  | coroutineYield => trivial

/-! ## Protected calls -/

/-- The functions that make protected calls. -/
def LibraryFunction.protects : LibraryFunction → Bool
  | .pcall _ _ | .xpcall _ _ => true
  | _ => false

namespace World

/-- A protected call hands its results to the function. -/
def Confirms (w : World H) (f : NativeRef) : Prop :=
  ∃ r n failed, w.native? r = some n ∧
    (n.body = .library (.pcall f failed) ∨ n.body = .library (.xpcall f failed))

/-- A function that confirms protected calls. -/
def IsConfirming (w : World H) (f : NativeRef) : Prop :=
  ∃ n, w.native? f = some n ∧ n.body = .library .protectedOk

/-- Every protected call hands its results to the function of the library that is
there for them. -/
def Standard (w : World H) : Prop :=
  ∀ f, w.Confirms f → w.IsConfirming f

theorem Retains.confirms {w w' : World H} (h : w.Retains w') {f : NativeRef}
    (hf : w.Confirms f) : w'.Confirms f := by
  obtain ⟨r, n, failed, hn, hbody⟩ := hf
  exact ⟨r, n, failed, h.native? r n hn, hbody⟩

theorem Retains.isConfirming {w w' : World H} (h : w.Retains w') {f : NativeRef}
    (hf : w.IsConfirming f) : w'.IsConfirming f := by
  obtain ⟨n, hn, hbody⟩ := hf
  exact ⟨n, h.native? f n hn, hbody⟩

/-- A world with no more protected calls. -/
theorem Standard.of_retains {w w' : World H} (h : w.Standard)
    (hretains : w.Retains w')
    (hnew : ∀ r n, w'.native? r = some n →
      w.native? r = some n ∨ ∃ c, n.body = .library (.wrapped c)) :
    w'.Standard := by
  rintro f ⟨r, n, failed, hn, hbody⟩
  rcases hnew r n hn with hold | ⟨c, hwrapped⟩
  · exact hretains.isConfirming (h f ⟨r, n, failed, hold, hbody⟩)
  · rw [hwrapped] at hbody
    rcases hbody with hbody | hbody <;> cases hbody

theorem Standard.of_tame {w : World H} (h : w.Standard) {f : World H → World H}
    (hf : Tame f) : (f w).Standard := by
  refine h.of_retains (hf.extending w).retains fun r n hn => Or.inl ?_
  rw [← hf.native?]
  exact hn

theorem retains_add (w : World H) (o : Object H) : w.Retains (w.add o) := by
  refine ⟨rfl, fun r n hn => ?_⟩
  rw [native?_eq_some_iff] at hn ⊢
  rw [object?_add_of_ne w o ?_]
  · exact hn
  · intro hid
    rw [hid, object?_nextId] at hn
    cases hn

theorem Standard.add {w : World H} (h : w.Standard) {o : Object H}
    (ho : ∀ n, o = .native n → ∃ c, n.body = .library (.wrapped c)) :
    (w.add o).Standard := by
  refine h.of_retains (retains_add w o) fun r n hn => ?_
  rw [native?_eq_some_iff] at hn ⊢
  by_cases hid : r.id = w.nextId
  · rw [hid, object?_add_nextId] at hn
    exact Or.inr (ho n (Option.some.inj hn))
  · rw [object?_add_of_ne w o hid] at hn
    exact Or.inl hn

/-! ### Worlds with the library -/

theorem Standard.addLibrary {w : World H} (h : w.Standard) (name : String)
    {f : LibraryFunction}
    (hf : ∀ ok failed, f = .pcall ok failed ∨ f = .xpcall ok failed →
      w.IsConfirming ok) : (w.addLibrary name f).2.Standard := by
  rintro ok ⟨r, n, failed, hn, hbody⟩
  have hretains := retains_add w (.native { name, body := .library f })
  rw [native?_eq_some_iff] at hn
  change (w.add _).object? r.id = _ at hn
  by_cases hid : r.id = w.nextId
  · rw [hid, object?_add_nextId] at hn
    cases hn
    refine hretains.isConfirming (hf ok failed ?_)
    exact hbody.imp NativeBody.library.inj NativeBody.library.inj
  · rw [object?_add_of_ne w _ hid] at hn
    exact hretains.isConfirming
      (h ok ⟨r, n, failed, native?_eq_some_iff.mpr hn, hbody⟩)

theorem Standard.addPlain {w : World H} (h : w.Standard) (name : String)
    {f : LibraryFunction} (hf : f.protects = false) :
    (w.addLibrary name f).2.Standard := by
  refine h.addLibrary name ?_
  rintro ok failed (rfl | rfl) <;> cases hf

theorem Standard.setNamed {w : World H} (h : w.Standard) (t : TableRef)
    (name : String) (v : Value) : (w.setNamed t name v).Standard :=
  h.of_tame (tame_modifyTable t _)

theorem Standard.installPlain {w : World H} (h : w.Standard) (t : TableRef)
    (name : String) {f : LibraryFunction} (hf : f.protects = false) :
    (w.installAs t name f).Standard := by
  have hadded := h.addPlain name hf
  exact hadded.setNamed t name _

theorem Standard.installProtected {w : World H} (h : w.Standard) (t : TableRef)
    (name : String) {ok failed : NativeRef} (hok : w.IsConfirming ok)
    {f : LibraryFunction} (hf : f = .pcall ok failed ∨ f = .xpcall ok failed) :
    (w.installAs t name f).Standard := by
  refine (h.addLibrary name ?_).setNamed t name _
  rintro ok' failed' hf'
  rcases hf with rfl | rfl <;> rcases hf' with hf' | hf' <;> cases hf' <;> exact hok

theorem Standard.install {w : World H} (h : w.Standard) (t : TableRef)
    {l : List (String × LibraryFunction)}
    (hnamed : ∀ f ∈ l, f.2.protects = false) : (w.install t l).Standard := by
  induction l generalizing w with
  | nil => exact h
  | cons f rest ih =>
      have hfirst := h.installPlain t f.1 (hnamed f List.mem_cons_self)
      exact ih hfirst fun g hg => hnamed g (List.mem_cons_of_mem f hg)

theorem isConfirming_addLibrary (w : World H) (name : String) :
    (w.addLibrary name .protectedOk).2.IsConfirming (w.addLibrary name .protectedOk).1 := by
  refine ⟨{ name, body := .library .protectedOk }, ?_, rfl⟩
  rw [native?_eq_some_iff]
  exact object?_add_nextId w _

theorem IsConfirming.addLibrary {w : World H} {ok : NativeRef} (h : w.IsConfirming ok)
    (name : String) (f : LibraryFunction) : (w.addLibrary name f).2.IsConfirming ok := by
  have hretains := retains_add w
  exact (hretains _).isConfirming h

theorem IsConfirming.installAs {w : World H} {ok : NativeRef} (h : w.IsConfirming ok)
    (t : TableRef) (name : String) (f : LibraryFunction) :
    (w.installAs t name f).IsConfirming ok :=
  ((tame_modifyTable t _).extending _).retains.isConfirming (h.addLibrary name f)

theorem Standard.installBase {w : World H} (h : w.Standard) :
    w.installBase.Standard := by
  have hbase := h.install w.globals (l := baseFunctions) (by decide)
  have hpairs := fun next => (hbase.addPlain "next" (f := .next) rfl).installPlain
    w.globals "pairs" (f := .pairs next) rfl
  have hipairs := fun next step => ((hpairs next).addPlain "ipairs_step" (f := .ipairsStep)
    rfl).installPlain w.globals "ipairs" (f := .ipairs step) rfl
  -- protected calls come after the function that confirms them
  have hhelpers := fun next step => ((hipairs next step).addPlain "pcall_ok"
    (f := .protectedOk) rfl).addPlain "pcall_failed" (f := .protectedFailed) rfl
  have hconfirms := fun w : World H =>
    (isConfirming_addLibrary w "pcall_ok").addLibrary "pcall_failed" .protectedFailed
  have hpcall := fun next step failed => (hhelpers next step).installProtected w.globals
    "pcall" (hconfirms _) (f := .pcall _ failed) (Or.inl rfl)
  have hxpcall := fun next step failed => (hpcall next step failed).installProtected
    w.globals "xpcall" ((hconfirms _).installAs w.globals "pcall" _)
    (f := .xpcall _ failed) (Or.inr rfl)
  exact (hxpcall _ _ _).setNamed w.globals "_G" _

theorem Standard.installModule {w : World H} (h : w.Standard) (name : String)
    {l : List (String × LibraryFunction)}
    (hnamed : ∀ f ∈ l, f.2.protects = false) :
    (w.installModule name l).Standard := by
  have htable := h.add (o := .table {}) (by simp)
  exact (htable.install _ hnamed).setNamed _ name _

/-- The library alone makes a world in which protected calls are confirmed. -/
theorem standard_start (settings : Settings) (host : H.State) :
    (start settings host).Standard := by
  have hempty : World.Standard (H := H)
      { objects := #[.table {}, .coroutine ⟨.main, .script, .nil, some {}⟩],
        globals := ⟨1⟩, main := ⟨2⟩, settings, host } := by
    rintro ok ⟨⟨id⟩, n, failed, hn, -⟩
    rw [native?_eq_some_iff] at hn
    match id with
    | 0 | 1 | 2 | id + 3 => simp [object?] at hn
  unfold start installModules
  dsimp only
  have hbase : ∀ {w : World H}, w.Standard →
      (if settings.modules.base then w.installBase else w).Standard := by
    intro w h
    split
    · exact h.installBase
    · exact h
  have htable : ∀ {w : World H}, w.Standard →
      (if settings.modules.table then w.installModule "table" tableFunctions
        else w).Standard := by
    intro w h
    split
    · exact h.installModule "table" (by decide)
    · exact h
  have hboth := htable (hbase hempty)
  split
  · exact hboth.installModule "coroutine" (by decide)
  · exact hboth

end World

/-- The action stays on the coroutines that scripts have, and makes no protected
calls. -/
def Action.Domestic : Action H α → Prop
  | .done _ => True
  | .fail _ => True
  | .read next => ∀ w, Domestic (next w)
  | .write change next => (∀ w : World H, w.Standard → (change w).Standard) ∧ Domestic next
  | .call _ _ next => ∀ r, Domestic (next r)
  | .resume _ _ next => ∀ r, Domestic (next r)
  | .enterMain _ _ _ => False

namespace Action

theorem domestic_bind {x : Action H α} {f : α → Action H β} (hx : x.Domestic)
    (hf : ∀ a, (f a).Domestic) : (x >>= f).Domestic := by
  change (x.bind f).Domestic
  induction x with
  | done a => exact hf a
  | fail e => trivial
  | read next ih => exact fun w => ih w (hx w)
  | write change next ih => exact ⟨hx.1, ih hx.2⟩
  | call function args next ih => exact fun r => ih r (hx r)
  | resume c args next ih => exact fun r => ih r (hx r)
  | enterMain function args next ih => exact hx

theorem domestic_ofResult (r : Except RuntimeError α) :
    (ofResult r : Action H α).Domestic := by
  cases r <;> trivial

theorem Simple.domestic {E : RuntimeError → Prop} {x : Action H α}
    (hx : x.Simple E) : x.Domestic := by
  induction hx with
  | pure a => trivial
  | raise e => trivial
  | bind hx hf ihx ihf => exact domestic_bind ihx ihf
  | ask hf => exact fun w => trivial
  | consult hf hE => exact fun w => domestic_ofResult _
  | change hf => exact ⟨fun w hw => hw.of_tame hf, trivial⟩
  | create ho hnative => exact fun w => ⟨fun w hw => hw.add hnative, trivial⟩
  | newCoroutine entry =>
      refine fun w => ⟨fun w hw => hw.add ?_, trivial⟩
      intro n hn
      cases hn
  | callValue function args => exact domestic_ofResult

end Action

namespace Library

theorem domestic_resume (a : Arguments) :
    (resume a : Action H NativeOutcome).Domestic := by
  have hargument := simple_coroutineArgument (H := H) (E := fun _ => True) a "resume"
  refine Action.domestic_bind hargument.domestic fun c => fun r => ?_
  dsimp only
  split
  · trivial
  · trivial
  · split <;> trivial

theorem domestic_wrapped (c : CoroutineRef) (a : Arguments) :
    (wrapped c a : Action H NativeOutcome).Domestic := by
  intro r
  dsimp only
  split
  · trivial
  · split <;> trivial

end Library

/-- Every function of the library is domestic. -/
theorem LibraryFunction.domestic_action [HostObjects H] (f : LibraryFunction)
    (info : CallInfo) (a : Arguments) :
    (f.action info a : Action H NativeOutcome).Domestic := by
  have hcovers : Covers H fun _ => True :=
    { script := fun _ => trivial
      internal := fun _ => trivial
      fault := fun _ => trivial
      index := fun _ _ _ _ _ => trivial
      setIndex := fun _ _ _ _ _ _ => trivial }
  cases hf : f.resumes with
  | false => exact (f.simple_action hcovers hf info a).domestic
  | true =>
      cases f with
      | coroutineResume => exact Library.domestic_resume a
      | wrapped c => exact Library.domestic_wrapped c a
      | _ => cases hf

end ScriptEngine
