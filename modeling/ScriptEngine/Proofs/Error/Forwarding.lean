import ScriptEngine.Proofs.Coroutine.Discipline
import ScriptEngine.Proofs.Native.Simple

/-!
# Functions that pass errors on

A host function that calls back waits for a result.  It forwards errors if every
error that scripts cannot catch ends the function, too.  The one error that a
function may answer itself is the refusal of a resume it asked for; so no loop
may end with such an error.  The functions of the library forward errors, and in
every state that an engine comes to, whatever waits for a call does, but for the
host itself.
-/

namespace ScriptEngine

variable {H : HostTypes} {α β : Type}

/-- No refused resume. -/
def RuntimeError.Proper (e : RuntimeError) : Prop :=
  e.isResumeRefusal = false

/-- What waits for a result ends with every error that no script can catch. -/
def Passes (next : Except RuntimeError Value → Action H α) : Prop :=
  ∀ e : RuntimeError, e.isCatchable = false → e.Proper → next (.error e) = .fail e

inductive Action.Forwards : Action H α → Prop where
  | done (a : α) : Forwards (.done a)
  | fail {e : RuntimeError} (he : e.Proper) : Forwards (.fail e)
  | read {next : World H → Action H α} (h : ∀ w, Forwards (next w)) :
      Forwards (.read next)
  | write (change : World H → World H) {next : Action H α} (h : Forwards next) :
      Forwards (.write change next)
  | call (function : Value) (args : List Value)
      {next : Except RuntimeError Value → Action H α} (hpasses : Passes next)
      (h : ∀ r, ErrorsIn RuntimeError.Proper r → Forwards (next r)) :
      Forwards (.call function args next)
  | resume (c : CoroutineRef) (args : List Value)
      {next : Except RuntimeError Value → Action H α} (hpasses : Passes next)
      (h : ∀ r, Forwards (next r)) : Forwards (.resume c args next)
  | enterMain (function : Value) (args : List Value)
      {next : Except RuntimeError Value → Action H α} (hpasses : Passes next)
      (h : ∀ r, ErrorsIn RuntimeError.Proper r → Forwards (next r)) :
      Forwards (.enterMain function args next)

/-- A host all of whose functions forward errors and none of whose objects
speaks of refused resumes. -/
class ForwardingHost (H : HostTypes) [Host H] : Prop where
  covers : Covers H RuntimeError.Proper
  forwards (f : H.Function) (info : CallInfo) (a : Arguments) :
    (Host.run f info a).Forwards

instance : ForwardingHost HostTypes.alone where
  covers :=
    { script := fun _ => rfl
      internal := fun _ => rfl
      fault := fun _ => rfl
      index := fun _ o => o.elim
      setIndex := fun _ o => o.elim }
  forwards f := f.elim

namespace Action

theorem Passes.bind {next : Except RuntimeError Value → Action H α}
    (h : Passes next) (f : α → Action H β) : Passes fun r => (next r).bind f := by
  intro e hcatchable hproper
  simp only [h e hcatchable hproper, Action.bind]

theorem forwards_bind {x : Action H α} {f : α → Action H β} (hx : x.Forwards)
    (hf : ∀ a, (f a).Forwards) : (x >>= f).Forwards := by
  change (x.bind f).Forwards
  induction hx with
  | done a => exact hf a
  | fail he => exact .fail he
  | read h ih => exact .read ih
  | write change h ih => exact .write change ih
  | call function args hpasses h ih =>
      exact .call function args (Passes.bind hpasses f) ih
  | resume c args hpasses h ih => exact .resume c args (Passes.bind hpasses f) ih
  | enterMain function args hpasses h ih =>
      exact .enterMain function args (Passes.bind hpasses f) ih

theorem forwards_ofResult {r : Except RuntimeError α}
    (hr : ErrorsIn RuntimeError.Proper r) :
    (ofResult r : Action H α).Forwards := by
  cases r with
  | ok a => exact .done a
  | error e => exact .fail (hr e rfl)

theorem Simple.forwards {x : Action H α} (hx : x.Simple RuntimeError.Proper) :
    x.Forwards := by
  induction hx with
  | pure a => exact .done a
  | raise e => exact .fail rfl
  | bind hx hf ihx ihf => exact forwards_bind ihx ihf
  | ask hf => exact .read fun w => .done _
  | consult hf hE => exact .read fun w => forwards_ofResult (hE w)
  | change hf => exact .write _ (.done ())
  | create ho hnative => exact .read fun w => .write _ (.done _)
  | newCoroutine entry => exact .read fun w => .write _ (.done _)
  | callValue function args =>
      refine .call function args ?_ fun r hr => forwards_ofResult hr
      intro e hcatchable hproper
      rfl

end Action

namespace Library

/-- A refused resume is reported; all other errors but those of scripts pass. -/
theorem forwards_resume (a : Arguments) :
    (resume a : Action H NativeOutcome).Forwards := by
  refine Action.forwards_bind (simple_coroutineArgument a _).forwards fun c => ?_
  refine .resume c _ ?_ fun r => ?_
  · intro e hcatchable hproper
    cases e with
    | script e => cases hcatchable
    | _ => exact if_neg (by rw [hproper]; exact Bool.false_ne_true)
  · split
    · exact .done _
    · exact .done _
    · split
      · exact .done _
      · next e _ hrefusal => exact .fail (Bool.eq_false_iff.mpr hrefusal)

theorem forwards_wrapped (c : CoroutineRef) (a : Arguments) :
    (wrapped c a : Action H NativeOutcome).Forwards := by
  refine .resume c _ ?_ fun r => ?_
  · intro e hcatchable hproper
    exact if_neg (by rw [hproper]; exact Bool.false_ne_true)
  · split
    · exact .done _
    · split
      · exact .fail rfl
      · next e hrefusal => exact .fail (Bool.eq_false_iff.mpr hrefusal)

end Library

theorem LibraryFunction.forwards [HostObjects H]
    (hcovers : Covers H RuntimeError.Proper) (f : LibraryFunction)
    (info : CallInfo) (a : Arguments) :
    (f.action info a : Action H NativeOutcome).Forwards := by
  cases hf : f.resumes with
  | false => exact (f.simple_action hcovers hf info a).forwards
  | true =>
      cases f with
      | coroutineResume => exact Library.forwards_resume a
      | wrapped c => exact Library.forwards_wrapped c a
      | _ => cases hf

/-! ## Everything that waits -/

/-- What waits for a call within some activations; with none below, the host
itself waits, and it may do as it likes. -/
def Waiter.Forwards (activations : List (Activation H)) : Waiter H → Prop
  | .action next =>
      activations = [] ∨
        Passes next ∧ ∀ r, ErrorsIn RuntimeError.Proper r → (next r).Forwards
  | _ => True

inductive Forwarding : List (Activation H) → Prop where
  | nil : Forwarding []
  | call (mark : LoopMark) {waiter : Waiter H} {rest : List (Activation H)}
      (hwaiter : waiter.Forwards rest) (h : Forwarding rest) :
      Forwarding (.call mark waiter :: rest)
  | body {rest : List (Activation H)} (h : Forwarding rest) :
      Forwarding (.body :: rest)
  | switch (r : CoroutineRef) (outer : Processor)
      {next : Except RuntimeError Value → Action H NativeOutcome}
      {rest : List (Activation H)}
      (hnext : rest = [] ∨
        Passes next ∧ ∀ r, ErrorsIn RuntimeError.Proper r → (next r).Forwards)
      (h : Forwarding rest) : Forwarding (.switch r outer next :: rest)

def Control.Forwards (activations : List (Activation H)) : Control H → Prop
  | .failed e => e.Proper
  | .leaving exit => ErrorsIn RuntimeError.Proper exit
  | .switching exit => ErrorsIn RuntimeError.Proper exit
  | .calling _ _ waiter => waiter.Forwards activations
  | .answering waiter result =>
      waiter.Forwards activations ∧ ErrorsIn RuntimeError.Proper result
  | .running a => activations = [] ∨ a.Forwards
  | _ => True

structure Machine.Forwarding (m : Machine H) : Prop where
  activations : ScriptEngine.Forwarding m.activations
  control : m.control.Forwards m.activations

namespace Machine

variable [Host H]

omit [Host H] in
theorem forwarding_exec {route : Route} {x : Exec H Outcome}
    (hx : Exec.Raises RuntimeError.Proper x) (core : Core H)
    {activations : List (Activation H)} (h : ScriptEngine.Forwarding activations) :
    (exec route x core activations).Forwarding := by
  unfold exec
  cases hrun : x core with
  | ok o core' => cases route <;> exact ⟨h, trivial⟩
  | error e core' =>
      have he := hx core e core' hrun
      cases route with
      | loop => exact ⟨h, he⟩
      | settling => exact ⟨h, errorsIn_error he⟩

omit [Host H] in
/-- The error of a yield that is not allowed is no refusal. -/
theorem raises_checkYield :
    Exec.Raises RuntimeError.Proper (Exec.checkYield : Exec H Unit) := by
  intro core e core' h
  rcases checkYield_cases core with hrun | ⟨v, hrun⟩
  · rw [hrun] at h
    cases h
  · unfold Exec.checkYield at h
    rw [Exec.run_bind_of_ok (Exec.askProc_run _ core)] at h
    split at h
    · cases h
      rfl
    · split at h
      · cases h
        rfl
      · cases h

variable [ForwardingHost H]

theorem raises_poll : Exec.Raises RuntimeError.Proper (Exec.poll : Exec H Outcome) := by
  intro core e core' h
  rcases poll_cases core with hrun | hrun | hrun
  · rw [hrun] at h
    cases h
    rfl
  · rw [hrun] at h
    cases h
  · rw [hrun] at h
    exact Exec.raises_step ForwardingHost.covers _ e core' h

theorem forwards_invoke (core : Core H) (f : NativeRef) (args : Arguments) :
    (core.invoke f args).Forwards := by
  rcases core.invoke_cases f args with
    hinvoke | ⟨native, g, -, -, hinvoke⟩ | ⟨native, g, -, -, hinvoke⟩
  all_goals rw [hinvoke]
  · exact .fail rfl
  · exact LibraryFunction.forwards ForwardingHost.covers _ _ _
  · exact ForwardingHost.forwards _ _ _

theorem forwarding_afterOutcome (core : Core H)
    {activations : List (Activation H)} (h : ScriptEngine.Forwarding activations)
    (o : Outcome) : (afterOutcome core activations o).Forwarding := by
  have hcovers := ForwardingHost.covers (H := H)
  cases o with
  | proceed => exact forwarding_exec raises_poll core h
  | finish frame v => exact forwarding_exec (Exec.raises_finish hcovers.withstands _ _) core h
  | tailCall request flags returnAddress =>
      exact forwarding_exec (Exec.raises_call hcovers.withstands _ _ _ _ _) core h
  | invoke f args => exact ⟨h, Or.inr (forwards_invoke core f args)⟩
  | recover e decorator? handler flags returnAddress =>
      cases decorator? <;> exact ⟨h, trivial⟩
  | yield v =>
      unfold afterOutcome
      cases hrun : Exec.checkYield core with
      | ok u core' =>
          exact ⟨h, errorsIn_ok _⟩
      | error e core' =>
          exact ⟨h, raises_checkYield core e core' hrun⟩
  | forceYield => exact ⟨h, errorsIn_ok _⟩
  | «return» v => exact ⟨h, errorsIn_ok _⟩

omit [Host H] [ForwardingHost H] in
theorem forwarding_leave (core : Core H) {activations : List (Activation H)}
    (h : ScriptEngine.Forwarding activations)
    {exit : Except RuntimeError LoopExit}
    (hexit : ErrorsIn RuntimeError.Proper exit) :
    (leave core activations exit).Forwarding := by
  cases h with
  | nil => exact ⟨.nil, trivial⟩
  | switch r outer hnext h => exact ⟨.switch r outer hnext h, trivial⟩
  | call mark hwaiter h =>
      change (endCall _ _ _ _ _).Forwarding
      unfold endCall
      dsimp only
      split
      · exact ⟨h, hwaiter, errorsIn_ok _⟩
      · exact ⟨h, hwaiter, errorsIn_error rfl⟩
      · next e => exact ⟨h, hwaiter, errorsIn_error (hexit e rfl)⟩
  | body h =>
      change (endBody _ _ _).Forwarding
      unfold endBody
      cases exit <;> exact ⟨h, hexit⟩

omit [Host H] [ForwardingHost H] in
theorem forwarding_answer (core : Core H) {activations : List (Activation H)}
    (h : ScriptEngine.Forwarding activations) {waiter : Waiter H}
    (hwaiter : waiter.Forwards activations) {result : Except RuntimeError Value}
    (hresult : ErrorsIn RuntimeError.Proper result) :
    (answer core activations result waiter).Forwarding := by
  cases waiter with
  | action next => exact ⟨h, hwaiter.imp id fun hnext => hnext.2 result hresult⟩
  | decorated e rest => exact ⟨h, trivial⟩
  | refused e handler flags returnAddress => exact ⟨h, trivial⟩
  | recovered flags returnAddress =>
      cases result with
      | ok v => exact forwarding_exec (Exec.raises_deliver _ _ _) core h
      | error e => exact ⟨h, hresult e rfl⟩
  | caught flags returnAddress =>
      cases result with
      | ok v => exact forwarding_exec (Exec.raises_deliver _ _ _) core h
      | error e => exact ⟨h, hresult e rfl⟩
  | processor => exact ⟨h, hresult.map _⟩

theorem forwarding_resume (core : Core H) {activations : List (Activation H)}
    (h : ScriptEngine.Forwarding activations) (r : CoroutineRef)
    (args : List Value) {next : Except RuntimeError Value → Action H NativeOutcome}
    (hnext : activations = [] ∨ Passes next ∧ ∀ r, (next r).Forwards) :
    (resume core activations r args next).Forwarding := by
  have hrest : ScriptEngine.Forwarding (.switch r core.proc next :: activations) :=
    .switch r _ (hnext.imp id fun hnext => ⟨hnext.1, fun r _ => hnext.2 r⟩) h
  rcases resume_cases core activations r args next with
    ⟨e, -, hresume⟩ | ⟨c, p, -, -, -, -, hresume⟩
  all_goals rw [hresume]
  · exact ⟨h, hnext.imp id fun hnext => hnext.2 _⟩
  · have hroused := roused_runCoroutine (core.world.engage r)
      (.switch r core.proc next :: activations) c p args
    generalize runCoroutine (core.world.engage r) _ c p args = m at hroused ⊢
    cases hroused with
    | native hkind => exact ⟨hrest, trivial⟩
    | first hkind hstate =>
        exact forwarding_exec (Exec.raises_call ForwardingHost.covers.withstands _ _ _ _ _) _
          (.body hrest)
    | lost hkind hstate hyielded => exact ⟨hrest, errorsIn_error rfl⟩
    | yielded frame hkind hstate hyielded => exact ⟨.body hrest, trivial⟩
    | forced hkind hfirst hyielded => exact ⟨.body hrest, trivial⟩

theorem forwarding_act (core : Core H) {activations : List (Activation H)}
    (h : ScriptEngine.Forwarding activations) {a : Action H NativeOutcome}
    (ha : activations = [] ∨ a.Forwards) :
    (act core activations a).Forwarding := by
  cases a with
  | done outcome =>
      cases activations with
      | nil => exact ⟨h, trivial⟩
      | cons top rest =>
          exact forwarding_exec (Exec.raises_completeNative ForwardingHost.covers.withstands _)
            core h
  | fail e =>
      cases activations with
      | nil => exact ⟨h, trivial⟩
      | cons top rest =>
          rcases ha with hnone | hforwards
          · cases hnone
          · cases hforwards with
            | fail he => exact ⟨h, he⟩
  | read next =>
      refine ⟨h, ha.imp id fun hforwards => ?_⟩
      cases hforwards with
      | read hnext => exact hnext _
  | write change next =>
      refine ⟨h, ha.imp id fun hforwards => ?_⟩
      cases hforwards with
      | write _ hnext => exact hnext
  | call function args next =>
      refine ⟨h, ha.imp id fun hforwards => ?_⟩
      cases hforwards with
      | call _ _ hpasses hnext => exact ⟨hpasses, hnext⟩
  | resume r args next =>
      refine forwarding_resume core h r args (ha.imp id fun hforwards => ?_)
      cases hforwards with
      | resume _ _ hpasses hnext => exact ⟨hpasses, hnext⟩
  | enterMain function args next =>
      have hnext : activations = [] ∨
          Passes next ∧ ∀ r, ErrorsIn RuntimeError.Proper r → (next r).Forwards := by
        refine ha.imp id fun hforwards => ?_
        cases hforwards with
        | enterMain _ _ hpasses hnext => exact ⟨hpasses, hnext⟩
      change (enterMain core activations function args next).Forwarding
      rcases enterMain_cases core activations function args next with
        henter | ⟨c, p, -, -, henter⟩
      all_goals rw [henter]
      · exact ⟨h, hnext.imp id fun hnext => hnext.2 _ (errorsIn_error rfl)⟩
      · exact ⟨.switch _ _ hnext h, trivial⟩

omit [Host H] [ForwardingHost H] in
theorem forwarding_switchBack (core : Core H) {activations : List (Activation H)}
    (h : ScriptEngine.Forwarding activations)
    {exit : Except RuntimeError LoopExit}
    (hexit : ErrorsIn RuntimeError.Proper exit) :
    (switchBack core activations exit).Forwarding := by
  cases h with
  | nil => exact ⟨.nil, trivial⟩
  | call mark hwaiter h => exact ⟨.call mark hwaiter h, trivial⟩
  | body h => exact ⟨.body h, trivial⟩
  | switch r outer hnext h =>
      exact ⟨h, hnext.imp id fun hnext => hnext.2 _ (hexit.map _)⟩

theorem Forwarding.next {m : Machine H} (hm : m.Forwarding) :
    m.next.Forwarding := by
  obtain ⟨core, activations, control⟩ := m
  obtain ⟨h, hcontrol⟩ := hm
  cases control with
  | loop o => exact forwarding_afterOutcome core h o
  | failed e =>
      cases e with
      | script e => exact ⟨h, trivial⟩
      | _ => exact ⟨h, errorsIn_error hcontrol⟩
  | unwinding e decorators =>
      cases decorators with
      | cons d rest => exact ⟨h, trivial⟩
      | nil =>
          change (catchError core activations e).Forwarding
          rcases catchError_cases core activations e with
            ⟨frame, handler, n, -, hcaught⟩ | ⟨n, -, hcaught⟩
          all_goals rw [hcaught]
          · exact ⟨h, trivial⟩
          · exact ⟨h, errorsIn_error rfl⟩
  | calling function args waiter =>
      change (beginCall core activations function args waiter).Forwarding
      rcases beginCall_cases core activations function args waiter with hbegin | ⟨-, hbegin⟩
      all_goals rw [hbegin]
      · exact ⟨h, hcontrol, errorsIn_error rfl⟩
      · exact forwarding_exec (Exec.raises_call ForwardingHost.covers.withstands _ _ _ _ _) _
          (.call _ hcontrol h)
  | leaving exit => exact forwarding_leave core h hcontrol
  | answering waiter result => exact forwarding_answer core h hcontrol.1 hcontrol.2
  | switching exit => exact forwarding_switchBack core h hcontrol
  | settling o =>
      cases o with
      | finish frame v =>
          exact forwarding_exec (Exec.raises_finish ForwardingHost.covers.withstands _ _)
            core h
      | _ => exact ⟨h, trivial⟩
  | running a => exact forwarding_act core h hcontrol
  | finished result => exact ⟨h, trivial⟩

theorem Reachable.forwarding {m : Machine H} (h : m.Reachable) : m.Forwarding := by
  induction h with
  | start settings host ha => exact ⟨.nil, Or.inl rfl⟩
  | next h ih => exact ih.next
  | again h hfinished hw ha ih => exact ⟨.nil, Or.inl rfl⟩

end Machine

end ScriptEngine
