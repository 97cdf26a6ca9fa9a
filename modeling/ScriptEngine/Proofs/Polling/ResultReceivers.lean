import ScriptEngine.Proofs.Frame.LoopFrames
import ScriptEngine.Proofs.Polling.Requests

/-!
# Who gets the result of a call

A frame may hand its result to a function of the host before it reaches the
script.  On an engine that runs nothing but its library only the functions that
confirm protected calls are such: this holds of the frames of every processor,
at work, waiting or at rest, and of everything that is still to be called.
-/

namespace ScriptEngine

variable {H : HostTypes} {w w' : World H}

/-- A host that brings no functions of its own along. -/
class LibraryOnly (H : HostTypes) : Prop where
  none : H.Function → False

instance : LibraryOnly HostTypes.alone := ⟨Empty.elim⟩

def Handlers.ConfirmsOnly (w : World H) (h : Handlers) : Prop :=
  ∀ f, h.continuation? = some (.native f) → w.Confirms f

def TailCallRequest.ConfirmsOnly (w : World H) (request : TailCallRequest) : Prop :=
  ∀ f, request.continuation? = some f → w.Confirms f

structure Processor.ConfirmsOnly (w : World H) (p : Processor) : Prop where
  frames : ∀ f ∈ p.frames.items, f.handlers.ConfirmsOnly w
  yielded : ∀ f, p.yielded? = some f → f.handlers.ConfirmsOnly w

def Outcome.ConfirmsOnly (w : World H) : Outcome → Prop
  | .finish frame _ => frame.handlers.ConfirmsOnly w
  | .tailCall request _ _ => request.ConfirmsOnly w
  | _ => True

/-- The action asks only for calls with such handlers and keeps to the library. -/
structure Action.ConfirmsOnly (w : World H) (a : Action H NativeOutcome) : Prop where
  asks : a.Asks (·.ConfirmsOnly w)
  domestic : a.Domestic

/-- What waits for a call within some activations; with none below, the host
itself waits, and it may do as it likes. -/
def Waiter.ConfirmsOnly (w : World H) (activations : List (Activation H)) :
    Waiter H → Prop
  | .action next => activations = [] ∨ ∀ r, (next r).ConfirmsOnly w
  | _ => True

def ConfirmsOnlyOn (w : World H) : List (Activation H) → Prop
  | [] => True
  | .call _ waiter :: rest => waiter.ConfirmsOnly w rest ∧ ConfirmsOnlyOn w rest
  | .body :: rest => ConfirmsOnlyOn w rest
  | .switch _ outer next :: rest =>
      outer.ConfirmsOnly w ∧ (rest = [] ∨ ∀ r, (next r).ConfirmsOnly w) ∧ ConfirmsOnlyOn w rest

def Control.ConfirmsOnly (w : World H) (activations : List (Activation H)) :
    Control H → Prop
  | .loop o => o.ConfirmsOnly w
  | .settling o => o.ConfirmsOnly w
  | .calling _ _ waiter => waiter.ConfirmsOnly w activations
  | .answering waiter _ => waiter.ConfirmsOnly w activations
  | .running a => activations = [] ∨ a.ConfirmsOnly w
  | _ => True

/-- The processors at rest. -/
def World.ConfirmsOnly (w : World H) : Prop :=
  ∀ r c p, w.coroutine? r = some c → c.processor? = some p → p.ConfirmsOnly w

/-- No function has yielded. -/
theorem Processor.confirmsOnly_of_frames {p : Processor}
    (hp : ∀ f ∈ p.frames.items, f.handlers.ConfirmsOnly w) (hyielded : p.yielded? = none) :
    p.ConfirmsOnly w := by
  refine ⟨hp, fun f hf => ?_⟩
  rw [hyielded] at hf
  cases hf

/-! ## Later worlds -/

theorem Handlers.ConfirmsOnly.of_retains {h : Handlers} (hh : h.ConfirmsOnly w)
    (hw : w.Retains w') : h.ConfirmsOnly w' := by
  intro f hf
  exact hw.confirms (hh f hf)

theorem Processor.ConfirmsOnly.of_retains {p : Processor} (h : p.ConfirmsOnly w)
    (hw : w.Retains w') : p.ConfirmsOnly w' := by
  constructor
  · intro f hf
    exact (h.frames f hf).of_retains hw
  · intro f hf
    exact (h.yielded f hf).of_retains hw

theorem TailCallRequest.ConfirmsOnly.of_retains {request : TailCallRequest}
    (h : request.ConfirmsOnly w) (hw : w.Retains w') : request.ConfirmsOnly w' := by
  intro f hf
  exact hw.confirms (h f hf)

theorem Outcome.ConfirmsOnly.of_retains {o : Outcome} (h : o.ConfirmsOnly w)
    (hw : w.Retains w') : o.ConfirmsOnly w' := by
  cases o with
  | finish frame v => exact Handlers.ConfirmsOnly.of_retains h hw
  | tailCall request flags returnAddress =>
      exact TailCallRequest.ConfirmsOnly.of_retains h hw
  | _ => trivial

theorem Action.ConfirmsOnly.of_retains {a : Action H NativeOutcome} (h : a.ConfirmsOnly w)
    (hw : w.Retains w') : a.ConfirmsOnly w' := by
  refine ⟨h.asks.imp fun outcome houtcome => ?_, h.domestic⟩
  cases outcome with
  | tailCall request => exact TailCallRequest.ConfirmsOnly.of_retains houtcome hw
  | _ => trivial

theorem Waiter.ConfirmsOnly.of_retains {activations : List (Activation H)}
    {waiter : Waiter H} (h : waiter.ConfirmsOnly w activations) (hw : w.Retains w') :
    waiter.ConfirmsOnly w' activations := by
  cases waiter with
  | action next => exact h.imp_right fun h r => (h r).of_retains hw
  | _ => trivial

theorem ConfirmsOnlyOn.of_retains {activations : List (Activation H)}
    (h : ConfirmsOnlyOn w activations) (hw : w.Retains w') :
    ConfirmsOnlyOn w' activations := by
  induction activations with
  | nil => trivial
  | cons a rest ih =>
      cases a with
      | call mark waiter => exact ⟨h.1.of_retains hw, ih h.2⟩
      | body => exact ih h
      | switch r outer next =>
          exact ⟨h.1.of_retains hw,
            h.2.1.imp_right fun h r => (h r).of_retains hw, ih h.2.2⟩

/-! ## Processors at rest -/

namespace World

theorem confirmsOnly_fresh {p : Processor} (hfresh : p.Fresh) : p.ConfirmsOnly w := by
  refine Processor.confirmsOnly_of_frames ?_ hfresh.yielded
  rw [hfresh.frames]
  intro f hf
  cases hf

theorem confirmsOnly_alike {p p' : Processor} (halike : p.Alike p') (h : p.ConfirmsOnly w) :
    p'.ConfirmsOnly w := by
  refine ⟨?_, ?_⟩
  · rw [halike.frames]
    exact h.frames
  · rw [halike.yielded]
    exact h.yielded

theorem ConfirmsOnly.of_extends (hw : w.ConfirmsOnly) (h : w.Extends w') : w'.ConfirmsOnly :=
  Resting.of_extends (Q := fun _ p => p.ConfirmsOnly w) hw h
    (fun halike hp => confirmsOnly_alike halike (hp.of_retains h.retains)) confirmsOnly_fresh

theorem ConfirmsOnly.engage (hw : w.ConfirmsOnly) {r : CoroutineRef} {c : Coroutine}
    (hc : w.coroutine? r = some c) (hretains : w.Retains (w.engage r)) :
    (w.engage r).ConfirmsOnly :=
  Resting.engage (Q := fun _ p => p.ConfirmsOnly w) hw hc (·.of_retains hretains)

theorem ConfirmsOnly.release (hw : w.ConfirmsOnly) {r : CoroutineRef} {c : Coroutine}
    (hc : w.coroutine? r = some c) {p : Processor} (hp : p.ConfirmsOnly w)
    {exit : Except RuntimeError LoopExit} (hretains : w.Retains (w.release r p exit)) :
    (w.release r p exit).ConfirmsOnly :=
  Resting.release (Q := fun _ p => p.ConfirmsOnly w) hw hc (·.of_retains hretains)
    (hp.of_retains hretains)

end World

/-! ## Programs -/

namespace Exec

def ResultConfirmsOnly (w : World H) :
    EStateM.Result RuntimeError (Core H) Outcome → Prop
  | .ok o c => c.proc.ConfirmsOnly w ∧ o.ConfirmsOnly w
  | .error _ c => c.proc.ConfirmsOnly w

variable {c : Core H} {r : EStateM.Result RuntimeError (Core H) Outcome}

theorem confirmsOnly_push {p : Processor} (h : p.ConfirmsOnly w) {frame : Frame}
    (hframe : frame.handlers.ConfirmsOnly w) {p' : Processor}
    (hframes : p'.frames.items = frame :: p.frames.items)
    (hyielded : p'.yielded? = p.yielded?) : p'.ConfirmsOnly w := by
  refine ⟨?_, ?_⟩
  · rw [hframes]
    exact List.forall_mem_cons.mpr ⟨hframe, h.frames⟩
  · rw [hyielded]
    exact h.yielded

theorem confirmsOnly_top {p : Processor} (h : p.ConfirmsOnly w) {frame : Frame}
    {rest : Stack Frame} (hframes : p.frames = rest.push frame) :
    frame.handlers.ConfirmsOnly w := by
  refine h.frames frame ?_
  rw [hframes]
  exact List.mem_cons_self

/-- The frames that are left hand their results to no other functions. -/
theorem confirmsOnly_rest {p : Processor} (h : p.ConfirmsOnly w) {frame : Frame}
    {rest : Stack Frame} (hframes : p.frames = rest.push frame) {s : Stack Value} :
    Processor.ConfirmsOnly w { p with frames := rest, stack := s } := by
  refine ⟨fun f hf => h.frames f ?_, h.yielded⟩
  rw [hframes]
  exact List.mem_cons_of_mem frame hf

theorem Called.confirmsOnly {flags : FrameFlags} {returnAddress : Nat}
    {handlers : Handlers} (h : Called c flags returnAddress handlers r)
    (hp : c.proc.ConfirmsOnly w) (hhandlers : handlers.ConfirmsOnly w) :
    ResultConfirmsOnly w r := by
  cases h with
  | failed e h => exact hp
  | recovered e handler h => exact ⟨hp, trivial⟩
  | entered f args hdepth => exact ⟨confirmsOnly_push hp hhandlers rfl rfl, trivial⟩
  | invoked f args hdepth => exact ⟨confirmsOnly_push hp hhandlers rfl rfl, trivial⟩

theorem Delivered.confirmsOnly {flags : FrameFlags} {returnAddress : Nat}
    {v? : Option Value} (h : Delivered c flags returnAddress v? r)
    (hp : c.proc.ConfirmsOnly w) : ResultConfirmsOnly w r := by
  cases h with
  | returned hentry => exact ⟨hp, trivial⟩
  | awaited hentry top rest hframes hawaiting =>
      exact ⟨confirmsOnly_rest hp hframes, confirmsOnly_top hp hframes⟩
  | bottom hentry hframes => exact ⟨⟨hp.frames, hp.yielded⟩, trivial⟩
  | resumed hentry top hframes hawaiting =>
      exact ⟨⟨hp.frames, hp.yielded⟩, trivial⟩

theorem Finished.confirmsOnly {frame : Frame} {v : Value} (h : Finished c frame v r)
    (hp : c.proc.ConfirmsOnly w) : ResultConfirmsOnly w r := by
  cases h with
  | delivered v? hpost h => exact h.confirmsOnly hp
  | continued f h => exact ⟨hp, nofun⟩
  | notNumber h hv => exact hp

theorem Carried.confirmsOnly (h : Carried c r) (hp : c.proc.ConfirmsOnly w) :
    ResultConfirmsOnly w r := by
  cases h with
  | stepMatches => exact ⟨hp, trivial⟩
  | calls flags hentry handlers hhandlers h hscript =>
      exact h.confirmsOnly hp fun f hf => absurd hf (hscript f)
  | replaces caller rest hframes hcan flags hentry h =>
      exact h.confirmsOnly (confirmsOnly_rest hp hframes) nofun
  | returns frame rest hframes v h =>
      exact h.confirmsOnly (confirmsOnly_rest hp hframes)
  | lost reason => exact hp

theorem Completed.confirmsOnly {outcome : NativeOutcome} (h : Completed c outcome r)
    (hp : c.proc.ConfirmsOnly w) (houtcome : outcome.Asks (·.ConfirmsOnly w)) :
    ResultConfirmsOnly w r := by
  cases h with
  | lost outcome h => exact hp
  | returns frame rest hframes v h =>
      exact h.confirmsOnly (confirmsOnly_rest hp hframes)
  | yields frame rest hframes v =>
      have hrest := confirmsOnly_rest hp hframes (s := c.proc.stack)
      refine ⟨⟨hrest.frames, ?_⟩, trivial⟩
      intro f hf
      cases hf
      exact confirmsOnly_top hp hframes
  | replaced frame rest hframes hhandlers request =>
      exact ⟨confirmsOnly_rest hp hframes, houtcome⟩
  | waits frame rest hframes hhandlers request =>
      have hrest := confirmsOnly_rest hp hframes (s := c.proc.stack)
      have hframe := confirmsOnly_top hp hframes
      have hwaiting : Handlers.ConfirmsOnly w ({ frame with
          flags := { frame.flags with awaiting := true } } : Frame).handlers := hframe
      exact ⟨confirmsOnly_push hrest hwaiting rfl rfl, houtcome⟩

theorem confirmsOnly_plain {c' : Core H} (h : c.Plain c') (hp : c.proc.ConfirmsOnly w) :
    c'.proc.ConfirmsOnly w := by
  refine ⟨?_, ?_⟩
  · have halike := h.frames
    have hall := hp.frames
    revert hall
    generalize c.proc.frames.items = frames at halike
    generalize c'.proc.frames.items = frames' at halike
    intro hall
    cases halike with
    | nil => exact hall
    | @cons f f' hsame rest =>
        obtain ⟨hf, hrest⟩ := List.forall_mem_cons.mp hall
        rw [← hsame.handlers] at hf
        exact List.forall_mem_cons.mpr ⟨hf, hrest⟩
  · rw [h.yielded]
    exact hp.yielded

theorem step_confirmsOnly [HostObjects H] (c : Core H) (hp : c.proc.ConfirmsOnly w) :
    ResultConfirmsOnly w (step c) := by
  rcases step_cases c with ⟨e, c', hrun, hplain⟩ | ⟨c', hplain, hcarried⟩
  · rw [hrun]
    exact confirmsOnly_plain hplain hp
  · exact hcarried.confirmsOnly (confirmsOnly_plain hplain hp)

end Exec

/-! ## Machines -/

namespace Machine

/-- The machine as far as the processor at hand and those that wait for it are
concerned. -/
structure LoopsConfirmOnly (w : World H) (m : Machine H) : Prop where
  proc : m.core.proc.ConfirmsOnly w
  activations : ConfirmsOnlyOn w m.activations
  control : m.control.ConfirmsOnly w m.activations

structure ConfirmsOnly (m : Machine H) : Prop where
  world : m.core.world.ConfirmsOnly
  loopsConfirmOnly : m.LoopsConfirmOnly m.core.world

variable {core : Core H} {activations : List (Activation H)}

theorem LoopsConfirmOnly.of_retains {m : Machine H} (h : m.LoopsConfirmOnly w) (hw : w.Retains w') :
    m.LoopsConfirmOnly w' := by
  refine ⟨h.proc.of_retains hw, h.activations.of_retains hw, ?_⟩
  have hcontrol := h.control
  cases hkind : m.control with
  | loop o =>
      rw [hkind] at hcontrol
      exact Outcome.ConfirmsOnly.of_retains hcontrol hw
  | settling o =>
      rw [hkind] at hcontrol
      exact Outcome.ConfirmsOnly.of_retains hcontrol hw
  | calling function args waiter =>
      rw [hkind] at hcontrol
      exact Waiter.ConfirmsOnly.of_retains hcontrol hw
  | answering waiter result =>
      rw [hkind] at hcontrol
      exact Waiter.ConfirmsOnly.of_retains hcontrol hw
  | running a =>
      rw [hkind] at hcontrol
      exact hcontrol.imp_right fun h => h.of_retains hw
  | _ => trivial

theorem loopsConfirmOnly_exec {route : Route} {x : Exec H Outcome}
    (h : ConfirmsOnlyOn w activations) (hx : Exec.ResultConfirmsOnly w (x core)) :
    (exec route x core activations).LoopsConfirmOnly w := by
  unfold exec
  cases hrun : x core with
  | ok o core' =>
      rw [hrun] at hx
      cases route <;> exact ⟨hx.1, h, hx.2⟩
  | error e core' =>
      rw [hrun] at hx
      cases route <;> exact ⟨hx, h, trivial⟩

theorem confirmsOnly_of_same {p p' : Processor} (h : p.ConfirmsOnly w)
    (hframes : p'.frames = p.frames) (hyielded : p'.yielded? = p.yielded?) :
    p'.ConfirmsOnly w := by
  constructor
  · rw [hframes]
    exact h.frames
  · rw [hyielded]
    exact h.yielded

theorem confirmsOnly_truncate {p p' : Processor} (h : p.ConfirmsOnly w) {height : Nat}
    (hframes : p'.frames = p.frames.truncate height)
    (hyielded : p'.yielded? = p.yielded?) : p'.ConfirmsOnly w := by
  refine ⟨?_, hyielded ▸ h.yielded⟩
  rw [hframes]
  exact fun f hf => h.frames f (List.mem_of_mem_drop hf)

theorem confirmsOnly_request {request : TailCallRequest} (h : request.ConfirmsOnly w) :
    Handlers.ConfirmsOnly w
      { continuation? := request.continuation?.map .native
        errorHandler? := request.errorHandler?
        beforeUnwind? := request.beforeUnwind? } := by
  intro f hf
  obtain ⟨g, hg, hsame⟩ := Option.map_eq_some_iff.mp hf
  cases hsame
  exact h _ hg

variable [Host H]

theorem poll_confirmsOnly (hp : core.proc.ConfirmsOnly w) :
    Exec.ResultConfirmsOnly w (Exec.poll core) := by
  have hcounted : (counted core).proc.ConfirmsOnly w := by
    unfold counted
    rw [countInstruction_eq]
    exact ⟨hp.frames, hp.yielded⟩
  rcases poll_cases core with hrun | hrun | hrun
  · rw [hrun]
    exact hp
  · rw [hrun]
    exact ⟨hcounted, trivial⟩
  · rw [hrun]
    exact Exec.step_confirmsOnly _ hcounted

/-- Whatever is invoked asks only for calls with such handlers. -/
theorem confirmsOnly_invoke [LibraryOnly H] (core : Core H) (f : NativeRef)
    (args : Arguments) : (core.invoke f args).ConfirmsOnly core.world := by
  rcases core.invoke_cases f args with
    hinvoke | ⟨native, g, hnative, hbody, hinvoke⟩ | ⟨native, g, -, -, -⟩
  · rw [hinvoke]
    exact ⟨trivial, trivial⟩
  · rw [hinvoke]
    refine ⟨(g.ends_action _ args).imp fun outcome houtcome => ?_, g.domestic_action _ args⟩
    cases outcome with
    | tailCall request =>
        cases g with
        | pcall ok failed =>
            intro confirm hconfirm
            rw [show request.continuation? = some ok from houtcome] at hconfirm
            cases hconfirm
            exact ⟨f, native, failed, hnative, Or.inl hbody⟩
        | xpcall ok failed =>
            intro confirm hconfirm
            rw [show request.continuation? = some ok from houtcome] at hconfirm
            cases hconfirm
            exact ⟨f, native, failed, hnative, Or.inr hbody⟩
        | pairs nextEntry =>
            obtain ⟨definition, values, rfl⟩ := houtcome
            exact nofun
        | _ => exact False.elim houtcome
    | _ => trivial
  · exact (LibraryOnly.none g).elim

theorem loopsConfirmOnly_afterOutcome [LibraryOnly H] {o : Outcome}
    (hp : core.proc.ConfirmsOnly core.world) (h : ConfirmsOnlyOn core.world activations)
    (ho : o.ConfirmsOnly core.world) :
    (afterOutcome core activations o).LoopsConfirmOnly core.world := by
  cases o with
  | proceed => exact loopsConfirmOnly_exec h (poll_confirmsOnly hp)
  | finish frame v =>
      exact loopsConfirmOnly_exec h ((Exec.finished_finish frame v core).confirmsOnly hp)
  | invoke f args => exact ⟨hp, h, Or.inr (confirmsOnly_invoke core f args)⟩
  | recover e decorator? handler flags returnAddress =>
      cases decorator? <;> exact ⟨hp, h, trivial⟩
  | tailCall request flags returnAddress =>
      exact loopsConfirmOnly_exec h
        ((Exec.called_call _ _ _ _ _ core).confirmsOnly hp (confirmsOnly_request ho))
  | yield v =>
      unfold afterOutcome
      rcases checkYield_cases core with hrun | ⟨violation, hrun⟩
      · rw [hrun]
        exact ⟨hp, h, trivial⟩
      · rw [hrun]
        exact ⟨Processor.confirmsOnly_of_frames hp.frames rfl, h, trivial⟩
  | forceYield => exact ⟨hp, h, trivial⟩
  | «return» v => exact ⟨hp, h, trivial⟩

theorem loopsConfirmOnly_beginCall (function : Value) (args : List Value) {waiter : Waiter H}
    (hp : core.proc.ConfirmsOnly w) (h : ConfirmsOnlyOn w activations)
    (hwaiter : waiter.ConfirmsOnly w activations) :
    (beginCall core activations function args waiter).LoopsConfirmOnly w := by
  rcases beginCall_cases core activations function args waiter with hbegin | ⟨-, hbegin⟩
  all_goals rw [hbegin]
  · exact ⟨hp, h, hwaiter⟩
  · refine loopsConfirmOnly_exec ⟨hwaiter, h⟩ ?_
    refine (Exec.called_call function args { entryPoint := true } core.proc.ip {}
      core.nested).confirmsOnly ?_ nofun
    exact confirmsOnly_of_same hp rfl rfl

omit [Host H] in
theorem loopsConfirmOnly_leave (exit : Except RuntimeError LoopExit)
    (hp : core.proc.ConfirmsOnly w) (h : ConfirmsOnlyOn w activations) :
    (leave core activations exit).LoopsConfirmOnly w := by
  unfold leave
  split
  · unfold endCall
    rcases exit with e | exit
    · exact ⟨confirmsOnly_truncate hp rfl rfl, h.2, h.1⟩
    · cases exit with
      | returned v => exact ⟨confirmsOnly_of_same hp rfl rfl, h.2, h.1⟩
      | yielded v => exact ⟨confirmsOnly_truncate hp rfl rfl, h.2, h.1⟩
      | forceYielded => exact ⟨confirmsOnly_truncate hp rfl rfl, h.2, h.1⟩
  · unfold endBody
    cases exit with
    | ok exit => exact ⟨confirmsOnly_of_same hp rfl rfl, h, trivial⟩
    | error e =>
        refine ⟨Processor.confirmsOnly_of_frames ?_ rfl, h, trivial⟩
        intro f hf
        cases hf
  · exact ⟨hp, h, trivial⟩

omit [Host H] in
theorem loopsConfirmOnly_answer {waiter : Waiter H} (result : Except RuntimeError Value)
    (hp : core.proc.ConfirmsOnly w) (h : ConfirmsOnlyOn w activations)
    (hwaiter : waiter.ConfirmsOnly w activations) :
    (answer core activations result waiter).LoopsConfirmOnly w := by
  cases waiter with
  | action next => exact ⟨hp, h, hwaiter.imp_right fun hnext => hnext result⟩
  | decorated e rest => exact ⟨hp, h, trivial⟩
  | refused e handler flags returnAddress => exact ⟨hp, h, trivial⟩
  | recovered flags returnAddress =>
      cases result with
      | ok v =>
          exact loopsConfirmOnly_exec h
            ((Exec.delivered_deliver flags returnAddress (some v) core).confirmsOnly hp)
      | error e => exact ⟨hp, h, trivial⟩
  | caught flags returnAddress =>
      cases result with
      | ok v =>
          exact loopsConfirmOnly_exec h
            ((Exec.delivered_deliver flags returnAddress (some v) core).confirmsOnly hp)
      | error e => exact ⟨hp, h, trivial⟩
  | processor => exact ⟨hp, h, trivial⟩

omit [Host H] in
theorem loopsConfirmOnly_settle {o : Outcome} (hp : core.proc.ConfirmsOnly w)
    (h : ConfirmsOnlyOn w activations) (ho : o.ConfirmsOnly w) :
    (settle core activations o).LoopsConfirmOnly w := by
  cases o with
  | finish frame v =>
      exact loopsConfirmOnly_exec h ((Exec.finished_finish frame v core).confirmsOnly hp)
  | _ => exact ⟨hp, h, ho⟩

omit [Host H] in
theorem loopsConfirmOnly_afterFailure (e : RuntimeError) (hp : core.proc.ConfirmsOnly w)
    (h : ConfirmsOnlyOn w activations) : (afterFailure core activations e).LoopsConfirmOnly w := by
  cases e with
  | script e => exact ⟨hp, h, trivial⟩
  | _ => exact ⟨confirmsOnly_truncate hp rfl rfl, h, trivial⟩

omit [Host H] in
theorem loopsConfirmOnly_catchError (e : ScriptError) (hp : core.proc.ConfirmsOnly w)
    (h : ConfirmsOnlyOn w activations) : (catchError core activations e).LoopsConfirmOnly w := by
  rcases catchError_cases core activations e with
    ⟨frame, handler, n, -, hcaught⟩ | ⟨n, -, hcaught⟩
  all_goals
    rw [hcaught]
    exact ⟨confirmsOnly_truncate hp rfl rfl, h, trivial⟩

/-! ## Switches -/

/-- A processor that rested is taken up. -/
theorem loopsConfirmOnly_runCoroutine {world : World H} {c : Coroutine} {p : Processor}
    (args : List Value) (hp : p.ConfirmsOnly w) (h : ConfirmsOnlyOn w activations) :
    (runCoroutine world activations c p args).LoopsConfirmOnly w := by
  have henter : p.enterOutermost.ConfirmsOnly w := confirmsOnly_of_same hp rfl rfl
  have hroused := roused_runCoroutine world activations c p args
  generalize runCoroutine world activations c p args = m at hroused ⊢
  cases hroused with
  | native hkind => exact ⟨hp, h, trivial⟩
  | first hkind hstate =>
      refine loopsConfirmOnly_exec h ?_
      exact (Exec.called_call c.entry args { entryPoint := true } 0 {}
        (⟨world, p.enterOutermost⟩ : Core H)).confirmsOnly henter nofun
  | lost hkind hstate hyielded => exact ⟨hp, h, trivial⟩
  | yielded frame hkind hstate hyielded =>
      refine ⟨?_, h, hp.yielded frame hyielded⟩
      exact Processor.confirmsOnly_of_frames henter.frames rfl
  | forced hkind hfirst hyielded => exact ⟨henter, h, trivial⟩

theorem loopsConfirmOnly_resume (r : CoroutineRef) (args : List Value)
    {next : Except RuntimeError Value → Action H NativeOutcome}
    (hworld : core.world.ConfirmsOnly) (hp : core.proc.ConfirmsOnly core.world)
    (h : ConfirmsOnlyOn core.world activations)
    (hnext : activations = [] ∨ ∀ r, (next r).ConfirmsOnly core.world) :
    (resume core activations r args next).LoopsConfirmOnly core.world := by
  rcases resume_cases core activations r args next with
    ⟨e, -, hresume⟩ | ⟨c, q, hc, hq, -, -, hresume⟩
  all_goals rw [hresume]
  · exact ⟨hp, h, hnext.imp_right fun hnext => hnext _⟩
  · have hactivations : ConfirmsOnlyOn core.world (.switch r core.proc next :: activations) :=
      ⟨hp, hnext, h⟩
    exact loopsConfirmOnly_runCoroutine args (hworld r c q hc hq) hactivations

omit [Host H] in
theorem loopsConfirmOnly_enterMain (function : Value) (args : List Value)
    {next : Except RuntimeError Value → Action H NativeOutcome}
    (hworld : core.world.ConfirmsOnly) (hp : core.proc.ConfirmsOnly core.world)
    (h : ConfirmsOnlyOn core.world activations)
    (hnext : activations = [] ∨ ∀ r, (next r).ConfirmsOnly core.world) :
    (enterMain core activations function args next).LoopsConfirmOnly core.world := by
  rcases enterMain_cases core activations function args next with
    henter | ⟨c, q, hc, hq, henter⟩
  all_goals rw [henter]
  · exact ⟨hp, h, hnext.imp_right fun hnext => hnext _⟩
  · exact ⟨hworld _ c q hc hq, ⟨hp, hnext, h⟩, trivial⟩

theorem loopsConfirmOnly_act {a : Action H NativeOutcome} (hworld : core.world.ConfirmsOnly)
    (hp : core.proc.ConfirmsOnly core.world) (h : ConfirmsOnlyOn core.world activations)
    (ha : activations = [] ∨ a.ConfirmsOnly core.world) :
    (act core activations a).LoopsConfirmOnly core.world := by
  cases a with
  | done outcome =>
      cases activations with
      | nil => exact ⟨hp, h, trivial⟩
      | cons top rest =>
          have houtcome := (ha.resolve_left (List.cons_ne_nil _ _)).asks
          exact loopsConfirmOnly_exec h
            ((Exec.completed_completeNative outcome core).confirmsOnly hp houtcome)
  | fail e =>
      cases activations with
      | nil => exact ⟨hp, h, trivial⟩
      | cons top rest => exact ⟨hp, h, trivial⟩
  | read next =>
      exact ⟨hp, h, ha.imp_right fun ha => ⟨ha.asks core.world, ha.domestic core.world⟩⟩
  | write change next =>
      exact ⟨hp, h, ha.imp_right fun ha => ⟨ha.asks, ha.domestic.2⟩⟩
  | call function args next =>
      exact ⟨hp, h, ha.imp_right fun ha r => ⟨ha.asks r, ha.domestic r⟩⟩
  | resume r args next =>
      exact loopsConfirmOnly_resume r args hworld hp h
        (ha.imp_right fun ha r => ⟨ha.asks r, ha.domestic r⟩)
  | enterMain function args next =>
      exact loopsConfirmOnly_enterMain function args hworld hp h
        (ha.imp_right fun ha => False.elim ha.domestic)

/-! ## Steps -/

variable {m m' : Machine H}

theorem loopsConfirmOnly_next [LibraryOnly H] (hm : m.WellNested) (h : m.ConfirmsOnly) :
    m.next.LoopsConfirmOnly m.core.world := by
  obtain ⟨core, activations, control⟩ := m
  have hfits := hm.control
  obtain ⟨hworld, hp, hactivations, hcontrol⟩ := h
  cases control with
  | loop o => exact loopsConfirmOnly_afterOutcome hp hactivations hcontrol
  | failed e => exact loopsConfirmOnly_afterFailure e hp hactivations
  | unwinding e decorators =>
      cases decorators with
      | nil => exact loopsConfirmOnly_catchError e hp hactivations
      | cons d rest => exact ⟨hp, hactivations, trivial⟩
  | calling function args waiter =>
      exact loopsConfirmOnly_beginCall function args hp hactivations hcontrol
  | leaving exit => exact loopsConfirmOnly_leave exit hp hactivations
  | answering waiter result => exact loopsConfirmOnly_answer result hp hactivations hcontrol
  | switching exit =>
      obtain ⟨r, outer, next, rest, rfl, -⟩ := hfits
      exact ⟨hactivations.1, hactivations.2.2,
        hactivations.2.1.imp_right fun hnext => hnext _⟩
  | running a => exact loopsConfirmOnly_act hworld hp hactivations hcontrol
  | settling o => exact loopsConfirmOnly_settle hp hactivations hcontrol
  | finished result => exact ⟨hp, hactivations, hcontrol⟩

omit [Host H] in
theorem Turn.confirmsOnly (h : Turn m m') (hm : m.WellNested) (hconfirms : m.ConfirmsOnly) :
    m'.core.world.ConfirmsOnly := by
  have hretains := h.retains
  cases h with
  | stays hworld h => exact hconfirms.world.of_extends hworld
  | enters hworld mark waiter h => exact hconfirms.world.of_extends hworld
  | leaves hworld a ha h =>
      rw [hworld]
      exact hconfirms.world
  | engages r c hready p hp hproc next hworld loops hloops h hfrom =>
      rw [hworld] at hretains ⊢
      exact hconfirms.world.engage hready.found hretains
  | releases r next exit hexit hworld h hcontrol =>
      have hr : r ∈ m.core.world.inFlight := by
        rw [hm.inFlight, h]
        exact List.mem_cons_self
      obtain ⟨c, hc⟩ := hm.scheduled.present r hr
      rw [hworld] at hretains ⊢
      exact hconfirms.world.release hc hconfirms.loopsConfirmOnly.proc hretains

theorem ConfirmsOnly.next [LibraryOnly H] (h : m.ConfirmsOnly) (hm : m.WellNested) :
    m.next.ConfirmsOnly := by
  have hturn := turn_next hm.control
  exact ⟨hturn.confirmsOnly hm h, (loopsConfirmOnly_next hm h).of_retains hturn.retains⟩

omit [Host H] in
theorem confirmsOnly_start {w : World H} (hw : w.ConfirmsOnly) (a : Action H NativeOutcome) :
    (start w a).ConfirmsOnly := by
  refine ⟨hw, Processor.confirmsOnly_of_frames ?_ rfl, trivial, Or.inl rfl⟩
  intro f hf
  cases hf

omit [Host H] in
theorem confirmsOnly_startWorld (settings : Settings) (host : H.State) :
    (World.start settings host).ConfirmsOnly := by
  refine World.resting_start (Q := fun _ p => p.ConfirmsOnly (World.start settings host)) ?_
    World.confirmsOnly_alike World.confirmsOnly_fresh settings host
  exact World.confirmsOnly_fresh ⟨rfl, rfl, rfl, rfl⟩

theorem Reachable.confirmsOnly [LawfulHost H] [LibraryOnly H] (h : m.Reachable) :
    m.ConfirmsOnly := by
  induction h with
  | start settings host ha => exact confirmsOnly_start (confirmsOnly_startWorld _ _) _
  | next h ih => exact ih.next h.wellNested
  | again h hfinished hw ha ih => exact confirmsOnly_start (ih.world.of_extends hw) _

end Machine

end ScriptEngine
