import ScriptEngine.Proofs.Coroutine.History
import ScriptEngine.Proofs.Frame.Suspension

/-!
# What a protected call gives

The library's function for protected calls makes way for the call it is asked
for, with a guard on its frame.  When an error has come to the guard, the
library's handler answers it, and the answer becomes the result of the call, with
everything below the call as it was.
-/

namespace ScriptEngine

variable {H : HostTypes}

/-! ## The answer of the library -/

theorem toScalar_head_spliceLast (values : List Value) :
    ((Value.spliceLast values)[0]?.getD Value.void).toScalar =
      (Value.tuple values).toScalar := by
  match values with
  | [] => rfl
  | [v] =>
      cases v with
      | tuple items => cases items <;> rfl
      | _ => rfl
  | v :: w :: rest => simp [Value.spliceLast, Value.toScalar]

/-- A function that is called with one value sees the scalar of it first. -/
theorem toStorable_get_ofValues (v : Value) (methodCall : Bool) :
    ((Arguments.ofValues (flattenArgs [v]) methodCall).get 0).toStorable =
      v.toStorable := by
  have hscalar : ((Arguments.ofValues (flattenArgs [v]) methodCall).get
      0).toScalar = v.toScalar := by
    refine (toScalar_head_spliceLast (flattenArgs [v])).trans ?_
    cases v <;> rfl
  unfold Value.toStorable
  rw [hscalar]

namespace Exec

variable {c : Core H}

theorem deliver_congr {flags flags' : FrameFlags} (returnAddress : Nat)
    (v? : Option Value) (h : flags'.entryPoint = flags.entryPoint) :
    (deliver flags' returnAddress v? : Exec H Outcome) =
      deliver flags returnAddress v? := by
  unfold deliver
  rw [h]

/-- Only the call matters for what becomes of its result. -/
theorem finish_congr {f f' : Frame} (h : f.StandsFor f') (v : Value) :
    (finish f' v : Exec H Outcome) = finish f v := by
  unfold finish
  rw [h.handlers, h.returnAddress, h.entryPoint]
  cases f.handlers.continuation? with
  | none => exact deliver_congr _ _ h.entryPoint
  | some continuation =>
      cases continuation with
      | native f => rfl
      | post p => simp only [deliver_congr _ _ h.entryPoint]

theorem call_native_run [HostObjects H] (f : NativeRef) (args : List Value)
    (flags : FrameFlags) (returnAddress : Nat) (handlers : Handlers)
    (hdepth : c.proc.frames.height < c.world.settings.maxCallDepth) :
    call (.native f) args flags returnAddress handlers c =
      .ok (.invoke f (.ofValues (flattenArgs args) flags.methodCall))
        { c with
          proc := c.proc.pushFrame
            { callee := .native f, base := c.proc.stack.height, returnAddress
              flags, handlers } } := by
  have hcallee : c.world.callee maxCallHops (Value.native f).toScalar
      (flattenArgs args) = .ok (.native f, flattenArgs args) := rfl
  rw [call, run_bind_of_ok (ask_run _ c), hcallee]
  dsimp only
  rw [enter, run_bind_of_ok (askProc_run _ c), run_bind_of_ok (ask_run _ c),
    if_neg (Nat.not_le_of_lt hdepth)]
  rfl

/-- The result of a function without handlers goes to whoever waits for it. -/
theorem completeNative_bare_run {frame : Frame} {rest : Stack Frame}
    (hpush : c.proc.frames = rest.push frame) (hhandlers : frame.handlers = {})
    (v : Value) :
    completeNative (.result v) c =
      deliver frame.flags frame.returnAddress (some v)
        { c with proc := { c.proc with frames := rest } } := by
  unfold completeNative
  rw [run_bind_of_ok (popFrame?_run_push hpush)]
  dsimp only
  unfold finish
  rw [hhandlers]

end Exec

namespace Core

/-- The core with the frame of a host function that is called without handlers. -/
def entered (core : Core H) (f : NativeRef) (flags : FrameFlags) (returnAddress : Nat) :
    Core H :=
  ⟨core.world, core.proc.pushFrame
    { callee := .native f, base := core.proc.stack.height, returnAddress, flags }⟩

/-- The core once that frame is gone again. -/
def relieved (core : Core H) : Core H :=
  ⟨core.world, { core.proc with
    peakFrames := max core.proc.peakFrames (core.proc.frames.height + 1) }⟩

end Core

/-- If a call begins now, it is one of this function. -/
def Control.CallsOnly (f : NativeRef) (control : Control H) : Prop :=
  ∀ function args waiter, control = .calling function args waiter →
    function = .native f

theorem Control.callsOnly_of_ne {f : NativeRef} {control : Control H}
    (h : ∀ function args waiter, control ≠ .calling function args waiter) :
    control.CallsOnly f := by
  intro function args waiter hcontrol
  exact absurd hcontrol (h function args waiter)

namespace Machine

/-- No call but of this function begins in the next steps. -/
def CallsOnly [Host H] (f : NativeRef) (m : Machine H) (n : Nat) : Prop :=
  ∀ i < n, (m.after i).control.CallsOnly f

section

variable [Host H] {f : NativeRef} {m : Machine H} {a b : Nat}

theorem callsOnly_zero : m.CallsOnly f 0 := by
  intro _ hi
  exact absurd hi (Nat.not_lt_zero _)

theorem CallsOnly.succ (h : m.CallsOnly f a)
    (hlast : (m.after a).control.CallsOnly f) : m.CallsOnly f (a + 1) := by
  intro i hi
  rcases Nat.lt_succ_iff_lt_or_eq.mp hi with hi | rfl
  · exact h i hi
  · exact hlast

theorem CallsOnly.add (h : m.CallsOnly f a) (h' : (m.after a).CallsOnly f b) :
    m.CallsOnly f (a + b) := by
  intro i hi
  by_cases hfirst : i < a
  · exact h i hfirst
  · obtain ⟨j, rfl⟩ := Nat.exists_eq_add_of_le (Nat.le_of_not_lt hfirst)
    rw [after_add]
    exact h' j (by omega)

end

/-! ## Functions that answer at once -/

section

variable [Host H] {core : Core H} {f : NativeRef} {args : List Value} {v : Value}

theorem exec_call_native (activations : List (Activation H)) (f : NativeRef)
    (args : List Value) (flags : FrameFlags) (returnAddress : Nat)
    (hdepth : core.proc.frames.height < core.world.settings.maxCallDepth) :
    exec .loop (Exec.call (.native f) args flags returnAddress {}) core activations =
      ⟨core.entered f flags returnAddress, activations,
        .loop (.invoke f (.ofValues (flattenArgs args) flags.methodCall))⟩ :=
  exec_ok (Exec.call_native_run f args _ _ _ hdepth) activations

/-- The result of a function without handlers goes to whoever waits for it. -/
theorem next_result {activations : List (Activation H)} {flags : FrameFlags}
    {returnAddress : Nat} (hloop : InLoop activations) (v : Value) :
    (⟨core.entered f flags returnAddress, activations,
        .running (.done (.result v))⟩ : Machine H).next =
      exec .loop (Exec.deliver flags returnAddress (some v)) core.relieved activations := by
  change act (core.entered f flags returnAddress) activations
    (.done (NativeOutcome.result v)) = _
  rw [act_done hloop, exec_congr (Exec.completeNative_bare_run rfl rfl v)]
  rfl

/-- A nested call of a function that has its result at once. -/
theorem after_calling_native (activations : List (Activation H)) (waiter : Waiter H)
    (hnesting : core.proc.nesting < core.world.settings.maxNativeNesting)
    (hdepth : core.proc.frames.height < core.world.settings.maxCallDepth)
    (haction : (core.nested.entered f { entryPoint := true } core.proc.ip).invoke f
      (.ofValues (flattenArgs args) false) = .done (.result v)) :
    ∃ p : Processor, p.frames = core.proc.frames ∧ p.stack = core.proc.stack ∧
      CallsOnly f ⟨core, activations, .calling (.native f) args waiter⟩ 5 ∧
      after ⟨core, activations, .calling (.native f) args waiter⟩ 5 =
        ⟨⟨core.world, p⟩, activations, .answering waiter (.ok v)⟩ := by
  let m : Machine H := ⟨core, activations, .calling (.native f) args waiter⟩
  let nested := Activation.call core.proc.mark waiter :: activations
  let entered := core.nested.entered f { entryPoint := true } core.proc.ip
  have hbegun : m.after 1 =
      ⟨entered, nested, .loop (.invoke f (.ofValues (flattenArgs args) false))⟩ := by
    change beginCall core activations (.native f) args waiter = _
    rw [beginCall_of_room core hnesting]
    exact exec_call_native nested f args _ _ hdepth
  have hinvoked : m.after 2 = ⟨entered, nested, .running (.done (.result v))⟩ := by
    change (m.after 1).next = _
    rw [hbegun]
    exact next_invoke haction
  have hcompleted : m.after 3 = ⟨core.nested.relieved, nested, .loop (.return v)⟩ := by
    change (m.after 2).next = _
    rw [hinvoked]
    exact next_result (.call _ _ _) v
  have hleaving : m.after 4 =
      ⟨core.nested.relieved, nested, .leaving (.ok (.returned v))⟩ :=
    congrArg next hcompleted
  have hcalls : m.CallsOnly f 5 := by
    refine ((((callsOnly_zero.succ ?_).succ ?_).succ ?_).succ ?_).succ ?_
    · rintro function args waiter ⟨⟩
      rfl
    all_goals refine Control.callsOnly_of_ne fun _ _ _ h => ?_
    · rw [hbegun] at h
      cases h
    · rw [hinvoked] at h
      cases h
    · rw [hcompleted] at h
      cases h
    · rw [hleaving] at h
      cases h
  have hended : m.after 5 = endCall core.nested.relieved activations core.proc.mark waiter
      (.ok (.returned v)) :=
    congrArg next hleaving
  exact ⟨(endCall core.nested.relieved activations core.proc.mark waiter
    (.ok (.returned v))).core.proc, rfl, rfl, hcalls, hended⟩

/-- The handler of a protected call is called with the value of the error. -/
theorem after_calling_failed {failed : NativeRef} {native : Native H}
    (activations : List (Activation H)) (v : Value) (waiter : Waiter H)
    (hnative : core.world.native? failed = some native)
    (hbody : native.body = .library .protectedFailed)
    (hnesting : core.proc.nesting < core.world.settings.maxNativeNesting)
    (hdepth : core.proc.frames.height < core.world.settings.maxCallDepth) :
    ∃ p : Processor, p.frames = core.proc.frames ∧ p.stack = core.proc.stack ∧
      CallsOnly failed ⟨core, activations, .calling (.native failed) [v] waiter⟩ 5 ∧
      after ⟨core, activations, .calling (.native failed) [v] waiter⟩ 5 =
        ⟨⟨core.world, p⟩, activations, .answering waiter
          (.ok (.tupled [.boolean false, v.toStorable]))⟩ := by
  refine after_calling_native activations waiter hnesting hdepth ?_
  rw [← toStorable_get_ofValues v false]
  exact Core.invoke_of_library (c := core.nested.entered failed _ _) _ hnative hbody

end

end Machine

/-! ## Loops and their depth -/

namespace Machine

theorem StandsOn.nesting_eq {activations : List (Activation H)} :
    ∀ {s s' : LoopPhase} {n n' : Nat} {frames frames' : List Frame},
      StandsOn s activations n frames → StandsOn s' activations n' frames' →
        n = n' := by
  induction activations with
  | nil =>
      intro s s' n n' frames frames' h h'
      exact h.1.trans h'.1.symm
  | cons a rest ih =>
      intro s s' n n' frames frames' h h'
      cases a with
      | call mark waiter =>
          obtain ⟨outer, _, _, hn, _, _, _, hrest⟩ := h
          obtain ⟨outer', _, _, hn', _, _, _, hrest'⟩ := h'
          rw [hn, hn', ih hrest hrest']
      | body => exact h.1.trans h'.1.symm
      | switch r outer next => exact h.1.trans h'.1.symm

/-- A loop is as deep whenever it runs. -/
theorem Loop.At.nesting_eq {loop : Loop H} {activations activations' :
    List (Activation H)} (h : loop.At activations) (h' : loop.At activations')
    {s s' : LoopPhase} {n n' : Nat} {frames frames' : List Frame}
    (hs : StandsOn s activations n frames)
    (hs' : StandsOn s' activations' n' frames') : n = n' := by
  cases h with
  | nested mark waiter rest =>
      cases h'
      exact StandsOn.nesting_eq hs hs'
  | body r outer next rest =>
      cases h'
      exact hs.1.trans hs'.1.symm

end Machine

/-! ## Protected calls from their beginning -/

/-- A call of the library's function for protected calls. -/
structure ProtectedCall (H : HostTypes) where
  /-- The frame of the library's function. -/
  frame : Frame
  below : List Frame
  operands : List Value
  ok : NativeRef
  failed : NativeRef
  loop : Loop H

namespace ProtectedCall

/-- The frame of the call waits if there is something left to do in it. -/
def waiting (s : ProtectedCall H) : Bool := !s.frame.handlers.isEmpty

/-- The frame that the function of the call gets. -/
def guard (s : ProtectedCall H) : Guard where
  frame :=
    { callee := s.frame.callee
      base := s.operands.length
      returnAddress := s.frame.returnAddress
      flags := { entryPoint := !s.waiting && s.frame.flags.entryPoint }
      handlers :=
        { continuation? := some (.native s.ok), errorHandler? := some s.failed } }
  ok := s.ok
  failed := s.failed
  below :=
    if s.waiting then
      { s.frame with flags := { s.frame.flags with awaiting := true } } :: s.below
    else s.below
  operands := s.operands
  base := rfl
  handlers := rfl

/-- The library's function is about to be run, with room for what it does. -/
structure Begins [Host H] (s : ProtectedCall H) (m : Machine H) : Prop where
  invoke : ∃ f native args, m.control = .loop (.invoke f args) ∧
    m.core.world.native? f = some native ∧
    native.body = .library (.pcall s.ok s.failed) ∧
    (args.get 0).isVoid = false
  failed : ∃ native, m.core.world.native? s.failed = some native ∧
    native.body = .library .protectedFailed
  frames : m.core.proc.frames.items = s.frame :: s.below
  operands : m.core.proc.stack.items = s.operands
  loop : s.loop.At m.activations
  nesting : m.core.proc.nesting < m.core.world.settings.maxNativeNesting
  depth : s.below.length + 2 ≤ m.core.world.settings.maxCallDepth

/-- The function of the call cannot be called at all. -/
def Uncallable (s : ProtectedCall H) (e : ScriptError) (m : Machine H) : Prop :=
  s.loop.At m.activations ∧
    (∃ flags, flags.entryPoint = s.guard.frame.flags.entryPoint ∧
      m.control = .loop
        (.recover e none s.failed flags s.guard.frame.returnAddress)) ∧
    m.core.proc.frames.items = s.guard.below ∧
    m.core.proc.stack.items = s.operands

/-- The call has this result, and all below it is as it was. -/
def Gives [Host H] (s : ProtectedCall H) (v : Value) (m : Machine H) : Prop :=
  ∃ core activations route, s.loop.At activations ∧
    core.proc.frames.items = s.below ∧ core.proc.stack.items = s.operands ∧
    m = Machine.exec route (Exec.finish s.frame v) core activations

end ProtectedCall

namespace ProtectedCall

section

variable {s : ProtectedCall H}

theorem length_below (s : ProtectedCall H) :
    s.guard.below.length ≤ s.below.length + 1 := by
  unfold guard
  dsimp only
  split
  · exact Nat.le_refl _
  · exact Nat.le_succ _

theorem below_suffix (s : ProtectedCall H) : s.below <:+ s.guard.below := by
  unfold guard
  dsimp only
  split
  · exact List.suffix_cons _ _
  · exact List.suffix_refl _

/-- The library's function makes way for the call it asks for. -/
theorem completeNative_run {core : Core H} (request : TailCallRequest)
    (hframes : core.proc.frames.items = s.frame :: s.below) :
    ∃ flags frames, flags.entryPoint = s.guard.frame.flags.entryPoint ∧
      frames.items = s.guard.below ∧
      Exec.completeNative (.tailCall request) core =
        .ok (.tailCall request flags s.frame.returnAddress)
          { core with proc := { core.proc with frames } } := by
  have hcompleted := Exec.completed_completeNative (.tailCall request) core
  generalize Exec.completeNative (.tailCall request) core = r at hcompleted ⊢
  have hpopped {frame : Frame} {rest : Stack Frame}
      (hpush : core.proc.frames = rest.push frame) :
      frame = s.frame ∧ rest.items = s.below := by
    rw [hpush, Stack.items_push] at hframes
    exact List.cons.inj hframes
  cases hcompleted with
  | lost outcome h =>
      rw [hframes] at h
      cases h
  | replaced frame rest hpush hhandlers request =>
      obtain ⟨rfl, hrest⟩ := hpopped hpush
      refine ⟨_, rest, ?_, ?_, rfl⟩
      · simp [guard, waiting, hhandlers]
      · simp [guard, waiting, hhandlers, hrest]
  | waits frame rest hpush hhandlers request =>
      obtain ⟨rfl, hrest⟩ := hpopped hpush
      refine ⟨_, rest.push _, ?_, ?_, rfl⟩
      · simp [guard, waiting, hhandlers]
      · simp [guard, waiting, hhandlers, hrest]

end

section

variable [Host H] {s : ProtectedCall H} {m m₀ : Machine H}

/-- The library's function has asked for the call after two steps and makes it in the
third. -/
theorem after_invoke {core : Core H} {activations : List (Activation H)}
    {f : NativeRef} {args : Arguments} {request : TailCallRequest}
    (haction : core.invoke f args = .done (.tailCall request))
    (hloop : s.loop.At activations)
    (hframes : core.proc.frames.items = s.frame :: s.below) :
    ∃ flags frames, flags.entryPoint = s.guard.frame.flags.entryPoint ∧
      frames.items = s.guard.below ∧
      Machine.after ⟨core, activations, .loop (.invoke f args)⟩ 3 =
        Machine.exec .loop (Exec.callRequest request flags s.frame.returnAddress)
          { core with proc := { core.proc with frames } } activations := by
  obtain ⟨flags, frames, hentry, hitems, hrun⟩ :=
    completeNative_run request hframes
  refine ⟨flags, frames, hentry, hitems, ?_⟩
  have hinvoke : (⟨core, activations, .loop (.invoke f args)⟩ : Machine H).next =
      ⟨core, activations, .running (.done (.tailCall request))⟩ :=
    Machine.next_invoke haction
  have hcomplete : (⟨core, activations, .running (.done (.tailCall request))⟩ :
      Machine H).next = ⟨{ core with proc := { core.proc with frames } },
        activations, .loop (.tailCall request flags s.frame.returnAddress)⟩ := by
    change Machine.act core activations (.done (NativeOutcome.tailCall request)) = _
    rw [Machine.act_done hloop.inLoop]
    exact Machine.exec_ok hrun activations
  simp only [Machine.after]
  rw [hinvoke, hcomplete]
  rfl

/-- After three steps the function runs under the guard, or cannot be called. -/
theorem Begins.after (h : s.Begins m) :
    Machine.InForce s.guard s.loop (m.after 3) ∨
      ∃ e, s.Uncallable e (m.after 3) := by
  obtain ⟨f, native, args, hcontrol, hnative, hbody, hargument⟩ := h.invoke
  have hframes := h.frames
  have hoperands := h.operands
  have hloop := h.loop
  obtain ⟨core, activations, control⟩ := m
  dsimp only at hcontrol hnative hframes hoperands hloop
  subst hcontrol
  let request : TailCallRequest :=
    { function := args.get 0, args := args.rest 1
      continuation? := some s.ok, errorHandler? := some s.failed }
  have haction : core.invoke f args = .done (.tailCall request) := by
    rw [Core.invoke_of_library args hnative hbody]
    change Library.pcall s.ok s.failed args = _
    unfold Library.pcall
    rw [hargument]
    rfl
  obtain ⟨flags, frames, hentry, hitems, hafter⟩ :=
    after_invoke haction hloop hframes
  rw [hafter]
  have hheight : core.proc.stack.height = s.operands.length := by
    rw [core.proc.stack.height_eq, hoperands]
  have hcalls : s.guard.Spans ([] : List (Activation H)) := by
    intro a ha
    cases ha
  have hpushed {p : Processor} {d : Frame} (hd : s.guard.frame.StandsFor d)
      (hp : p.frames.items = d :: s.guard.below)
      (hstack : p.stack = core.proc.stack) : s.guard.Holds p := by
    refine ⟨[], d, hd, hp, by simp, ?_⟩
    rw [hstack, hoperands]
    exact List.suffix_refl _
  have hcalled := Exec.called_call request.function request.args flags
    s.frame.returnAddress
    { continuation? := request.continuation?.map .native
      errorHandler? := request.errorHandler?
      beforeUnwind? := request.beforeUnwind? }
    (⟨core.world, { core.proc with frames }⟩ : Core H)
  unfold Machine.exec
  change Exec.Called _ _ _ _ (Exec.callRequest request flags _ _) at hcalled
  generalize Exec.callRequest request flags s.frame.returnAddress
    (⟨core.world, { core.proc with frames }⟩ : Core H) = r at hcalled ⊢
  cases hcalled with
  | failed e hnone => cases hnone
  | recovered e handler hhandler =>
      cases hhandler
      exact Or.inr ⟨e, hloop, ⟨flags, hentry, rfl⟩, hitems, hoperands⟩
  | entered d dargs hdepth =>
      left
      refine .active (.executing [] activations hcalls hloop rfl
        (hpushed ?_ (congrArg (_ :: ·) hitems) rfl) (by simp))
      exact ⟨hheight, rfl, rfl, hentry⟩
  | invoked d dargs hdepth =>
      left
      refine .active (.executing [] activations hcalls hloop rfl
        (hpushed ?_ (congrArg (_ :: ·) hitems) rfl) (by simp))
      exact ⟨hheight, rfl, rfl, hentry⟩

omit [Host H] in
/-- Taking the guard off for its result is the end of the call itself. -/
theorem deliver_cases {core : Core H} {flags : FrameFlags} (v : Value)
    (hentry : flags.entryPoint = s.guard.frame.flags.entryPoint)
    (hframes : core.proc.frames.items = s.guard.below) :
    (core.proc.frames.items = s.below ∧
      (Exec.deliver flags s.frame.returnAddress (some v) : Exec H Outcome) =
        Exec.finish s.frame v) ∨
    ∃ top rest, rest.items = s.below ∧
      (Exec.finish top v : Exec H Outcome) = Exec.finish s.frame v ∧
      Exec.deliver flags s.frame.returnAddress (some v) core =
        .ok (.finish top v)
          { core with proc := { core.proc with frames := rest } } := by
  cases hwaiting : s.waiting with
  | false =>
      left
      have hempty : s.frame.handlers.isEmpty = true := by
        simpa [waiting] using hwaiting
      refine ⟨?_, ?_⟩
      · rw [hframes]
        simp [guard, hwaiting]
      · unfold Exec.finish
        rw [Handlers.isEmpty_iff.mp hempty]
        refine Exec.deliver_congr _ _ ?_
        rw [hentry]
        simp [guard, hwaiting]
  | true =>
      right
      have hinner : flags.entryPoint = false := by
        rw [hentry]
        simp [guard, hwaiting]
      have hbelow : core.proc.frames.items =
          { s.frame with flags := { s.frame.flags with awaiting := true } } ::
            s.below := by
        rw [hframes]
        simp [guard, hwaiting]
      have hdelivered := Exec.delivered_deliver flags s.frame.returnAddress
        (some v) core
      generalize Exec.deliver flags s.frame.returnAddress (some v) core = r
        at hdelivered ⊢
      cases hdelivered with
      | returned h =>
          rw [hinner] at h
          cases h
      | awaited h top rest hpush hawaiting =>
          rw [hpush, Stack.items_push] at hbelow
          obtain ⟨htop, hrest⟩ := List.cons.inj hbelow
          have hsame : s.frame.StandsFor top := by
            rw [htop]
            exact ⟨rfl, rfl, rfl, rfl⟩
          exact ⟨top, rest, hrest, Exec.finish_congr hsame v, rfl⟩
      | bottom h hempty =>
          rw [hbelow] at hempty
          cases hempty
      | resumed h top htop hawaiting =>
          unfold Stack.top? at htop
          rw [hbelow] at htop
          cases htop
          cases hawaiting

/-- The answer to an error becomes the result of the call. -/
theorem gives_of_answering {core : Core H} {activations : List (Activation H)}
    {flags : FrameFlags} {v : Value} {waiter : Waiter H}
    (hloop : s.loop.At activations)
    (hentry : flags.entryPoint = s.guard.frame.flags.entryPoint)
    (hframes : core.proc.frames.items = s.guard.below)
    (hoperands : core.proc.stack.items = s.operands)
    (hwaiter : waiter = .caught flags s.frame.returnAddress ∨
      waiter = .recovered flags s.frame.returnAddress) :
    ∃ n ≤ 2,
      Machine.CallsOnly s.failed ⟨core, activations, .answering waiter (.ok v)⟩ n ∧
      s.Gives v
        (Machine.after ⟨core, activations, .answering waiter (.ok v)⟩ n) := by
  have hanswering : Machine.CallsOnly s.failed
      (⟨core, activations, .answering waiter (.ok v)⟩ : Machine H) 1 :=
    Machine.callsOnly_zero.succ (Control.callsOnly_of_ne fun _ _ _ h => by cases h)
  obtain ⟨route, hnext⟩ : ∃ route,
      (⟨core, activations, .answering waiter (.ok v)⟩ : Machine H).next =
        Machine.exec route (Exec.deliver flags s.frame.returnAddress (some v)) core
          activations := by
    rcases hwaiter with rfl | rfl
    · exact ⟨.settling, rfl⟩
    · exact ⟨.loop, rfl⟩
  rcases deliver_cases v hentry hframes with
    ⟨hbelow, hrun⟩ | ⟨top, rest, hrest, hfinish, hrun⟩
  · refine ⟨1, by omega, hanswering, core, activations, route, hloop, hbelow, hoperands, ?_⟩
    rw [← hrun]
    exact hnext
  · rw [Machine.exec_ok hrun] at hnext
    let popped : Core H := { core with proc := { core.proc with frames := rest } }
    have hafter : Machine.after ⟨core, activations, .answering waiter (.ok v)⟩ 2 =
        Machine.exec route (Exec.finish s.frame v) popped activations := by
      simp only [Machine.after]
      rw [hnext, Machine.next_finish_done, hfinish]
    refine ⟨2, by omega, hanswering.succ (Control.callsOnly_of_ne fun _ _ _ => ?_), popped,
      activations, route, hloop, hrest, hoperands, hafter⟩
    simp only [Machine.after]
    rw [hnext]
    cases route <;> rintro ⟨⟩

/-- The handler of the call is called and its answer becomes the result. -/
theorem gives_of_calling {core : Core H} {activations : List (Activation H)}
    {flags : FrameFlags} {v : Value} {waiter : Waiter H} (hm : s.Begins m₀)
    (hretains : m₀.core.world.Retains core.world)
    (hnesting : core.proc.nesting = m₀.core.proc.nesting)
    (hloop : s.loop.At activations)
    (hentry : flags.entryPoint = s.guard.frame.flags.entryPoint)
    (hframes : core.proc.frames.items = s.guard.below)
    (hoperands : core.proc.stack.items = s.operands)
    (hwaiter : waiter = .caught flags s.frame.returnAddress ∨
      waiter = .recovered flags s.frame.returnAddress) :
    ∃ n ≤ 7, s.Gives (.tupled [.boolean false, v.toStorable])
      (Machine.after
        ⟨core, activations, .calling (.native s.failed) [v] waiter⟩ n) := by
  obtain ⟨native, hnative, hbody⟩ := hm.failed
  have hnest : core.proc.nesting < core.world.settings.maxNativeNesting := by
    rw [hnesting, hretains.settings]
    exact hm.nesting
  have hdepth : core.proc.frames.height < core.world.settings.maxCallDepth := by
    have hbelow := s.length_below
    have hroom := hm.depth
    rw [core.proc.frames.height_eq, hframes, hretains.settings]
    omega
  obtain ⟨p, hpframes, hpstack, -, hafter⟩ := Machine.after_calling_failed
    activations v waiter (hretains.native? _ _ hnative) hbody hnest hdepth
  let answering : Core H := ⟨core.world, p⟩
  have hpitems : answering.proc.frames.items = s.guard.below := by
    rw [hpframes, hframes]
  have hpoperands : answering.proc.stack.items = s.operands := by
    rw [hpstack, hoperands]
  obtain ⟨n, hn, -, hgives⟩ := gives_of_answering
    (v := .tupled [.boolean false, v.toStorable]) hloop hentry hpitems
    hpoperands hwaiter
  refine ⟨5 + n, by omega, ?_⟩
  rw [Machine.after_add, hafter]
  exact hgives

end

end ProtectedCall

end ScriptEngine
