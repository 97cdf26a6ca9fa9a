import ScriptEngine.Proofs.Budget.Metered
import ScriptEngine.Proofs.Request.LoopPlacement

/-!
# Steps of a loop in two places

Calls, results and instructions come to the same in both places.  There are three exceptions.
The lowest frame hands its result to the end of the loop on the first processor, and on the
second perhaps to somewhere else.  A limit is reached.  And a function yields.
-/

namespace ScriptEngine

variable {H : HostTypes}

theorem Processor.isYieldable_of_two_le {p : Processor} (h : 2 ≤ p.nesting) :
    p.isYieldable = false := by
  have hne : p.nesting ≠ 1 := by omega
  simp [Processor.isYieldable, hne]

namespace LoopPlacement

/-- What the loops do next above these frames. -/
inductive Outcomes (P : LoopPlacement) (fs : List Frame) : Outcome → Outcome → Prop where
  | proceed (hne : fs ≠ []) : Outcomes P fs .proceed .proceed
  | finish {f g : Frame} (h : P.resultTarget.Frames fs f g) (v : Value) :
      Outcomes P fs (.finish f v) (.finish g v)
  | invoke (hne : fs ≠ []) (f : NativeRef) (args : Arguments) :
      Outcomes P fs (.invoke f args) (.invoke f args)
  | recover {flags flags' : FrameFlags} {address address' : Nat}
      (h : P.resultTarget.Hands fs flags address flags' address') (e : ScriptError)
      (decorator? : Option Value) (handler : NativeRef) :
      Outcomes P fs (.recover e decorator? handler flags address)
        (.recover e decorator? handler flags' address')
  | tailCall {flags flags' : FrameFlags} {address address' : Nat}
      (h : P.resultTarget.Hands fs flags address flags' address') (request : TailCallRequest) :
      Outcomes P fs (.tailCall request flags address) (.tailCall request flags' address')
  | yield (hsame : P.resultTarget = .same) (v : Value) : Outcomes P fs (.yield v) (.yield v)
  | return (hsame : P.resultTarget = .same) (hnil : fs = []) (v : Value) :
      Outcomes P fs (.return v) (.return v)

/-- A call has found no room, or a function of the loop gives way to another coroutine. -/
def Disturbs (P : LoopPlacement) : EStateM.Result RuntimeError (Core H) Outcome → Prop
  | .error (.script e) _ => e = .stackOverflow
  | .ok (.recover e _ _ _ _) _ => e = .stackOverflow
  | .ok (.yield _) _ => P.resultTarget ≠ .same
  | .ok .forceYield _ => P.resultTarget ≠ .same
  | _ => False

/-- What a program comes to in both places. -/
inductive Pairs (P : LoopPlacement) : EStateM.Result RuntimeError (Core H) Outcome →
    EStateM.Result RuntimeError (Core H) Outcome → Prop where
  | ok {o o' : Outcome} {c c' : Core H} {fs gs : List Frame} (h : P.Meets fs gs c c')
      (ho : P.Outcomes fs o o') : Pairs P (.ok o c) (.ok o' c')
  | error {c c' : Core H} {fs gs : List Frame} (h : P.Meets fs gs c c') (e : RuntimeError) :
      Pairs P (.error e c) (.error e c')
  /-- The lowest frame has returned. -/
  | ended {c c' : Core H} {entryPoint : Bool} {target : Nat}
      (hmoved : P.resultTarget = .moved entryPoint target) (h : P.Meets [] [] c c')
      {flags : FrameFlags}
      (hflags : flags.entryPoint = entryPoint) (v : Value) :
      Pairs P (.ok (.return v) c) (Exec.deliver flags target (some v) c')

/-- The same, unless the program is disturbed in one of the places. -/
def Joins (P : LoopPlacement) (r r' : EStateM.Result RuntimeError (Core H) Outcome) : Prop :=
  P.Pairs r r' ∨ P.Disturbs r ∨ P.Disturbs r'

variable {P : LoopPlacement} {fs gs : List Frame} {c c' : Core H} {f g : Frame}

theorem Meets.withCode (h : P.Meets fs gs c c') (ip : Nat) (chunk? : Option Chunk) :
    P.Meets fs gs { c with proc := { c.proc with ip, chunk? } }
      { c' with proc := { c'.proc with ip, chunk? } } := by
  refine ⟨h.world, ?_⟩
  exact { h.beside with
    ip := rfl
    chunk := rfl }

theorem Meets.withYielded (h : P.Meets fs gs c c') (yielded? : Option Frame) :
    P.Meets fs gs { c with proc := { c.proc with yielded? } }
      { c' with proc := { c'.proc with yielded? } } := by
  refine ⟨h.world, ?_⟩
  exact { h.beside with yielded := rfl }

/-- The operands above a height go. -/
theorem Meets.truncate (h : P.Meets fs gs c c') (height : Nat) :
    P.Meets fs gs { c with proc := { c.proc with stack := c.proc.stack.truncate height } }
      { c' with proc := { c'.proc with stack := c'.proc.stack.truncate height } } := by
  rw [h.beside.stack]
  exact h.withStack _

theorem Meets.isYieldable (h : P.Meets fs gs c c') :
    c.proc.isYieldable = false ∧ (P.resultTarget = .same → c'.proc.isYieldable = false) := by
  have hloops := P.loops
  have hnesting := h.beside.nesting
  constructor
  · exact Processor.isYieldable_of_two_le (by omega)
  · intro hsame
    have hinner := P.inner hsame
    have hnesting' := h.beside.nesting'
    exact Processor.isYieldable_of_two_le (by omega)

theorem Meets.pushFrame (h : P.Meets fs gs c c') (hframes : P.resultTarget.Frames fs f g) :
    P.Meets (f :: fs) (g :: gs) { c with proc := c.proc.pushFrame f }
      { c' with proc := c'.proc.pushFrame g } := by
  refine ⟨h.world, h.beside.stack, h.beside.ip, h.beside.chunk, h.beside.canYield,
    h.beside.yielded, h.beside.nesting, h.beside.nesting', ?_, ?_,
    .cons hframes h.beside.framesAlike⟩
  · exact congrArg (f :: ·) h.beside.frames
  · exact congrArg (g :: ·) h.beside.frames'

end LoopPlacement

namespace Exec

variable {P : LoopPlacement} {fs gs : List Frame} {c c' : Core H} {f g : Frame}
  {flags flags' : FrameFlags} {address address' : Nat}

/-! ## Calls -/

theorem pairs_failCall (e : ScriptError)
    (hhands : P.resultTarget.Hands fs flags address flags' address')
    (handlers : Handlers) (h : P.Meets fs gs c c') :
    P.Pairs (failCall e flags address handlers c) (failCall e flags' address' handlers c') := by
  unfold failCall
  cases handlers.errorHandler? with
  | some handler => exact .ok h (.recover hhands e _ _)
  | none => exact .error h _

/-- A call that finds no room is recovered or fails for that. -/
theorem disturbs_failCall (flags : FrameFlags) (address : Nat) (handlers : Handlers)
    (c : Core H) : P.Disturbs (failCall .stackOverflow flags address handlers c) := by
  unfold failCall
  cases handlers.errorHandler? with
  | some handler => exact rfl
  | none => exact rfl

theorem enter_run (callee : Callee) (args : List Value) (flags : FrameFlags) (address : Nat)
    (handlers : Handlers) {c : Core H}
    (hroom : c.proc.frames.height < c.world.settings.maxCallDepth) :
    enter callee args flags address handlers c =
      match callee with
      | .function f =>
        .ok .proceed { c with
          proc := { c.proc.pushFrame
            { callee, base := c.proc.stack.height, returnAddress := address, flags, handlers
              pendingArgs := args } with
            ip := (c.world.closure f).entry
            chunk? := some (c.world.closure f).chunk } }
      | .native f =>
        .ok (.invoke f (.ofValues args flags.methodCall)) { c with
          proc := c.proc.pushFrame
            { callee, base := c.proc.stack.height, returnAddress := address, flags
              handlers } } := by
  have hdepth : ¬c.world.settings.maxCallDepth ≤ c.proc.frames.height := by omega
  rw [enter, run_bind_of_ok (askProc_run _ c), run_bind_of_ok (ask_run _ c), if_neg hdepth,
    run_bind_of_ok (askProc_run _ c)]
  cases callee <;> rfl

theorem joins_enter (callee : Callee) (args : List Value)
    (hhands : P.resultTarget.Hands fs flags address flags' address') {handlers : Handlers}
    (hplain : fs = [] → ∀ p, handlers.continuation? ≠ some (.post p)) (h : P.Meets fs gs c c') :
    P.Joins (enter callee args flags address handlers c)
      (enter callee args flags' address' handlers c') := by
  by_cases hdepth : c.world.settings.maxCallDepth ≤ c.proc.frames.height
  · refine Or.inr (Or.inl ?_)
    rw [enter, run_bind_of_ok (askProc_run _ c), run_bind_of_ok (ask_run _ c), if_pos hdepth]
    exact disturbs_failCall _ _ _ _
  · obtain ⟨w, p⟩ := c
    obtain ⟨w', q⟩ := c'
    obtain rfl : w' = w := h.world
    have hroom : p.frames.height < w'.settings.maxCallDepth := by
      change ¬w'.settings.maxCallDepth ≤ p.frames.height at hdepth
      omega
    have hroom' : q.frames.height < w'.settings.maxCallDepth :=
      Nat.lt_of_le_of_lt h.beside.height_le hroom
    have hstack : q.stack = p.stack := h.beside.stack
    rw [enter_run callee args flags address handlers hroom,
      enter_run callee args flags' address' handlers hroom', hhands.methodCall]
    dsimp only
    rw [hstack]
    cases callee with
    | function f =>
      have hpushed := h.pushFrame (hhands.frames (.function f) p.stack.height args hplain)
      exact Or.inl (.ok (hpushed.withCode _ _) (.proceed (List.cons_ne_nil _ _)))
    | native f =>
      have hpushed := h.pushFrame (hhands.frames (.native f) p.stack.height [] hplain)
      exact Or.inl (.ok hpushed (.invoke (List.cons_ne_nil _ _) f _))

theorem joins_call [HostObjects H] (function : Value) (args : List Value)
    (hhands : P.resultTarget.Hands fs flags address flags' address') {handlers : Handlers}
    (hplain : fs = [] → ∀ p, handlers.continuation? ≠ some (.post p)) (h : P.Meets fs gs c c') :
    P.Joins (call function args flags address handlers c)
      (call function args flags' address' handlers c') := by
  rw [call, call, run_bind_of_ok (ask_run _ c), run_bind_of_ok (ask_run _ c'), h.world]
  cases c.world.callee maxCallHops function.toScalar (flattenArgs args) with
  | ok resolved => exact joins_enter _ _ hhands hplain h
  | error v => exact Or.inl (pairs_failCall _ hhands _ h)

theorem joins_callRequest [HostObjects H] (request : TailCallRequest)
    (hhands : P.resultTarget.Hands fs flags address flags' address') (h : P.Meets fs gs c c') :
    P.Joins (callRequest request flags address c) (callRequest request flags' address' c') := by
  refine joins_call _ _ hhands (fun _ p => ?_) h
  cases request.continuation? <;> simp

/-! ## Results -/

theorem popFrame?_run_of_top {c : Core H} {rest : Stack Frame}
    (htop : c.proc.frames = rest.push f) :
    popFrame? c = .ok (some f) { c with proc := { c.proc with frames := rest } } := by
  rw [popFrame?_run, htop, Stack.pop?_push]

theorem deliver_run_awaited (address : Nat) (v? : Option Value) {rest : Stack Frame}
    (hinner : flags.entryPoint = false) (htop : c.proc.frames = rest.push f)
    (hawaiting : f.flags.awaiting = true) :
    deliver flags address v? c =
      .ok (.finish f (v?.getD .void)) { c with proc := { c.proc with frames := rest } } := by
  have htop? : c.proc.frames.top? = some f := by
    rw [htop]
    rfl
  unfold deliver
  rw [hinner, if_neg (by simp), run_bind_of_ok (askProc_run _ c), htop?]
  dsimp only
  rw [if_pos hawaiting, run_bind_of_ok (popFrame?_run_of_top htop)]
  rfl

/-- The code that goes on once a result is on the operands. -/
def codeOf (w : World H) (callee : Callee) (chunk? : Option Chunk) : Option Chunk :=
  match callee with
  | .function f => some (w.closure f).chunk
  | .native _ => chunk?

theorem deliver_run_resumed (address : Nat) (v? : Option Value) {rest : Stack Frame}
    (hinner : flags.entryPoint = false) (htop : c.proc.frames = rest.push f)
    (hawaiting : f.flags.awaiting = false) :
    deliver flags address v? c =
      .ok .proceed { c with
        proc := { c.proc with
          stack := c.proc.stack.pushAll v?.toList
          ip := address
          chunk? := codeOf c.world f.callee c.proc.chunk? } } := by
  have htop? : c.proc.frames.top? = some f := by
    rw [htop]
    rfl
  unfold deliver
  rw [hinner, if_neg (by simp), run_bind_of_ok (askProc_run _ c), htop?]
  dsimp only
  rw [hawaiting, if_neg (by simp)]
  cases f.callee <;> rfl

theorem deliver_run_returned (address : Nat) (v : Value) (c : Core H)
    (hentry : flags.entryPoint = true) :
    deliver flags address (some v) c = .ok (.return v) c := by
  unfold deliver
  rw [if_pos hentry]
  rfl

theorem pairs_deliver (hhands : P.resultTarget.Hands fs flags address flags' address')
    {v? : Option Value} (hv : fs = [] → v?.isSome = true) (h : P.Meets fs gs c c') :
    P.Pairs (deliver flags address v? c) (deliver flags' address' v? c') := by
  rcases hhands with ⟨rfl, hmeets⟩ | ⟨hne, hinner, rfl, haims⟩
  · obtain ⟨v, rfl⟩ := Option.isSome_iff_exists.mp (hv rfl)
    have hnil := h.beside.framesAlike.nil_of_nil
    subst hnil
    obtain ⟨hentry, hentry'⟩ := hmeets.entryPoint
    rw [deliver_run_returned _ _ _ hentry]
    cases htarget : P.resultTarget with
    | same =>
      rw [htarget] at hentry'
      rw [deliver_run_returned _ _ _ hentry']
      exact .ok h (.return htarget rfl v)
    | moved entryPoint target =>
      rw [htarget] at hmeets
      obtain ⟨-, hflags, rfl, -⟩ := hmeets
      exact .ended htarget h hflags v
  · obtain ⟨f, fs', g, gs', rest, rest', rfl, rfl, htop, htop', hrest, hrest', hframes, hst⟩ :=
      h.exists_top hne
    have hsame := hframes.hands.awaiting
    cases hawaiting : f.flags.awaiting with
    | true =>
      rw [hawaiting] at hsame
      rw [deliver_run_awaited _ _ hinner htop hawaiting, deliver_run_awaited _ _ hinner htop' hsame]
      exact .ok (h.withFrames hst hrest hrest') (.finish hframes _)
    | false =>
      rw [hawaiting] at hsame
      obtain rfl : address' = address := by
        rcases haims with haddress | ⟨-, f', hf', hwaits⟩
        · exact haddress
        · obtain rfl := Option.some.inj hf'
          rw [hawaiting] at hwaits
          exact absurd hwaits (by simp)
      rw [deliver_run_resumed _ _ hinner htop hawaiting, deliver_run_resumed _ _ hinner htop' hsame]
      obtain ⟨w, p⟩ := c
      obtain ⟨w', q⟩ := c'
      obtain rfl : w' = w := h.world
      have hstack : q.stack = p.stack := h.beside.stack
      have hchunk : q.chunk? = p.chunk? := h.beside.chunk
      dsimp only
      rw [hstack, hchunk, hframes.callee]
      exact .ok ((h.withStack _).withCode _ _) (.proceed hne)

theorem pairs_finish (hframes : P.resultTarget.Frames fs f g) (v : Value) (h : P.Meets fs gs c c') :
    P.Pairs (finish f v c) (finish g v c') := by
  have hhands := hframes.hands
  unfold finish
  rw [hframes.handlers]
  cases hcontinuation : f.handlers.continuation? with
  | none => exact pairs_deliver hhands (fun _ => rfl) h
  | some continuation =>
    cases continuation with
    | native k => exact .ok h (.tailCall (hhands.replaced false false) _)
    | post p =>
      have hne : fs ≠ [] := fun hnil => hframes.plain hnil p hcontinuation
      dsimp only
      cases hpost : p.apply v with
      | error e =>
        have hrun (c : Core H) : ofScript (.error e : Except ScriptError (Option Value)) c =
            .error (.script e) c := rfl
        rw [run_bind_of_error (hrun c), run_bind_of_error (hrun c')]
        exact .error h _
      | ok v? =>
        have hrun (c : Core H) : ofScript (.ok v? : Except ScriptError (Option Value)) c =
            .ok v? c := rfl
        rw [run_bind_of_ok (hrun c), run_bind_of_ok (hrun c')]
        exact pairs_deliver hhands (fun hnil => absurd hnil hne) h

/-! ## Functions of the host -/

theorem pairs_tailFromNative (hframes : P.resultTarget.Frames fs f g) (request : TailCallRequest)
    (h : P.Meets fs gs c c') :
    P.Pairs (tailFromNative f request c) (tailFromNative g request c') := by
  have hsame := hframes.handlers
  unfold tailFromNative
  by_cases hempty : f.handlers.isEmpty = true
  · have hempty' : g.handlers.isEmpty = true := by rw [hsame, hempty]
    rw [if_pos hempty, if_pos hempty']
    exact .ok h (.tailCall (hframes.hands.replaced false true) request)
  · have hempty' : ¬g.handlers.isEmpty = true := by rwa [hsame]
    rw [if_neg hempty, if_neg hempty', run_bind_of_ok (modifyProc_run _ c),
      run_bind_of_ok (modifyProc_run _ c')]
    refine .ok (h.withFrames (.cons hframes.waiting h.beside.framesAlike) ?_ ?_)
      (.tailCall hframes.awaited request)
    · exact congrArg (_ :: ·) h.beside.frames
    · exact congrArg (_ :: ·) h.beside.frames'

theorem joins_completeNative (outcome : NativeOutcome) (hne : fs ≠ []) (h : P.Meets fs gs c c') :
    P.Joins (completeNative outcome c) (completeNative outcome c') := by
  obtain ⟨f, fs', g, gs', rest, rest', rfl, rfl, htop, htop', hrest, hrest', hframes, hst⟩ :=
    h.exists_top hne
  have hpopped := h.withFrames hst hrest hrest'
  rw [completeNative, run_bind_of_ok (popFrame?_run_of_top htop),
    run_bind_of_ok (popFrame?_run_of_top htop')]
  cases outcome with
  | result v => exact Or.inl (pairs_finish hframes v hpopped)
  | tailCall request => exact Or.inl (pairs_tailFromNative hframes request hpopped)
  | yield v =>
    dsimp only
    rw [run_bind_of_ok (modifyProc_run _ _), run_bind_of_ok (modifyProc_run _ _)]
    by_cases hsame : P.resultTarget = .same
    · have hfg : g = f := (hsame ▸ hframes).eq_of_same
      rw [hfg]
      exact Or.inl (.ok (hpopped.withYielded (some f)) (.yield hsame v))
    · exact Or.inr (Or.inl hsame)

/-! ## Instructions -/

theorem joins_callPending [HostObjects H] (pending : PendingCall) (hne : fs ≠ [])
    (h : P.Meets fs gs c c') : P.Joins (callPending pending c) (callPending pending c') := by
  rw [callPending, run_bind_of_ok (askProc_run _ c), run_bind_of_ok (askProc_run _ c'),
    h.beside.ip]
  exact joins_call _ _ (ResultTarget.hands_of_ne_nil hne rfl _) (fun hnil => absurd hnil hne) h

theorem canTailCall_eq (hne : fs ≠ []) (h : P.Meets fs gs c c') :
    canTailCall c'.proc = canTailCall c.proc := by
  obtain ⟨f, fs', g, gs', rest, rest', rfl, rfl, htop, htop', hrest, hrest', hframes, hst⟩ :=
    h.exists_top hne
  have htop? : c.proc.frames.top? = some f := by
    rw [htop]
    rfl
  have htop?' : c'.proc.frames.top? = some g := by
    rw [htop']
    rfl
  unfold canTailCall
  rw [h.beside.chunk, h.beside.ip, htop?, htop?']
  dsimp only
  rw [hframes.callee, hframes.handlers, hframes.hands.awaiting]

theorem joins_placeCall [HostObjects H] (function : Value) (args : List Value)
    (methodCall : Bool) (hne : fs ≠ []) (h : P.Meets fs gs c c') :
    P.Joins (placeCall function args methodCall c) (placeCall function args methodCall c') := by
  rw [placeCall, run_bind_of_ok (askProc_run _ c), run_bind_of_ok (askProc_run _ c'),
    canTailCall_eq hne h]
  by_cases hcan : canTailCall c.proc = true
  · obtain ⟨f, fs', g, gs', rest, rest', rfl, rfl, htop, htop', hrest, hrest', hframes, hst⟩ :=
      h.exists_top hne
    have hpopped := h.withFrames hst hrest hrest'
    rw [if_pos hcan, run_bind_of_ok (popFrame?_run_of_top htop),
      run_bind_of_ok (popFrame?_run_of_top htop')]
    dsimp only
    rw [run_bind_of_ok (modifyProc_run _ _), run_bind_of_ok (modifyProc_run _ _), hframes.base]
    exact joins_call _ _ (hframes.hands.replaced methodCall true) (fun _ p => by simp)
      (hpopped.truncate f.base)
  · rw [if_neg hcan, run_bind_of_ok (askProc_run _ c),
      run_bind_of_ok (askProc_run _ c'), h.beside.ip]
    exact joins_call _ _ (ResultTarget.hands_of_ne_nil hne rfl _) (fun hnil => absurd hnil hne) h

theorem pairs_leaveFrame (v : Value) (hne : fs ≠ []) (h : P.Meets fs gs c c') :
    P.Pairs (leaveFrame v c) (leaveFrame v c') := by
  obtain ⟨f, fs', g, gs', rest, rest', rfl, rfl, htop, htop', hrest, hrest', hframes, hst⟩ :=
    h.exists_top hne
  have hpopped := h.withFrames hst hrest hrest'
  rw [leaveFrame, run_bind_of_ok (popFrame?_run_of_top htop),
    run_bind_of_ok (popFrame?_run_of_top htop')]
  dsimp only
  rw [run_bind_of_ok (modifyProc_run _ _), run_bind_of_ok (modifyProc_run _ _), hframes.base]
  exact pairs_finish hframes v (hpopped.truncate f.base)

theorem joins_carryOut [HostObjects H] (intent : Intent) (hne : fs ≠ [])
    (h : P.Meets fs gs c c') : P.Joins (carryOut intent c) (carryOut intent c') := by
  cases intent with
  | proceed => exact Or.inl (.ok h (.proceed hne))
  | pending p => exact joins_callPending p hne h
  | call function args methodCall => exact joins_placeCall function args methodCall hne h
  | «return» v => exact Or.inl (pairs_leaveFrame v hne h)

theorem joins_step [HostObjects H] (hne : fs ≠ []) (h : P.Meets fs gs c c') :
    P.Joins (step c) (step c') := by
  have hfirst := simple_stepIntent.kept fs gs c c' hne h
  rw [step_eq, run_bind, run_bind]
  generalize stepIntent c = r at hfirst
  generalize stepIntent c' = r' at hfirst
  cases hfirst with
  | ok intent hne' h' => exact joins_carryOut intent hne' h'
  | error e hne' h' => exact Or.inl (.error h' e)

theorem joins_poll [Host H] (hne : fs ≠ []) (h : P.Meets fs gs c c') :
    P.Joins (poll c) (poll c') := by
  rw [Machine.poll_run, Machine.poll_run, h.world]
  by_cases hcancelled : c.world.cancelled = true
  · rw [if_pos hcancelled, if_pos hcancelled]
    exact Or.inl (.error h _)
  · rw [if_neg hcancelled, if_neg hcancelled]
    have hcount := Machine.countInstruction_of_idle (Or.inr h.isYieldable.1)
    have hcounted : Machine.counted c = c := by
      unfold Machine.counted
      rw [hcount]
    rw [hcount, hcounted, if_neg (by simp)]
    by_cases hdue' : c'.proc.countInstruction.1 = true
    · rw [if_pos hdue']
      refine Or.inr (Or.inr ?_)
      intro hsame
      rw [Machine.countInstruction_of_idle (Or.inr (h.isYieldable.2 hsame))] at hdue'
      exact absurd hdue' (by simp)
    · rw [if_neg hdue']
      have hcounts : P.Meets fs gs c (Machine.counted c') := by
        unfold Machine.counted
        rw [Machine.countInstruction_eq c'.proc]
        exact ⟨h.world, h.beside.stack, h.beside.ip, h.beside.chunk, h.beside.canYield,
          h.beside.yielded, h.beside.nesting, h.beside.nesting', h.beside.frames,
          h.beside.frames', h.beside.framesAlike⟩
      exact joins_step hne hcounts

end Exec

end ScriptEngine
