import ScriptEngine.Proofs.Machine.Intent

/-!
# What a step can come to

One lemma for each part of a step says everything that part can come to: a
simple program leaves the frames as they are, a call fails, is recovered,
enters a function or invokes a host function, and a result is handed to the
end of the loop, to a waiting host function or to the script.  What is proved
of whole steps later is proved by these cases.
-/

namespace ScriptEngine

variable {H : HostTypes}

/-- The same call; its variables may be others. -/
structure Frame.SameCall (f f' : Frame) : Prop where
  callee : f'.callee = f.callee
  base : f'.base = f.base
  returnAddress : f'.returnAddress = f.returnAddress
  flags : f'.flags = f.flags
  handlers : f'.handlers = f.handlers

/-- The same calls, the lower ones with the same variables. -/
inductive FramesAlike : List Frame → List Frame → Prop where
  | nil : FramesAlike [] []
  | cons {f f' : Frame} (h : f.SameCall f') (rest : List Frame) :
      FramesAlike (f :: rest) (f' :: rest)

theorem Frame.SameCall.refl (f : Frame) : f.SameCall f :=
  ⟨rfl, rfl, rfl, rfl, rfl⟩

theorem Frame.SameCall.trans {f g h : Frame} (hfg : f.SameCall g)
    (hgh : g.SameCall h) : f.SameCall h := by
  constructor
  · rw [hgh.callee, hfg.callee]
  · rw [hgh.base, hfg.base]
  · rw [hgh.returnAddress, hfg.returnAddress]
  · rw [hgh.flags, hfg.flags]
  · rw [hgh.handlers, hfg.handlers]

theorem FramesAlike.refl (frames : List Frame) : FramesAlike frames frames := by
  cases frames with
  | nil => exact .nil
  | cons f rest => exact .cons (.refl f) rest

theorem FramesAlike.trans {a b c : List Frame} (h : FramesAlike a b)
    (h' : FramesAlike b c) : FramesAlike a c := by
  cases h with
  | nil => exact h'
  | cons hfg rest =>
      cases h' with
      | cons hgh rest => exact .cons (hfg.trans hgh) rest

theorem FramesAlike.length_eq {a b : List Frame} (h : FramesAlike a b) :
    b.length = a.length := by
  cases h <;> rfl

/-- The world has been extended and nothing has happened to the frames. -/
structure Core.Plain (c c' : Core H) : Prop where
  world : c.world.Extends c'.world
  frames : FramesAlike c.proc.frames.items c'.proc.frames.items
  chunk : c'.proc.chunk? = c.proc.chunk?
  nesting : c'.proc.nesting = c.proc.nesting
  canYield : c'.proc.canYield = c.proc.canYield
  yielded : c'.proc.yielded? = c.proc.yielded?

/-- The world is the same, and the loops of the processor are as many. -/
structure Core.Keeps (c c' : Core H) : Prop where
  world : c'.world = c.world
  nesting : c'.proc.nesting = c.proc.nesting
  canYield : c'.proc.canYield = c.proc.canYield

namespace Core

theorem Plain.refl (c : Core H) : c.Plain c :=
  ⟨.refl _, .refl _, rfl, rfl, rfl, rfl⟩

theorem Plain.trans {a b c : Core H} (h : a.Plain b) (h' : b.Plain c) :
    a.Plain c := by
  constructor
  · exact h.world.trans h'.world
  · exact h.frames.trans h'.frames
  · exact h'.chunk.trans h.chunk
  · exact h'.nesting.trans h.nesting
  · exact h'.canYield.trans h.canYield
  · exact h'.yielded.trans h.yielded

theorem Plain.of_world {c : Core H} {w : World H} (h : c.world.Extends w) :
    c.Plain { c with world := w } :=
  ⟨h, .refl _, rfl, rfl, rfl, rfl⟩

theorem Plain.of_stack (c : Core H) (stack : Stack Value) :
    c.Plain { c with proc := { c.proc with stack } } :=
  ⟨.refl _, .refl _, rfl, rfl, rfl, rfl⟩

theorem Plain.height {c c' : Core H} (h : c.Plain c') :
    c'.proc.frames.height = c.proc.frames.height := by
  rw [Stack.height_eq, Stack.height_eq]
  exact h.frames.length_eq

end Core

namespace Exec

variable {α : Type}

/-- The core that is left, also by a program that failed. -/
def resultCore : EStateM.Result RuntimeError (Core H) α → Core H
  | .ok _ c => c
  | .error _ c => c

theorem Simple.plain {x : Exec H α} (hx : Simple x) (c : Core H) :
    c.Plain (resultCore (x c)) := by
  induction hx generalizing c with
  | pure a => exact .refl c
  | throw e => exact .refl c
  | @bind α β x f hx hf ihx ihf =>
      have hfirst := ihx c
      cases hrun : x c with
      | ok a c' =>
          rw [hrun] at hfirst
          rw [run_bind_of_ok hrun]
          exact hfirst.trans (ihf a c')
      | error e c' =>
          rw [hrun] at hfirst
          rw [run_bind_of_error hrun]
          exact hfirst
  | ask hf => exact .refl c
  | modifyWorld hf => exact .of_world (hf.extending c.world)
  | changeWorld hf => exact .of_world (hf.extending c.world)
  | push v => exact .of_stack c _
  | pushAll vs => exact .of_stack c _
  | pop =>
      rw [pop_run]
      cases c.proc.stack.pop? with
      | none => exact .refl c
      | some p => exact .of_stack c p.2
  | popMany n =>
      rw [popMany_run]
      cases c.proc.stack.popMany? n with
      | none => exact .refl c
      | some p => exact .of_stack c p.2
  | peek offset =>
      rw [peek_run]
      split
      · split <;> exact .refl c
      · exact .refl c
  | swap i =>
      rw [swap_run]
      split
      · split
        · exact .of_stack c _
        · exact .refl c
      · exact .refl c
  | forStep =>
      rcases forStep_run c with ⟨var, limit, step, -, -, -, hrun⟩ | ⟨e, hrun⟩
      · rw [hrun]
        exact .of_stack c _
      · rw [hrun]
        exact .refl c
  | jumpTo ip => exact ⟨.refl _, .refl _, rfl, rfl, rfl, rfl⟩
  | viewTop =>
      cases htop : c.proc.frames.top? with
      | none =>
          rw [viewTop_run_none htop]
          exact .refl c
      | some f =>
          rw [viewTop_run htop]
          exact .refl c
  | updateTop locals pendingArgs =>
      cases htop : c.proc.frames.top? with
      | none =>
          rw [updateTop_run_none htop]
          exact .refl c
      | some f =>
          rw [updateTop_run htop]
          refine ⟨.refl _, ?_, rfl, rfl, rfl, rfl⟩
          obtain ⟨rest, hitems⟩ : ∃ rest, c.proc.frames.items = f :: rest :=
            List.head?_eq_some_iff.mp htop
          change FramesAlike _ (c.proc.frames.items.set 0 _)
          rw [hitems, List.set_cons_zero]
          refine .cons ?_ rest
          exact ⟨rfl, rfl, rfl, rfl, rfl⟩
  | fetch =>
      rw [fetch_run]
      split
      · exact .refl c
      · split
        · exact .refl c
        · exact ⟨.refl _, .refl _, rfl, rfl, rfl, rfl⟩

/-! ## Calls -/

/-- What a call comes to. -/
inductive Called (c : Core H) (flags : FrameFlags) (returnAddress : Nat)
    (handlers : Handlers) :
    EStateM.Result RuntimeError (Core H) Outcome → Prop where
  | failed (e : ScriptError) (h : handlers.errorHandler? = none) :
      Called c flags returnAddress handlers (.error (.script e) c)
  | recovered (e : ScriptError) (handler : NativeRef)
      (h : handlers.errorHandler? = some handler) :
      Called c flags returnAddress handlers
        (.ok (.recover e handlers.beforeUnwind? handler flags returnAddress) c)
  | entered (f : FunctionRef) (args : List Value)
      (hdepth : c.proc.frames.height < c.world.settings.maxCallDepth) :
      Called c flags returnAddress handlers
        (.ok .proceed { c with
          proc := { c.proc.pushFrame
            { callee := .function f, base := c.proc.stack.height, returnAddress
              flags, handlers, pendingArgs := args } with
            ip := (c.world.closure f).entry
            chunk? := some (c.world.closure f).chunk } })
  | invoked (f : NativeRef) (args : Arguments)
      (hdepth : c.proc.frames.height < c.world.settings.maxCallDepth) :
      Called c flags returnAddress handlers
        (.ok (.invoke f args) { c with
          proc := c.proc.pushFrame
            { callee := .native f, base := c.proc.stack.height, returnAddress
              flags, handlers } })

variable [HostObjects H]

omit [HostObjects H] in
theorem called_failCall (e : ScriptError) (flags : FrameFlags)
    (returnAddress : Nat) (handlers : Handlers) (c : Core H) :
    Called c flags returnAddress handlers
      (failCall e flags returnAddress handlers c) := by
  unfold failCall
  cases hhandler : handlers.errorHandler? with
  | none => exact .failed e hhandler
  | some handler => exact .recovered e handler hhandler

omit [HostObjects H] in
theorem called_enter (callee : Callee) (args : List Value) (flags : FrameFlags)
    (returnAddress : Nat) (handlers : Handlers) (c : Core H) :
    Called c flags returnAddress handlers
      (enter callee args flags returnAddress handlers c) := by
  rw [enter, run_bind_of_ok (askProc_run _ c), run_bind_of_ok (ask_run _ c)]
  by_cases hdepth : c.world.settings.maxCallDepth ≤ c.proc.frames.height
  · rw [if_pos hdepth]
    exact called_failCall _ flags returnAddress handlers c
  · rw [if_neg hdepth, run_bind_of_ok (askProc_run _ c)]
    have hroom : c.proc.frames.height < c.world.settings.maxCallDepth := by
      omega
    cases callee with
    | function f => exact .entered f args hroom
    | native f => exact .invoked f _ hroom

theorem called_call (function : Value) (args : List Value) (flags : FrameFlags)
    (returnAddress : Nat) (handlers : Handlers) (c : Core H) :
    Called c flags returnAddress handlers
      (call function args flags returnAddress handlers c) := by
  rw [call, run_bind_of_ok (ask_run _ c)]
  cases c.world.callee maxCallHops function.toScalar (flattenArgs args) with
  | ok resolved => exact called_enter _ _ _ _ _ c
  | error v => exact called_failCall _ _ _ _ c

/-! ## Results -/

/-- What becomes of a result that is handed on. -/
inductive Delivered (c : Core H) (flags : FrameFlags) (returnAddress : Nat)
    (v? : Option Value) :
    EStateM.Result RuntimeError (Core H) Outcome → Prop where
  | returned (h : flags.entryPoint = true) :
      Delivered c flags returnAddress v? (.ok (.return (v?.getD .void)) c)
  | awaited (h : flags.entryPoint = false) (top : Frame) (rest : Stack Frame)
      (hframes : c.proc.frames = rest.push top)
      (hawaiting : top.flags.awaiting = true) :
      Delivered c flags returnAddress v?
        (.ok (.finish top (v?.getD .void))
          { c with proc := { c.proc with frames := rest } })
  | bottom (h : flags.entryPoint = false) (hframes : c.proc.frames.items = []) :
      Delivered c flags returnAddress v?
        (.ok .proceed { c with
          proc := { c.proc with
            stack := c.proc.stack.pushAll v?.toList
            ip := returnAddress } })
  | resumed (h : flags.entryPoint = false) (top : Frame)
      (hframes : c.proc.frames.top? = some top)
      (hawaiting : top.flags.awaiting = false) :
      Delivered c flags returnAddress v?
        (.ok .proceed { c with
          proc := { c.proc with
            stack := c.proc.stack.pushAll v?.toList
            ip := returnAddress
            chunk? :=
              match top.callee with
              | .function f => some (c.world.closure f).chunk
              | .native _ => c.proc.chunk? } })

omit [HostObjects H] in
theorem popFrame?_run (c : Core H) :
    popFrame? c =
      match c.proc.frames.pop? with
      | some (f, frames) => .ok (some f) { c with proc := { c.proc with frames } }
      | none => .ok none c := by
  rw [popFrame?, run_bind_of_ok (askProc_run _ c)]
  cases c.proc.frames.pop? with
  | none => rfl
  | some p => rfl

omit [HostObjects H] in
theorem delivered_deliver (flags : FrameFlags) (returnAddress : Nat)
    (v? : Option Value) (c : Core H) :
    Delivered c flags returnAddress v? (deliver flags returnAddress v? c) := by
  unfold deliver
  by_cases hentry : flags.entryPoint = true
  · rw [if_pos hentry]
    exact .returned hentry
  · rw [if_neg hentry, run_bind_of_ok (askProc_run _ c)]
    have hinner : flags.entryPoint = false := by simpa using hentry
    cases htop : c.proc.frames.top? with
    | none => exact .bottom hinner (by simpa [Stack.top?] using htop)
    | some top =>
        dsimp only
        by_cases hawaiting : top.flags.awaiting = true
        · rw [if_pos hawaiting]
          obtain ⟨rest, hframes⟩ :
              ∃ rest : Stack Frame, c.proc.frames = rest.push top := by
            obtain ⟨items, hitems⟩ : ∃ items, c.proc.frames.items = top :: items :=
              List.head?_eq_some_iff.mp htop
            exact ⟨⟨items, items.length, rfl⟩, Stack.ext hitems⟩
          have hpop : popFrame? c =
              .ok (some top) { c with proc := { c.proc with frames := rest } } := by
            rw [popFrame?_run, hframes, Stack.pop?_push]
          rw [run_bind_of_ok hpop]
          exact .awaited hinner top rest hframes hawaiting
        · rw [if_neg hawaiting]
          have hnot : top.flags.awaiting = false := by simpa using hawaiting
          have hresumed := @Delivered.resumed H c flags returnAddress v?
            hinner top htop hnot
          cases hcallee : top.callee with
          | function f =>
              rw [hcallee] at hresumed
              exact hresumed
          | native f =>
              rw [hcallee] at hresumed
              exact hresumed

/-- What becomes of a result that first goes through a continuation. -/
inductive Finished (c : Core H) (frame : Frame) (v : Value) :
    EStateM.Result RuntimeError (Core H) Outcome → Prop where
  | delivered (v? : Option Value) {r : EStateM.Result RuntimeError (Core H) Outcome}
      (hpost : frame.handlers.continuation? = none ∧ v? = some v ∨
        ∃ p, frame.handlers.continuation? = some (.post p) ∧ p.apply v = .ok v?)
      (h : Delivered c frame.flags frame.returnAddress v? r) :
      Finished c frame v r
  | continued (f : NativeRef)
      (h : frame.handlers.continuation? = some (.native f)) :
      Finished c frame v
        (.ok (.tailCall { function := .native f, args := [v] }
          { entryPoint := frame.flags.entryPoint } frame.returnAddress) c)
  | notNumber (h : frame.handlers.continuation? = some (.post .length))
      (hv : v.toNumber? = none) :
      Finished c frame v (.error (.script .lengthNotNumber) c)

omit [HostObjects H] in
theorem finished_finish (frame : Frame) (v : Value) (c : Core H) :
    Finished c frame v (finish frame v c) := by
  unfold finish
  cases hcontinuation : frame.handlers.continuation? with
  | none =>
      exact .delivered (some v) (Or.inl ⟨hcontinuation, rfl⟩)
        (delivered_deliver _ _ _ c)
  | some continuation =>
      cases continuation with
      | native f => exact .continued f hcontinuation
      | post p =>
          cases hpost : p.apply v with
          | ok v? =>
              have hrun : ofScript (p.apply v) c = .ok v? c := by
                rw [hpost]
                rfl
              dsimp only
              rw [run_bind_of_ok hrun]
              exact .delivered v? (Or.inr ⟨p, hcontinuation, hpost⟩)
                (delivered_deliver _ _ _ c)
          | error e =>
              have hrun : ofScript (p.apply v) c = .error (.script e) c := by
                rw [hpost]
                rfl
              dsimp only
              rw [run_bind_of_error hrun]
              cases p with
              | length =>
                  simp only [PostReturn.apply] at hpost
                  split at hpost
                  · cases hpost
                  · next hnumber =>
                      cases hpost
                      exact .notNumber hcontinuation hnumber
              | _ => cases hpost

/-! ## Instructions and host functions -/

/-- What carrying out an intent comes to. -/
inductive Carried (c : Core H) :
    EStateM.Result RuntimeError (Core H) Outcome → Prop where
  | stepMatches : Carried c (.ok .proceed c)
  | calls {r : EStateM.Result RuntimeError (Core H) Outcome}
      (flags : FrameFlags) (hentry : flags.entryPoint = false)
      (handlers : Handlers) (hhandlers : handlers.errorHandler? = none)
      (h : Called c flags c.proc.ip handlers r)
      (hscript : ∀ f, handlers.continuation? ≠ some (.native f))
      (hawaiting : flags.awaiting = false) : Carried c r
  | replaces {r : EStateM.Result RuntimeError (Core H) Outcome}
      (caller : Frame) (rest : Stack Frame)
      (hframes : c.proc.frames = rest.push caller)
      (hcan : canTailCall c.proc = true) (flags : FrameFlags)
      (hentry : flags.entryPoint = caller.flags.entryPoint)
      (h : Called { c with
        proc := { c.proc with
          frames := rest
          stack := c.proc.stack.truncate caller.base } }
        flags caller.returnAddress {} r)
      (hawaiting : flags.awaiting = false) : Carried c r
  | returns {r : EStateM.Result RuntimeError (Core H) Outcome}
      (frame : Frame) (rest : Stack Frame)
      (hframes : c.proc.frames = rest.push frame) (v : Value)
      (h : Finished { c with
        proc := { c.proc with
          frames := rest
          stack := c.proc.stack.truncate frame.base } } frame v r) :
      Carried c r
  | lost (reason : String) : Carried c (.error (.internal reason) c)

omit [HostObjects H] in
theorem popFrame?_run_push {c : Core H} {frame : Frame} {rest : Stack Frame}
    (h : c.proc.frames = rest.push frame) :
    popFrame? c =
      .ok (some frame) { c with proc := { c.proc with frames := rest } } := by
  rw [popFrame?_run, h, Stack.pop?_push]

omit [HostObjects H] in
theorem popFrame?_run_empty {c : Core H} (h : c.proc.frames.items = []) :
    popFrame? c = .ok none c := by
  rw [popFrame?_run, Stack.pop?_eq_none_iff.mpr h]

omit [HostObjects H] in
theorem frames_cases (c : Core H) :
    c.proc.frames.items = [] ∨
      ∃ frame rest, c.proc.frames = Stack.push rest frame := by
  cases hpop : c.proc.frames.pop? with
  | none => exact Or.inl (Stack.pop?_eq_none_iff.mp hpop)
  | some p => exact Or.inr ⟨p.1, p.2, Stack.pop?_eq_some_iff.mp hpop⟩

/-- A call in place of the frame that makes it has that one's address. -/
theorem called_placeCall (function : Value) (args : List Value) (methodCall : Bool)
    {c : Core H} {caller : Frame} {rest : Stack Frame} (hcan : canTailCall c.proc = true)
    (hframes : c.proc.frames = rest.push caller) :
    Called { c with
        proc := { c.proc with
          frames := rest
          stack := c.proc.stack.truncate caller.base } }
      { methodCall, tailCall := true, entryPoint := caller.flags.entryPoint }
      caller.returnAddress {} (placeCall function args methodCall c) := by
  rw [placeCall, run_bind_of_ok (askProc_run _ c), if_pos hcan,
    run_bind_of_ok (popFrame?_run_push hframes)]
  exact called_call function args _ _ _ _

theorem carried_placeCall (function : Value) (args : List Value)
    (methodCall : Bool) (c : Core H) :
    Carried c (placeCall function args methodCall c) := by
  by_cases hcan : canTailCall c.proc = true
  · rcases frames_cases c with hempty | ⟨caller, rest, hframes⟩
    · rw [placeCall, run_bind_of_ok (askProc_run _ c), if_pos hcan,
        run_bind_of_ok (popFrame?_run_empty hempty)]
      exact .lost _
    · refine .replaces caller rest hframes hcan
        { methodCall, tailCall := true, entryPoint := caller.flags.entryPoint } rfl ?_ rfl
      exact called_placeCall function args methodCall hcan hframes
  · rw [placeCall, run_bind_of_ok (askProc_run _ c), if_neg hcan,
      run_bind_of_ok (askProc_run _ c)]
    exact .calls _ rfl _ rfl (called_call function args _ _ _ c) nofun rfl

omit [HostObjects H] in
theorem carried_leaveFrame (v : Value) (c : Core H) :
    Carried c (leaveFrame v c) := by
  unfold leaveFrame
  rcases frames_cases c with hempty | ⟨frame, rest, hframes⟩
  · rw [run_bind_of_ok (popFrame?_run_empty hempty)]
    exact .lost _
  · rw [run_bind_of_ok (popFrame?_run_push hframes)]
    exact .returns frame rest hframes v (finished_finish frame v _)

theorem carried_carryOut (i : Intent) (c : Core H) :
    Carried c (carryOut i c) := by
  cases i with
  | proceed => exact .stepMatches
  | pending p =>
      rw [carryOut, callPending, run_bind_of_ok (askProc_run _ c)]
      exact .calls _ rfl _ rfl (called_call _ _ _ _ _ c) nofun rfl
  | call function args methodCall => exact carried_placeCall _ _ _ c
  | «return» v => exact carried_leaveFrame v c

/-- A step does something simple, and fails in it or carries out its intent. -/
theorem step_intent_cases (c : Core H) :
    (∃ e, step c = .error e (resultCore (stepIntent c))) ∨
      Carried (resultCore (stepIntent c)) (step c) := by
  rw [step_eq]
  cases hintent : stepIntent c with
  | error e c' => exact Or.inl ⟨e, run_bind_of_error hintent⟩
  | ok i c' =>
      rw [run_bind_of_ok hintent]
      exact Or.inr (carried_carryOut i c')

theorem step_cases (c : Core H) :
    (∃ e c', step c = .error e c' ∧ c.Plain c') ∨
      ∃ c', c.Plain c' ∧ Carried c' (step c) := by
  have hplain := simple_stepIntent.plain c
  rcases step_intent_cases c with ⟨e, hrun⟩ | hcarried
  · exact Or.inl ⟨e, _, hrun, hplain⟩
  · exact Or.inr ⟨_, hplain, hcarried⟩

/-- What the end of a host function comes to. -/
inductive Completed (c : Core H) :
    NativeOutcome → EStateM.Result RuntimeError (Core H) Outcome → Prop where
  | lost (outcome : NativeOutcome) (h : c.proc.frames.items = []) :
      Completed c outcome (.error (.internal "native frame lost") c)
  | returns (frame : Frame) (rest : Stack Frame)
      (hframes : c.proc.frames = rest.push frame) (v : Value)
      {r : EStateM.Result RuntimeError (Core H) Outcome}
      (h : Finished { c with proc := { c.proc with frames := rest } } frame v r) :
      Completed c (.result v) r
  | yields (frame : Frame) (rest : Stack Frame)
      (hframes : c.proc.frames = rest.push frame) (v : Value) :
      Completed c (.yield v) (.ok (.yield v) { c with
        proc := { c.proc with frames := rest, yielded? := some frame } })
  | replaced (frame : Frame) (rest : Stack Frame)
      (hframes : c.proc.frames = rest.push frame)
      (hhandlers : frame.handlers.isEmpty = true) (request : TailCallRequest) :
      Completed c (.tailCall request)
        (.ok (.tailCall request
            { entryPoint := frame.flags.entryPoint, tailCall := true }
            frame.returnAddress)
          { c with proc := { c.proc with frames := rest } })
  | waits (frame : Frame) (rest : Stack Frame)
      (hframes : c.proc.frames = rest.push frame)
      (hhandlers : frame.handlers.isEmpty = false) (request : TailCallRequest) :
      Completed c (.tailCall request)
        (.ok (.tailCall request {} frame.returnAddress)
          { c with
            proc := { c.proc with
              frames := rest.push
                { frame with flags := { frame.flags with awaiting := true } } } })

omit [HostObjects H] in
theorem completed_completeNative (outcome : NativeOutcome) (c : Core H) :
    Completed c outcome (completeNative outcome c) := by
  unfold completeNative
  rcases frames_cases c with hempty | ⟨frame, rest, hframes⟩
  · rw [run_bind_of_ok (popFrame?_run_empty hempty)]
    exact .lost outcome hempty
  · rw [run_bind_of_ok (popFrame?_run_push hframes)]
    cases outcome with
    | result v => exact .returns frame rest hframes v (finished_finish frame v _)
    | yield v => exact .yields frame rest hframes v
    | tailCall request =>
        dsimp only
        unfold tailFromNative
        by_cases hempty : frame.handlers.isEmpty = true
        · rw [if_pos hempty]
          exact .replaced frame rest hframes hempty request
        · rw [if_neg hempty]
          have hwaits : frame.handlers.isEmpty = false := Bool.eq_false_iff.mpr hempty
          exact .waits frame rest hframes hwaits request

/-! ## What none of them changes -/

omit [HostObjects H] in
theorem Called.keeps {c : Core H} {flags : FrameFlags} {returnAddress : Nat}
    {handlers : Handlers} {r : EStateM.Result RuntimeError (Core H) Outcome}
    (h : Called c flags returnAddress handlers r) : c.Keeps (resultCore r) := by
  cases h <;> exact ⟨rfl, rfl, rfl⟩

omit [HostObjects H] in
theorem Delivered.keeps {c : Core H} {flags : FrameFlags} {returnAddress : Nat}
    {v? : Option Value} {r : EStateM.Result RuntimeError (Core H) Outcome}
    (h : Delivered c flags returnAddress v? r) : c.Keeps (resultCore r) := by
  cases h <;> exact ⟨rfl, rfl, rfl⟩

omit [HostObjects H] in
theorem Finished.keeps {c : Core H} {frame : Frame} {v : Value}
    {r : EStateM.Result RuntimeError (Core H) Outcome}
    (h : Finished c frame v r) : c.Keeps (resultCore r) := by
  cases h with
  | delivered v? hpost h => exact h.keeps
  | continued f h => exact ⟨rfl, rfl, rfl⟩
  | notNumber h hv => exact ⟨rfl, rfl, rfl⟩

omit [HostObjects H] in
theorem Carried.keeps {c : Core H}
    {r : EStateM.Result RuntimeError (Core H) Outcome} (h : Carried c r) :
    c.Keeps (resultCore r) := by
  cases h with
  | stepMatches => exact ⟨rfl, rfl, rfl⟩
  | calls flags hentry handlers hhandlers h => exact h.keeps
  | replaces caller rest hframes hcan flags hentry h =>
      exact ⟨h.keeps.world, h.keeps.nesting, h.keeps.canYield⟩
  | returns frame rest hframes v h =>
      exact ⟨h.keeps.world, h.keeps.nesting, h.keeps.canYield⟩
  | lost reason => exact ⟨rfl, rfl, rfl⟩

omit [HostObjects H] in
theorem Completed.keeps {c : Core H} {outcome : NativeOutcome}
    {r : EStateM.Result RuntimeError (Core H) Outcome}
    (h : Completed c outcome r) : c.Keeps (resultCore r) := by
  cases h with
  | returns frame rest hframes v h =>
      exact ⟨h.keeps.world, h.keeps.nesting, h.keeps.canYield⟩
  | _ => exact ⟨rfl, rfl, rfl⟩

theorem step_extends (c : Core H) :
    c.world.Extends (resultCore (step c)).world := by
  rcases step_cases c with ⟨e, c', hrun, hplain⟩ | ⟨c', hplain, hcarried⟩
  · rw [hrun]
    exact hplain.world
  · rw [hcarried.keeps.world]
    exact hplain.world

theorem step_nesting (c : Core H) :
    (resultCore (step c)).proc.nesting = c.proc.nesting := by
  rcases step_cases c with ⟨e, c', hrun, hplain⟩ | ⟨c', hplain, hcarried⟩
  · rw [hrun]
    exact hplain.nesting
  · rw [hcarried.keeps.nesting]
    exact hplain.nesting

theorem step_canYield (c : Core H) :
    (resultCore (step c)).proc.canYield = c.proc.canYield := by
  rcases step_cases c with ⟨e, c', hrun, hplain⟩ | ⟨c', hplain, hcarried⟩
  · rw [hrun]
    exact hplain.canYield
  · rw [hcarried.keeps.canYield]
    exact hplain.canYield

end Exec

end ScriptEngine
