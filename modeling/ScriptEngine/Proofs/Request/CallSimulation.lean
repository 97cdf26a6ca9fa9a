import ScriptEngine.Proofs.Request.OtherCoroutines
import ScriptEngine.Proofs.Request.PlacedErrors

/-!
# A call and the request for it, step by step

A host function calls a value, or it asks for the call and is gone or waits meanwhile.  The call
runs in a loop of its own the one time and in the loop of the function the other time, on the
processor that `Exchange.placement` describes.  From step to step both come to the same, also where
loops are nested in the call or another coroutine is at work, until the call ends.
-/

namespace ScriptEngine

variable {H : HostTypes}

/-- A host function on top of the frames of a loop, about to call a value. -/
structure Exchange (H : HostTypes) where
  core : Core H
  /-- The frame of the function. -/
  caller : Frame
  /-- The other frames of the loop. -/
  own : List Frame
  /-- The frames below the loop. -/
  below : List Frame
  /-- The loop and what it is nested in. -/
  outer : List (Activation H)
  frames : core.proc.frames.items = caller :: (own ++ below)
  loop : InLoop outer
  floor : frameFloor outer = below.length
  nesting : 1 ≤ core.proc.nesting
  entry : caller.flags.entryPoint = true → own = []

namespace Exchange

/-- The frame of the function while it waits for the call it has asked for. -/
def waiting (x : Exchange H) : Frame :=
  { x.caller with flags := { x.caller.flags with awaiting := true } }

/-- The frames of the loop under a call that the function has asked for. -/
def rest (x : Exchange H) : List Frame :=
  if x.caller.handlers.isEmpty then x.own else x.waiting :: x.own

/-- The loop of a call and the frames of the call that was asked for. -/
def placement (x : Exchange H) : LoopPlacement where
  resultTarget := .moved (x.caller.handlers.isEmpty && x.caller.flags.entryPoint)
    x.caller.returnAddress
  lower := x.caller :: (x.own ++ x.below)
  rest := x.rest
  lower' := x.below
  nesting := x.core.proc.nesting
  short := by
    unfold rest
    split <;> simp
  alone := by
    intro h
    simp only [ResultTarget.entryPoint, Bool.and_eq_true] at h
    unfold rest
    rw [if_pos h.1]
    exact x.entry h.2
  loops := x.nesting
  inner := by simp

/-- What the function does with the result of its call: it is the function's own. -/
def forward (r : Except RuntimeError Value) : Action H NativeOutcome :=
  (Action.ofResult r).bind fun v => .done (.result v)

/-- The loop of the call. -/
def mark (x : Exchange H) : LoopMark :=
  ⟨x.core.proc.ip, x.core.proc.chunk?, x.core.proc.frames.height, x.core.proc.stack.height⟩

/-- The activations while the call runs in a loop of its own. -/
def inner (x : Exchange H) : List (Activation H) :=
  .call x.mark (.action forward) :: x.outer

end Exchange

/-! ## What is between the loop of the call and the innermost one -/

namespace LoopPlacement

variable {P : LoopPlacement} {fs gs : List Frame}

/-- A loop that is nested in the one with these frames. -/
def nest (P : LoopPlacement) (fs gs : List Frame) (h : P.resultTarget.Stacks fs gs) :
    LoopPlacement where
  resultTarget := .same
  lower := fs ++ P.lower
  rest := []
  lower' := gs ++ (P.rest ++ P.lower')
  nesting := P.nesting + 1
  short := by
    have hlength := h.length_eq
    have hshort := P.short
    simp only [List.nil_append, List.length_append] at hshort ⊢
    omega
  alone _ := rfl
  loops := by omega
  inner _ := by
    have hloops := P.loops
    omega

/-- What waits for the result of a nested call above these frames. -/
inductive Waits (P : LoopPlacement) (fs : List Frame) : Waiter H → Waiter H → Prop where
  | action (hne : fs ≠ []) (next : Except RuntimeError Value → Action H NativeOutcome) :
      Waits P fs (.action next) (.action next)
  | decorated {e e' : ScriptError} {rest rest' : List Value} (he : P.Errors e e')
      (hrest : P.Shows fs rest rest') : Waits P fs (.decorated e rest) (.decorated e' rest')
  | refused (e : ScriptError) (handler : NativeRef) {flags flags' : FrameFlags}
      {address address' : Nat} (h : P.resultTarget.Hands fs flags address flags' address') :
      Waits P fs (.refused e handler flags address) (.refused e handler flags' address')
  | recovered {flags flags' : FrameFlags} {address address' : Nat}
      (h : P.resultTarget.Hands fs flags address flags' address') :
      Waits P fs (.recovered flags address) (.recovered flags' address')
  | caught {flags flags' : FrameFlags} {address address' : Nat}
      (h : P.resultTarget.Hands fs flags address flags' address') :
      Waits P fs (.caught flags address) (.caught flags' address')

/-- What the machines do next above these frames. -/
inductive Controls (P : LoopPlacement) (fs : List Frame) : Control H → Control H → Prop where
  | loop {o o' : Outcome} (h : P.Outcomes fs o o') : Controls P fs (.loop o) (.loop o')
  | settling {o o' : Outcome} (h : P.Outcomes fs o o') :
      Controls P fs (.settling o) (.settling o')
  | failed (e : RuntimeError) : Controls P fs (.failed e) (.failed e)
  | unwinding {e e' : ScriptError} {decorators decorators' : List Value} (he : P.Errors e e')
      (h : P.Shows fs decorators decorators') :
      Controls P fs (.unwinding e decorators) (.unwinding e' decorators')
  | calling {w w' : Waiter H} (h : P.Waits fs w w') (function : Value) (args : List Value) :
      Controls P fs (.calling function args w) (.calling function args w')
  | leaving (hsame : P.resultTarget = .same) (exit : Except RuntimeError LoopExit)
      (hreturned : ∀ v, exit = .ok (.returned v) → fs = []) :
      Controls P fs (.leaving exit) (.leaving exit)
  | answering {w w' : Waiter H} (h : P.Waits fs w w') (result : Except RuntimeError Value) :
      Controls P fs (.answering w result) (.answering w' result)
  | running (hne : fs ≠ []) (a : Action H NativeOutcome) :
      Controls P fs (.running a) (.running a)

/-- The loops from that of the call up to the innermost one. -/
inductive Chain (x : Exchange H) :
    LoopPlacement → List (Activation H) → List (Activation H) → Prop where
  | own : Chain x x.placement x.inner x.outer
  | nested {P : LoopPlacement} {as bs : List (Activation H)} {fs gs : List Frame} {w w' : Waiter H}
      (h : Chain x P as bs) (hst : P.resultTarget.Stacks fs gs) (hw : P.Waits fs w w')
      (ip : Nat) (chunk? : Option Chunk) (stack : Nat) :
      Chain x (P.nest fs gs hst)
        (.call ⟨ip, chunk?, (fs ++ P.lower).length, stack⟩ w :: as)
        (.call ⟨ip, chunk?, (gs ++ (P.rest ++ P.lower')).length, stack⟩ w' :: bs)

namespace Chain

variable {x : Exchange H} {as bs : List (Activation H)}

theorem floor (h : Chain x P as bs) :
    frameFloor as = P.lower.length ∧ frameFloor bs = P.lower'.length := by
  cases h with
  | own =>
    refine ⟨?_, x.floor⟩
    change x.core.proc.frames.height = _
    rw [x.core.proc.frames.height_eq, x.frames]
    rfl
  | nested h hst hw ip chunk? stack => exact ⟨rfl, rfl⟩

/-- Only the result of the call itself goes somewhere else. -/
theorem own_of_ne_same (h : Chain x P as bs) (hmoved : P.resultTarget ≠ .same) :
    P = x.placement ∧ as = x.inner ∧ bs = x.outer := by
  cases h with
  | own => exact ⟨rfl, rfl, rfl⟩
  | nested h hst hw ip chunk? stack => exact absurd rfl hmoved

theorem inLoop (h : Chain x P as bs) : InLoop as ∧ InLoop bs := by
  cases h with
  | own => exact ⟨.call _ _ _, x.loop⟩
  | nested h hst hw ip chunk? stack => exact ⟨.call _ _ _, .call _ _ _⟩

end Chain

end LoopPlacement

namespace Machine

/-- No other coroutine has taken over from the loop. -/
def AtWork (own : List (Activation H)) (m : Machine H) : Prop :=
  ∃ loops, m.activations = loops ++ own ∧ ∀ a ∈ loops, a.coroutine? = none

theorem atWork_of_chain {x : Exchange H} {P : LoopPlacement} {as bs : List (Activation H)}
    (h : P.Chain x as bs) (core core' : Core H) (control control' : Control H) :
    AtWork x.inner ⟨core, as, control⟩ ∧ AtWork x.outer ⟨core', bs, control'⟩ := by
  induction h with
  | own => exact ⟨⟨[], rfl, by simp⟩, [], rfl, by simp⟩
  | nested h hst hw ip chunk? stack ih =>
    obtain ⟨⟨loops, has, hloops⟩, loops', hbs, hloops'⟩ := ih
    dsimp only at has hbs
    refine ⟨⟨.call _ _ :: loops, congrArg (_ :: ·) has, ?_⟩, .call _ _ :: loops',
      congrArg (_ :: ·) hbs, ?_⟩
    · simpa [Activation.coroutine?] using hloops
    · simpa [Activation.coroutine?] using hloops'

section

variable [Host H]

/-- What the function does depends on whether it may yield. -/
def Observes (core : Core H) (f : NativeRef) (args : Arguments) : Prop :=
  ∃ p : Processor, p.location? = core.proc.location? ∧
    Core.invoke ⟨core.world, p⟩ f args ≠ core.invoke f args

/-- What a call is told apart from a request by: in the loop of the call a function yields or asks
whether it may, or the budget is used up, or a limit is reached on its processor. -/
inductive Disturbs (own : List (Activation H)) (m : Machine H) : Prop where
  | yields (hown : m.activations = own) (v : Value) (h : m.control = .loop (.yield v))
  | suspends (hown : m.activations = own) (h : m.control = .loop .forceYield)
  | observes (hown : m.activations = own) (f : NativeRef) (args : Arguments)
      (h : m.control = .loop (.invoke f args)) (hobserves : Observes m.core f args)
  | overflows (hwork : m.AtWork own) (h : m.control = .failed (.script .stackOverflow))
  | refuses (hwork : m.AtWork own) (decorator? : Option Value) (handler : NativeRef)
      (flags : FrameFlags) (address : Nat)
      (h : m.control = .loop (.recover .stackOverflow decorator? handler flags address))
  | crowds (hwork : m.AtWork own) (waiter : Waiter H)
      (h : m.control = .answering waiter (.error (.script .stackOverflow)))

/-- Both machines are in the call. -/
inductive CallsMatch (x : Exchange H) : Machine H → Machine H → Prop where
  | here {P : LoopPlacement} {as bs : List (Activation H)} {fs gs : List Frame} {c c' : Core H}
      {control control' : Control H} (hchain : P.Chain x as bs) (h : P.Meets fs gs c c')
      (hcontrol : P.Controls fs control control') :
      CallsMatch x ⟨c, as, control⟩ ⟨c', bs, control'⟩
  /-- Another coroutine is at work. -/
  | elsewhere {P : LoopPlacement} {as bs : List (Activation H)} {fs gs : List Frame}
      {p q : Processor} (hchain : P.Chain x as bs) (hne : fs ≠ []) (h : P.Beside fs gs p q)
      (r : CoroutineRef) (k : Except RuntimeError Value → Action H NativeOutcome)
      {m m' : Machine H} (hover : Over (.switch r p k :: as) (.switch r q k :: bs) m m') :
      CallsMatch x m m'

/-- The call ends on both machines. -/
inductive CallsEnd (x : Exchange H) : Machine H → Machine H → Prop where
  | returned {c c' : Core H} (h : x.placement.Meets [] [] c c') {flags : FrameFlags}
      (hflags : flags.entryPoint = (x.caller.handlers.isEmpty && x.caller.flags.entryPoint))
      (v : Value) :
      CallsEnd x ⟨c, x.inner, .loop (.return v)⟩
        (exec .loop (Exec.deliver flags x.caller.returnAddress (some v)) c' x.outer)
  /-- The result is the answer of a handler in the call. -/
  | settled {c c' : Core H} (h : x.placement.Meets [] [] c c') {flags : FrameFlags}
      (hflags : flags.entryPoint = (x.caller.handlers.isEmpty && x.caller.flags.entryPoint))
      (v : Value) :
      CallsEnd x ⟨c, x.inner, .settling (.return v)⟩
        (exec .settling (Exec.deliver flags x.caller.returnAddress (some v)) c' x.outer)
  /-- Nothing in the call handles the error. -/
  | raised {fs gs : List Frame} {c c' : Core H} (h : x.placement.Meets fs gs c c')
      (hnone : Unhandled fs) {e e' : ScriptError} (he : e.Alike e') :
      CallsEnd x ⟨c, x.inner, .unwinding e []⟩
        ⟨c', x.outer, .unwinding e' (decoratorsOf (errorPath x.rest))⟩
  /-- An error that nothing can handle. -/
  | stopped {fs gs : List Frame} {c c' : Core H} (h : x.placement.Meets fs gs c c')
      {e : RuntimeError} (he : ∀ s, e ≠ .script s) :
      CallsEnd x ⟨c, x.inner, .failed e⟩ ⟨c', x.outer, .failed e⟩
  /-- The answer of a handler in the call is no length where one is due. -/
  | fumbled {fs gs : List Frame} {c c' : Core H} (h : x.placement.Meets fs gs c c') {f g : Frame}
      (hframes : x.placement.resultTarget.Frames fs f g)
      (hpost : f.handlers.continuation? = some (.post .length)) {v : Value}
      (hv : v.toNumber? = none) :
      CallsEnd x ⟨c, x.inner, .settling (.finish f v)⟩ ⟨c', x.outer, .settling (.finish g v)⟩

/-- What a step comes to. -/
inductive StepMatches (x : Exchange H) (m m' : Machine H) : Prop where
  | callsMatch (h : CallsMatch x m m')
  | callsEnd (h : CallsEnd x m m')
  | disturbs (h : Disturbs x.inner m ∨ Disturbs x.outer m')

variable {x : Exchange H} {P : LoopPlacement} {as bs : List (Activation H)} {fs gs : List Frame}
  {c c' : Core H}

theorem stepMatches_disturbed {y : Exec H Outcome} {core : Core H} {own acts : List (Activation H)}
    (hown : P.resultTarget ≠ .same → acts = own)
    (hwork : ∀ core control, AtWork own ⟨core, acts, control⟩) (h : P.Disturbs (y core)) :
    Disturbs own (exec .loop y core acts) := by
  unfold exec
  cases hrun : y core with
  | ok o core' =>
    rw [hrun] at h
    cases o with
    | recover e decorator? handler flags address =>
      change e = .stackOverflow at h
      subst h
      exact .refuses (hwork _ _) _ _ _ _ rfl
    | yield v => exact .yields (hown h) v rfl
    | forceYield => exact .suspends (hown h) rfl
    | _ => exact absurd h (by simp [LoopPlacement.Disturbs])
  | error e core' =>
    rw [hrun] at h
    cases e with
    | script e =>
      change e = .stackOverflow at h
      subst h
      exact .overflows (hwork _ _) rfl
    | _ => exact absurd h (by simp [LoopPlacement.Disturbs])

theorem stepMatches_pairs {route : Route} {y y' : Exec H Outcome} (hchain : P.Chain x as bs)
    (hok : route = .loop ∨ P.resultTarget = .same ∨ ∃ o c₁, y c = .ok o c₁)
    (h : P.Pairs (y c) (y' c')) : StepMatches x (exec route y c as) (exec route y' c' bs) := by
  unfold exec
  generalize y c = r at h hok
  generalize y' c' = r' at h
  cases h with
  | ok h ho =>
    cases route with
    | loop => exact .callsMatch (.here hchain h (.loop ho))
    | settling => exact .callsMatch (.here hchain h (.settling ho))
  | error h e =>
    cases route with
    | loop => exact .callsMatch (.here hchain h (.failed e))
    | settling =>
      obtain hloop | hsame | ⟨o, c₁, hok⟩ := hok
      · cases hloop
      · exact .callsMatch (.here hchain h (.leaving hsame _ (by simp)))
      · cases hok
  | @ended c c' entryPoint target hmoved h flags hflags v =>
    obtain ⟨rfl, rfl, rfl⟩ := hchain.own_of_ne_same (by rw [hmoved]; simp)
    obtain ⟨rfl, rfl⟩ := ResultTarget.moved.inj hmoved
    cases route with
    | loop => exact .callsEnd (.returned h hflags v)
    | settling => exact .callsEnd (.settled h hflags v)

theorem stepMatches_exec {y y' : Exec H Outcome} (hchain : P.Chain x as bs)
    (h : P.Joins (y c) (y' c')) : StepMatches x (exec .loop y c as) (exec .loop y' c' bs) := by
  rcases h with h | h | h
  · exact stepMatches_pairs hchain (Or.inl rfl) h
  · exact .disturbs (Or.inl
      (stepMatches_disturbed (fun hmoved => (hchain.own_of_ne_same hmoved).2.1)
      (fun core control => (atWork_of_chain hchain core c' control (.failed .terminated)).1) h))
  · exact .disturbs (Or.inr
      (stepMatches_disturbed (fun hmoved => (hchain.own_of_ne_same hmoved).2.2)
      (fun core control => (atWork_of_chain hchain c core (.failed .terminated) control).2) h))

/-! ## Steps in the innermost loop -/

theorem stepMatches_here {control control' : Control H} (hchain : P.Chain x as bs)
    (h : P.Meets fs gs c c') (hcontrol : P.Controls fs control control') :
    StepMatches x ⟨c, as, control⟩ ⟨c', bs, control'⟩ :=
  .callsMatch (.here hchain h hcontrol)

/-- Where no function may yield, none is told that it may. -/
theorem invoke_eq_of_same (h : P.Meets fs gs c c') (hsame : P.resultTarget = .same) (f : NativeRef)
    (args : Arguments) : c'.invoke f args = c.invoke f args := by
  obtain ⟨hyieldable, hyieldable'⟩ := h.isYieldable
  unfold Core.invoke
  rw [h.world, h.location_eq, hyieldable, hyieldable' hsame]

theorem stepMatches_invoke (hchain : P.Chain x as bs) (h : P.Meets fs gs c c') (hne : fs ≠ [])
    (f : NativeRef) (args : Arguments)
    (hquiet : ¬Disturbs x.inner ⟨c, as, .loop (.invoke f args)⟩) :
    StepMatches x ⟨c, as, .running (c.invoke f args)⟩ ⟨c', bs, .running (c'.invoke f args)⟩ := by
  have hinvoke : c'.invoke f args = c.invoke f args := by
    by_cases hsame : P.resultTarget = .same
    · exact invoke_eq_of_same h hsame f args
    · refine Classical.byContradiction fun hobserves => hquiet ?_
      refine .observes (hchain.own_of_ne_same hsame).2.1 f args rfl ⟨c'.proc, h.location_eq, ?_⟩
      rw [← h.world]
      exact hobserves
  rw [hinvoke]
  exact stepMatches_here hchain h (.running hne _)

omit [Host H] in
theorem checkYield_of_deep {core : Core H} (h : 1 < core.proc.nesting) :
    Exec.checkYield core =
      .error (.contract (if core.proc.canYield then .cannotYield else .yieldFromMain))
        { core with proc := { core.proc with yielded? := none } } := by
  unfold Exec.checkYield
  rw [Exec.run_bind_of_ok (Exec.askProc_run _ core), id_eq]
  by_cases hcan : core.proc.canYield = true
  · rw [if_neg (by simp [hcan]), if_pos h, if_pos hcan]
    rfl
  · rw [if_pos (by simp [hcan]), if_neg hcan]
    rfl

/-- A function that may not yield is refused alike on both processors. -/
theorem stepMatches_yield (hchain : P.Chain x as bs) (h : P.Meets fs gs c c')
    (hsame : P.resultTarget = .same) (v : Value) :
    StepMatches x (afterOutcome c as (.yield v)) (afterOutcome c' bs (.yield v)) := by
  have hloops := P.inner hsame
  have hnesting := h.beside.nesting
  have hnesting' := h.beside.nesting'
  have hrefused : Exec.checkYield c = _ := checkYield_of_deep (by omega)
  have hrefused' : Exec.checkYield c' = _ := checkYield_of_deep (by omega)
  unfold afterOutcome
  dsimp only
  rw [hrefused, hrefused', h.beside.canYield]
  exact stepMatches_here hchain (h.withYielded none) (.failed _)

theorem stepMatches_afterOutcome {o o' : Outcome} (hchain : P.Chain x as bs)
    (h : P.Meets fs gs c c') (ho : P.Outcomes fs o o')
    (hquiet : ¬Disturbs x.inner ⟨c, as, .loop o⟩) :
    StepMatches x (afterOutcome c as o) (afterOutcome c' bs o') := by
  cases ho with
  | proceed hne => exact stepMatches_exec hchain (Exec.joins_poll hne h)
  | finish hframes v => exact stepMatches_exec hchain (Or.inl (Exec.pairs_finish hframes v h))
  | invoke hne f args => exact stepMatches_invoke hchain h hne f args hquiet
  | recover hhands e decorator? handler =>
    cases decorator? with
    | none => exact stepMatches_here hchain h (.calling (.recovered hhands) _ _)
    | some decorator => exact stepMatches_here hchain h (.calling (.refused e handler hhands) _ _)
  | tailCall hhands request =>
      exact stepMatches_exec hchain (Exec.joins_callRequest request hhands h)
  | yield hsame v => exact stepMatches_yield hchain h hsame v
  | «return» hsame hnil v => exact stepMatches_here hchain h (.leaving hsame _ fun _ _ => hnil)

omit [Host H] in
theorem afterFailure_of_ne_script {e : RuntimeError} (he : ∀ s, e ≠ .script s) (core : Core H)
    (activations : List (Activation H)) :
    afterFailure core activations e =
      ⟨{ core with
          proc := { core.proc with
            frames := core.proc.frames.truncate (frameFloor activations) } },
        activations, .leaving (.error e)⟩ := by
  cases e with
  | script e => exact absurd rfl (he e)
  | _ => rfl

theorem stepMatches_afterFailure (e : RuntimeError) (hchain : P.Chain x as bs)
    (h : P.Meets fs gs c c')
    (hcallsEnd : ¬CallsEnd x ⟨c, as, .failed e⟩ ⟨c', bs, .failed e⟩) :
    StepMatches x (afterFailure c as e) (afterFailure c' bs e) := by
  obtain ⟨hfloor, hfloor'⟩ := hchain.floor
  by_cases hscript : ∃ s, e = .script s
  · obtain ⟨s, rfl⟩ := hscript
    unfold afterFailure
    dsimp only
    rw [hfloor, hfloor']
    exact stepMatches_here hchain h (.unwinding (h.located s) h.shows)
  · have he : ∀ s, e ≠ .script s := fun s hs => hscript ⟨s, hs⟩
    by_cases hsame : P.resultTarget = .same
    · have hrest : P.rest = [] := P.alone (by rw [hsame]; rfl)
      have hframes' := h.beside.frames'
      rw [hrest, List.nil_append] at hframes'
      rw [afterFailure_of_ne_script he, afterFailure_of_ne_script he, hfloor, hfloor']
      refine stepMatches_here hchain (h.withFrames .nil (items_truncate_append h.beside.frames) ?_)
        (.leaving hsame _ (by simp))
      rw [hrest]
      exact items_truncate_append hframes'
    · obtain ⟨rfl, rfl, rfl⟩ := hchain.own_of_ne_same hsame
      exact absurd (.stopped h he) hcallsEnd

theorem stepMatches_catchError {e e' : ScriptError} {decorators' : List Value}
    (hchain : P.Chain x as bs) (h : P.Meets fs gs c c') (he : P.Errors e e')
    (hshows : P.Shows fs [] decorators')
    (hcallsEnd : ¬CallsEnd x ⟨c, as, .unwinding e []⟩ ⟨c', bs, .unwinding e' decorators'⟩) :
    StepMatches x (catchError c as e) (next ⟨c', bs, .unwinding e' decorators'⟩) := by
  obtain ⟨hfloor, hfloor'⟩ := hchain.floor
  cases hshows with
  | handled hhandled =>
    rcases handler_cases fs with hnone | ⟨path, d, rest, handler, rfl, hpath, hd⟩
    · exact absurd hnone hhandled
    · obtain ⟨c₁, c₁', d', rest', hmeets, hframes, hcaught, hcaught'⟩ :=
        h.catchError hfloor hfloor' hpath hd e e'
      change StepMatches x _ (catchError c' bs e')
      rw [hcaught, hcaught', he.alike.value_eq]
      exact stepMatches_here hchain hmeets (.calling (.caught hframes.hands) _ _)
  | passing hnone =>
    by_cases hsame : P.resultTarget = .same
    · have hrest : P.rest = [] := P.alone (by rw [hsame]; rfl)
      have hframes' := h.beside.frames'
      obtain ⟨hpath, hpath'⟩ := h.beside.framesAlike.errorPath_of_unhandled hnone P.alone
      have hgs : gs = fs := (hsame ▸ h.beside.framesAlike).eq_of_same
      rw [hrest, List.nil_append] at hframes'
      obtain ⟨frames, hitems, hcaught⟩ :=
        catchError_of_unhandled e h.beside.frames hfloor.symm hnone hpath
      obtain ⟨frames', hitems', hcaught'⟩ :=
        catchError_of_unhandled e' hframes' hfloor'.symm (hgs ▸ hnone) (hgs ▸ hpath)
      rw [hrest]
      change StepMatches x _ (catchError c' bs e')
      rw [hcaught, hcaught', he.same hsame]
      refine stepMatches_here hchain (h.withFrames .nil hitems ?_) (.leaving hsame _ (by simp))
      rw [hrest]
      exact hitems'
    · obtain ⟨rfl, rfl, rfl⟩ := hchain.own_of_ne_same hsame
      exact absurd (.raised h hnone he.alike) hcallsEnd

theorem stepMatches_unwinding {e e' : ScriptError} {decorators decorators' : List Value}
    (hchain : P.Chain x as bs) (h : P.Meets fs gs c c') (he : P.Errors e e')
    (hshows : P.Shows fs decorators decorators')
    (hcallsEnd : ¬CallsEnd x ⟨c, as, .unwinding e decorators⟩ ⟨c', bs, .unwinding e' decorators'⟩) :
    StepMatches x (next ⟨c, as, .unwinding e decorators⟩)
      (next ⟨c', bs, .unwinding e' decorators'⟩) := by
  cases decorators with
  | nil => exact stepMatches_catchError hchain h he hshows hcallsEnd
  | cons d rest =>
    obtain ⟨rest', rfl, hrest⟩ := hshows.tail
    change StepMatches x ⟨c, as, .calling d [e.value] (.decorated e rest)⟩
      ⟨c', bs, .calling d [e'.value] (.decorated e' rest')⟩
    rw [he.alike.value_eq]
    exact stepMatches_here hchain h (.calling (.decorated he hrest) _ _)

theorem stepMatches_beginCall {w w' : Waiter H} (hchain : P.Chain x as bs)
    (h : P.Meets fs gs c c') (hw : P.Waits fs w w') (function : Value) (args : List Value) :
    StepMatches x (beginCall c as function args w) (beginCall c' bs function args w') := by
  obtain ⟨world, p⟩ := c
  obtain ⟨world', q⟩ := c'
  obtain rfl : world' = world := h.world
  have hnesting : p.nesting = P.nesting + 1 := h.beside.nesting
  have hnesting' : q.nesting = P.nesting := h.beside.nesting'
  rcases Nat.lt_or_ge p.nesting world'.settings.maxNativeNesting with hroom | hfull
  · have hroom' : q.nesting < world'.settings.maxNativeNesting := by omega
    have hip : q.ip = p.ip := h.beside.ip
    have hchunk : q.chunk? = p.chunk? := h.beside.chunk
    have hstack : q.stack = p.stack := h.beside.stack
    have hheight : p.frames.height = (fs ++ P.lower).length := by
      rw [p.frames.height_eq, h.beside.frames]
    have hheight' : q.frames.height = (gs ++ (P.rest ++ P.lower')).length := by
      rw [q.frames.height_eq, h.beside.frames']
    have hmark : p.mark = ⟨p.ip, p.chunk?, (fs ++ P.lower).length, p.stack.height⟩ := by
      rw [Processor.mark, hheight]
    have hmark' : q.mark =
        ⟨p.ip, p.chunk?, (gs ++ (P.rest ++ P.lower')).length, p.stack.height⟩ := by
      rw [Processor.mark, hip, hchunk, hheight', hstack]
    rw [beginCall_of_room ⟨world', p⟩ hroom, beginCall_of_room ⟨world', q⟩ hroom']
    dsimp only
    rw [hmark, hmark', hip]
    have hchain' := hchain.nested h.beside.framesAlike hw p.ip p.chunk? p.stack.height
    have hmeets : (P.nest fs gs h.beside.framesAlike).Meets [] []
        (Core.nested ⟨world', p⟩) (Core.nested ⟨world', q⟩) :=
      ⟨rfl, hstack, hip, hchunk, h.beside.canYield, h.beside.yielded, congrArg (· + 1) hnesting,
        congrArg (· + 1) hnesting', h.beside.frames, h.beside.frames', .nil⟩
    have hhands :
        ResultTarget.same.Hands [] { entryPoint := true } p.ip { entryPoint := true } p.ip :=
      Or.inl ⟨rfl, rfl, rfl, rfl⟩
    exact stepMatches_exec hchain' (Exec.joins_call function args hhands (by simp) hmeets)
  · rw [beginCall_of_crowded ⟨world', p⟩ hfull]
    exact .disturbs (Or.inl
      (.crowds (atWork_of_chain hchain _ ⟨world', p⟩ _ (.failed .terminated)).1
      w rfl))

theorem stepMatches_endCall {w w' : Waiter H} (hchain : P.Chain x as bs)
    (hst : P.resultTarget.Stacks fs gs) (hw : P.Waits fs w w') (ip : Nat) (chunk? : Option Chunk)
    (stack : Nat) {fs' gs' : List Frame} (h : (P.nest fs gs hst).Meets fs' gs' c c')
    (exit : Except RuntimeError LoopExit) (hreturned : ∀ v, exit = .ok (.returned v) → fs' = []) :
    StepMatches x (endCall c as ⟨ip, chunk?, (fs ++ P.lower).length, stack⟩ w exit)
      (endCall c' bs ⟨ip, chunk?, (gs ++ (P.rest ++ P.lower')).length, stack⟩ w' exit) := by
  obtain ⟨world, p⟩ := c
  obtain ⟨world', q⟩ := c'
  obtain rfl : world' = world := h.world
  have hnesting : p.nesting = P.nesting + 1 + 1 := h.beside.nesting
  have hnesting' : q.nesting = P.nesting + 1 := h.beside.nesting'
  have hstack : q.stack = p.stack := h.beside.stack
  have hframes : p.frames.items = fs' ++ (fs ++ P.lower) := h.beside.frames
  have hframes' : q.frames.items = gs' ++ (gs ++ (P.rest ++ P.lower')) := h.beside.frames'
  have hback (frames frames' : Stack Frame) (operands : Stack Value)
      (hitems : frames.items = fs ++ P.lower)
      (hitems' : frames'.items = gs ++ (P.rest ++ P.lower')) :
      P.Meets fs gs
        ⟨world', { p with
          stack := operands, frames, ip, chunk?, nesting := p.nesting - 1 }⟩
        ⟨world', { q with
          stack := operands, frames := frames', ip, chunk?, nesting := q.nesting - 1 }⟩ :=
    ⟨rfl, rfl, rfl, rfl, h.beside.canYield, h.beside.yielded, by dsimp only; omega,
      by dsimp only; omega, hitems, hitems', hst⟩
  have hcut := hback _ _ (p.stack.truncate stack) (items_truncate_append hframes)
    (items_truncate_append hframes')
  unfold endCall
  dsimp only
  rw [hstack]
  rcases exit with e | exit
  · exact stepMatches_here hchain hcut (.answering hw _)
  · cases exit with
    | returned v =>
      obtain rfl := hreturned v rfl
      have hnil := h.beside.framesAlike.nil_of_nil
      subst hnil
      exact stepMatches_here hchain (hback _ _ p.stack hframes hframes') (.answering hw _)
    | yielded v => exact stepMatches_here hchain hcut (.answering hw _)
    | forceYielded => exact stepMatches_here hchain hcut (.answering hw _)

theorem stepMatches_leave (hchain : P.Chain x as bs) (h : P.Meets fs gs c c')
    (hsame : P.resultTarget = .same) (exit : Except RuntimeError LoopExit)
    (hreturned : ∀ v, exit = .ok (.returned v) → fs = []) :
    StepMatches x (leave c as exit) (leave c' bs exit) := by
  cases hchain with
  | own => cases hsame
  | nested hchain hst hw ip chunk? stack =>
    exact stepMatches_endCall hchain hst hw ip chunk? stack h exit hreturned

theorem errors_afterDecorator {e e' : ScriptError} (he : P.Errors e e')
    (result : Except RuntimeError Value) :
    P.Errors (afterDecorator e result) (afterDecorator e' result) := by
  refine ⟨?_, fun hsame => by rw [he.same hsame]⟩
  cases result with
  | ok v => exact he.alike.replaceValue _
  | error _ => rfl

omit [Host H] in
theorem deliver_isOk (flags : FrameFlags) (address : Nat) (v? : Option Value) (c : Core H) :
    ∃ o c₁, Exec.deliver flags address v? c = .ok o c₁ := by
  have h := Exec.delivered_deliver flags address v? c
  generalize Exec.deliver flags address v? c = r at h
  cases h <;> exact ⟨_, _, rfl⟩

theorem stepMatches_answer {w w' : Waiter H} (hchain : P.Chain x as bs)
    (h : P.Meets fs gs c c') (hw : P.Waits fs w w') (result : Except RuntimeError Value) :
    StepMatches x (answer c as result w) (answer c' bs result w') := by
  cases hw with
  | action hne next => exact stepMatches_here hchain h (.running hne _)
  | decorated he hrest =>
    exact stepMatches_here hchain h (.unwinding (errors_afterDecorator he result) hrest)
  | refused e handler hhands => exact stepMatches_here hchain h (.calling (.recovered hhands) _ _)
  | recovered hhands =>
    cases result with
    | ok v => exact stepMatches_exec hchain (Or.inl (Exec.pairs_deliver hhands (fun _ => rfl) h))
    | error e => exact stepMatches_here hchain h (.failed e)
  | caught hhands =>
    cases result with
    | ok v =>
      exact stepMatches_pairs hchain (Or.inr (Or.inr (deliver_isOk _ _ _ _)))
        (Exec.pairs_deliver hhands (fun _ => rfl) h)
    | error e => exact stepMatches_here hchain h (.failed e)

theorem stepMatches_settle {o o' : Outcome} (hchain : P.Chain x as bs) (h : P.Meets fs gs c c')
    (ho : P.Outcomes fs o o')
    (hcallsEnd : ¬CallsEnd x ⟨c, as, .settling o⟩ ⟨c', bs, .settling o'⟩) :
    StepMatches x (settle c as o) (settle c' bs o') := by
  cases ho with
  | @finish f g hframes v =>
    refine stepMatches_pairs hchain (Or.inr ?_) (Exec.pairs_finish hframes v h)
    by_cases hsame : P.resultTarget = .same
    · exact Or.inl hsame
    · obtain ⟨rfl, rfl, rfl⟩ := hchain.own_of_ne_same hsame
      right
      have hfinished := Exec.finished_finish f v c
      generalize Exec.finish f v c = r at hfinished
      cases hfinished with
      | delivered v? hpost hdelivered => cases hdelivered <;> exact ⟨_, _, rfl⟩
      | continued k hk => exact ⟨_, _, rfl⟩
      | notNumber hpost hv => exact absurd (.fumbled h hframes hpost hv) hcallsEnd
  | proceed hne => exact stepMatches_here hchain h (.loop (.proceed hne))
  | invoke hne f args => exact stepMatches_here hchain h (.loop (.invoke hne f args))
  | recover hhands e decorator? handler =>
    exact stepMatches_here hchain h (.loop (.recover hhands e decorator? handler))
  | tailCall hhands request => exact stepMatches_here hchain h (.loop (.tailCall hhands request))
  | yield hsame v => exact stepMatches_here hchain h (.loop (.yield hsame v))
  | «return» hsame hnil v => exact stepMatches_here hchain h (.loop (.return hsame hnil v))

/-- Another coroutine takes over. -/
theorem stepMatches_elsewhere (hchain : P.Chain x as bs) (hne : fs ≠ []) (h : P.Meets fs gs c c')
    (r : CoroutineRef) (k : Except RuntimeError Value → Action H NativeOutcome)
    {m m' : Machine H}
    (hover : Over (.switch r c.proc k :: as) (.switch r c'.proc k :: bs) m m') :
    StepMatches x m m' :=
  .callsMatch (.elsewhere hchain hne h.beside r k hover)

theorem stepMatches_act (hchain : P.Chain x as bs) (h : P.Meets fs gs c c') (hne : fs ≠ [])
    (a : Action H NativeOutcome) : StepMatches x (act c as a) (act c' bs a) := by
  obtain ⟨hloop, hloop'⟩ := hchain.inLoop
  cases a with
  | done outcome =>
    rw [act_done hloop, act_done hloop']
    exact stepMatches_exec hchain (Exec.joins_completeNative outcome hne h)
  | fail e =>
    rw [act_fail hloop, act_fail hloop']
    exact stepMatches_here hchain h (.failed e)
  | read next =>
    unfold act
    dsimp only
    rw [h.world]
    exact stepMatches_here hchain h (.running hne _)
  | write change next =>
    obtain ⟨world, p⟩ := c
    obtain ⟨world', q⟩ := c'
    obtain rfl : world' = world := h.world
    exact stepMatches_here hchain (h.withWorld (change world')) (.running hne next)
  | call function args next => exact stepMatches_here hchain h (.calling (.action hne next) _ _)
  | resume r args next =>
    obtain ⟨world, p⟩ := c
    obtain ⟨world', q⟩ := c'
    obtain rfl : world' = world := h.world
    unfold act resume
    dsimp only
    cases world'.resumeRefusal? r args with
    | some e => exact stepMatches_here hchain h (.running hne _)
    | none => exact stepMatches_elsewhere hchain hne h r next (over_runCoroutine [] _ _ _ _)
  | enterMain function args next =>
    obtain ⟨world, p⟩ := c
    obtain ⟨world', q⟩ := c'
    obtain rfl : world' = world := h.world
    unfold act enterMain
    dsimp only
    cases (world'.coroutine world'.main).processor? with
    | none => exact stepMatches_here hchain h (.running hne _)
    | some proc => exact stepMatches_elsewhere hchain hne h _ next (.mk _ [] _)

/-- Two machines in the call are together after a step, unless the call ends with it or something
tells the call apart from a request. -/
theorem CallsMatch.next {m m' : Machine H} (h : CallsMatch x m m') (hcallsEnd : ¬CallsEnd x m m')
    (hquiet : ¬Disturbs x.inner m) : StepMatches x m.next m'.next := by
  cases h with
  | here hchain h hcontrol =>
    cases hcontrol with
    | loop ho => exact stepMatches_afterOutcome hchain h ho hquiet
    | settling ho => exact stepMatches_settle hchain h ho hcallsEnd
    | failed e => exact stepMatches_afterFailure e hchain h hcallsEnd
    | unwinding he hshows => exact stepMatches_unwinding hchain h he hshows hcallsEnd
    | calling hw function args => exact stepMatches_beginCall hchain h hw function args
    | leaving hsame exit hreturned => exact stepMatches_leave hchain h hsame exit hreturned
    | answering hw result => exact stepMatches_answer hchain h hw result
    | running hne a => exact stepMatches_act hchain h hne a
  | @elsewhere P as bs fs gs p q hchain hne h r k _ _ hover =>
    rcases hover.next with hover' | ⟨exit, hswitching, hactivations, hactivations'⟩
    · exact .callsMatch (.elsewhere hchain hne h r k hover')
    · obtain ⟨core, guest, control⟩ := hover
      dsimp only at hswitching hactivations hactivations'
      subst hswitching
      change StepMatches x (switchBack core _ exit) (switchBack core _ exit)
      rw [hactivations, hactivations']
      exact stepMatches_here hchain ⟨rfl, h⟩ (.running hne _)

end

end Machine

end ScriptEngine
