import ScriptEngine.Proofs.Frame.Heights

/-!
# What a nested call leaves alone

A nested call has the frames and operands of its processor below it until it
ends.  Loops may nest further on the same processor, and the processor may wait
for those of other coroutines; whatever runs in between, the call ends with what
it found.
-/

namespace ScriptEngine

variable {H : HostTypes}

/-- A nested call and what of its processor has to outlast it. -/
structure Enclosure (H : HostTypes) where
  mark : LoopMark
  waiter : Waiter H
  /-- The activations that the call was made in. -/
  outer : List (Activation H)
  below : List Frame
  operands : List Value
  canYield : Bool
  frames_eq : below.length = mark.frames
  operands_le : operands.length ≤ mark.stack

namespace Enclosure

/-- The call itself is the innermost loop. -/
def loop (k : Enclosure H) : List (Activation H) :=
  .call k.mark k.waiter :: k.outer

/-- Nested loops that have begun since. -/
def Spans (k : Enclosure H) (calls : List (Activation H)) : Prop :=
  ∀ a ∈ calls, ∃ mark waiter, a = .call mark waiter ∧
    k.below.length ≤ mark.frames ∧ k.operands.length ≤ mark.stack

/-- The processor of the call. -/
structure Holds (k : Enclosure H) (p : Processor) : Prop where
  spared : ∃ above, p.Over k.operands above k.below
  canYield : p.canYield = k.canYield

/-- The call has begun and not ended. -/
inductive Lasts (k : Enclosure H) (m : Machine H) : Prop where
  | executing (calls : List (Activation H)) (hcalls : k.Spans calls)
      (h : m.activations = calls ++ k.loop) (hholds : k.Holds m.core.proc)
  | waiting (inner : List (Activation H)) (r : CoroutineRef) (outer : Processor)
      (next : Except RuntimeError Value → Action H NativeOutcome)
      (calls : List (Activation H)) (hcalls : k.Spans calls)
      (h : m.activations = inner ++ .switch r outer next :: (calls ++ k.loop))
      (hholds : k.Holds outer)

/-- The call has a result, and what was below it is there. -/
structure Left (k : Enclosure H) (m : Machine H) : Prop where
  activations : m.activations = k.outer
  control : ∃ result, m.control = .answering k.waiter result
  frames : m.core.proc.frames.items = k.below
  operands : k.operands <:+ m.core.proc.stack.items
  height : m.core.proc.stack.height ≤ k.mark.stack
  ip : m.core.proc.ip = k.mark.ip
  chunk : m.core.proc.chunk? = k.mark.chunk?
  canYield : m.core.proc.canYield = k.canYield

theorem Holds.of_same {k : Enclosure H} {p p' : Processor} (h : k.Holds p)
    (hframes : p'.frames = p.frames) (hstack : p'.stack = p.stack)
    (hcan : p'.canYield = p.canYield) : k.Holds p' := by
  obtain ⟨above, hover⟩ := h.spared
  exact ⟨⟨above, hover.of_same hframes hstack⟩, hcan.trans h.canYield⟩

end Enclosure

namespace Machine

variable {k : Enclosure H} {calls : List (Activation H)} {core : Core H}

/-- The innermost of some loops, the call's own included, in this phase. -/
structure Enclosed (k : Enclosure H) (calls : List (Activation H)) (s : LoopPhase)
    (core : Core H) : Prop where
  spans : k.Spans calls
  holds : k.Holds core.proc
  stands : StandsOn s (calls ++ k.loop) core.proc.nesting core.proc.frames.items

theorem inLoop_of_encloses (hcalls : k.Spans calls) : InLoop (calls ++ k.loop) := by
  cases calls with
  | nil => exact .call _ _ _
  | cons a calls =>
      obtain ⟨mark, waiter, rfl, -, -⟩ := hcalls a List.mem_cons_self
      exact .call mark waiter _

theorem encloses_tail {a : Activation H} (h : k.Spans (a :: calls)) :
    k.Spans calls := by
  intro b hb
  exact h b (List.mem_cons_of_mem a hb)

/-- The innermost loop has its frames above those of the call. -/
theorem Enclosed.inner {s : LoopPhase} (h : Enclosed k calls s core) :
    ∃ above below, below.length = frameFloor (calls ++ k.loop) ∧ s.Fits above ∧
      core.proc.Over k.operands above below ∧
      ∀ p : Processor, p.canYield = core.proc.canYield →
        (∃ above, p.Over k.operands above below) → k.Holds p := by
  obtain ⟨above, below, hitems, hfits, hbase⟩ :=
    (standsOn_iff (inLoop_of_encloses h.spans)).mp h.stands
  have hfloor := hbase.floor
  have hdeep : k.below.length ≤ below.length := by
    rw [← hfloor]
    cases calls with
    | nil => exact Nat.le_of_eq k.frames_eq
    | cons a calls =>
        obtain ⟨mark, waiter, rfl, hframes, -⟩ := h.spans a List.mem_cons_self
        exact hframes
  obtain ⟨above', hover⟩ := h.holds.spared
  obtain ⟨between, rfl, rfl⟩ : ∃ between, above' = above ++ between ∧
      below = between ++ k.below := by
    have hsame : above' ++ k.below = above ++ below :=
      hover.frames.symm.trans hitems
    rcases List.append_eq_append_iff.mp hsame with ⟨l, habove, hl⟩ | ⟨l, habove, hl⟩
    · have hnil : l = [] := by
        have hlengths := congrArg List.length hl
        rw [List.length_append] at hlengths
        exact List.eq_nil_of_length_eq_zero (by omega)
      refine ⟨[], ?_, ?_⟩
      · rw [habove, hnil, List.append_nil, List.append_nil]
      · rw [hl, hnil]
        rfl
    · exact ⟨l, habove, hl⟩
  refine ⟨above, _, hfloor.symm, hfits, ⟨hitems, ?_, hover.operands⟩, ?_⟩
  · exact fun f hf => hover.bases f (List.mem_append_left _ hf)
  · rintro p hcan ⟨above'', hover'⟩
    refine ⟨⟨above'' ++ between, ?_, ?_, hover'.operands⟩,
      hcan.trans h.holds.canYield⟩
    · rw [hover'.frames, List.append_assoc]
    · intro f hf
      rcases List.mem_append.mp hf with hf | hf
      · exact hover'.bases f hf
      · exact hover.bases f (List.mem_append_right _ hf)

/-! ## Programs -/

theorem encloses_of_holds {control : Control H} {core' : Core H}
    (hcalls : k.Spans calls) (hholds : k.Holds core'.proc) :
    k.Lasts ⟨core', calls ++ k.loop, control⟩ :=
  .executing calls hcalls rfl hholds

theorem encloses_exec {route : Route} {x : Exec H Outcome} {core' : Core H}
    (hcalls : k.Spans calls) (hholds : k.Holds (Exec.resultCore (x core')).proc) :
    k.Lasts (exec route x core' (calls ++ k.loop)) := by
  unfold exec
  cases hx : x core' with
  | ok o c =>
      rw [hx] at hholds
      exact encloses_of_holds hcalls hholds
  | error e c =>
      rw [hx] at hholds
      exact encloses_of_holds hcalls hholds

theorem Enclosed.called {s : LoopPhase} {flags : FrameFlags} {returnAddress : Nat}
    {handlers : Handlers} {r : EStateM.Result RuntimeError (Core H) Outcome}
    (h : Enclosed k calls s core)
    (hcalled : Exec.Called core flags returnAddress handlers r) :
    k.Holds (Exec.resultCore r).proc := by
  obtain ⟨above, hover⟩ := h.holds.spared
  exact ⟨hcalled.over hover, hcalled.keeps.canYield.trans h.holds.canYield⟩

theorem Enclosed.delivered {flags : FrameFlags} {returnAddress : Nat}
    {v? : Option Value} {r : EStateM.Result RuntimeError (Core H) Outcome}
    (h : Enclosed k calls (.handing flags.entryPoint) core)
    (hdelivered : Exec.Delivered core flags returnAddress v? r) :
    k.Holds (Exec.resultCore r).proc := by
  obtain ⟨above, below, -, hfits, hover, hback⟩ := h.inner
  exact hback _ hdelivered.keeps.canYield
    (hdelivered.over hover (roomy_of_handing hfits))

theorem Enclosed.finished {frame : Frame} {v : Value}
    {r : EStateM.Result RuntimeError (Core H) Outcome}
    (h : Enclosed k calls (.handing frame.flags.entryPoint) core)
    (hfinished : Exec.Finished core frame v r) :
    k.Holds (Exec.resultCore r).proc := by
  obtain ⟨above, below, -, hfits, hover, hback⟩ := h.inner
  exact hback _ hfinished.keeps.canYield
    (hfinished.over hover (roomy_of_handing hfits))

theorem Enclosed.completed {outcome : NativeOutcome}
    {r : EStateM.Result RuntimeError (Core H) Outcome}
    (h : Enclosed k calls .working core)
    (hcompleted : Exec.Completed core outcome r) :
    k.Holds (Exec.resultCore r).proc := by
  obtain ⟨above, below, -, hfits, hover, hback⟩ := h.inner
  exact hback _ hcompleted.keeps.canYield
    (hcompleted.over hover (Exec.roomy_of_working hfits))

/-- Nothing has to be assumed of an instruction where no operands matter. -/
theorem Enclosed.stepped [HostObjects H] (h : Enclosed k calls .working core)
    (hsparing : k.operands = [] ∨ core.Sparing) :
    k.Holds (Exec.resultCore (Exec.step core)).proc := by
  obtain ⟨above, below, -, hfits, hover, hback⟩ := h.inner
  have hroom := Exec.roomy_of_working hfits
  refine hback _ (Exec.step_canYield core) ?_
  rcases hsparing with hnil | hsparing
  · refine Exec.step_over_of_suffix hover hroom ?_
    rw [hnil]
    exact List.nil_suffix
  · exact Exec.step_over hover hroom hsparing

theorem Enclosed.of_proc {s : LoopPhase} {core' : Core H}
    (h : Enclosed k calls s core)
    (hframes : core'.proc.frames = core.proc.frames)
    (hstack : core'.proc.stack = core.proc.stack)
    (hnesting : core'.proc.nesting = core.proc.nesting)
    (hcan : core'.proc.canYield = core.proc.canYield) :
    Enclosed k calls s core' := by
  refine ⟨h.spans, h.holds.of_same hframes hstack hcan, ?_⟩
  rw [hframes, hnesting]
  exact h.stands

section

variable [Host H]

theorem Enclosed.polled (h : Enclosed k calls .working core)
    (hsparing : k.operands = [] ∨ (counted core).Sparing) :
    k.Holds (Exec.resultCore (Exec.poll core)).proc := by
  have hcounted := h.of_proc (counted_frames core) (stack_counted core)
    (counted_nesting core) (canYield_counted core)
  rcases poll_cases core with hrun | hrun | hrun
  · rw [hrun]
    exact h.holds
  · rw [hrun]
    exact hcounted.holds
  · rw [hrun]
    exact hcounted.stepped hsparing

/-! ## Steps in the midst of loops -/

theorem encloses_afterOutcome {o : Outcome}
    (h : Enclosed k calls (o.phase core.proc) core)
    (hsparing : o = .proceed →
      k.operands = [] ∨ (counted core).Sparing) :
    k.Lasts (afterOutcome core (calls ++ k.loop) o) := by
  cases o with
  | proceed => exact encloses_exec h.spans (h.polled (hsparing rfl))
  | finish frame v =>
      exact encloses_exec h.spans (h.finished (Exec.finished_finish frame v core))
  | invoke f args => exact encloses_of_holds h.spans h.holds
  | recover e decorator? handler flags returnAddress =>
      cases decorator? with
      | none => exact encloses_of_holds h.spans h.holds
      | some decorator => exact encloses_of_holds h.spans h.holds
  | tailCall request flags returnAddress =>
      exact encloses_exec h.spans (h.called (Exec.called_call _ _ _ _ _ core))
  | yield v =>
      unfold afterOutcome
      rcases checkYield_cases core with hrun | ⟨violation, hrun⟩
      · rw [hrun]
        exact encloses_of_holds h.spans h.holds
      · rw [hrun]
        exact encloses_of_holds h.spans (h.holds.of_same rfl rfl rfl)
  | forceYield => exact encloses_of_holds h.spans h.holds
  | «return» v => exact encloses_of_holds h.spans h.holds

/-- A call that begins further in has all of the outer one below it. -/
theorem encloses_beginCall {waiter : Waiter H} (function : Value)
    (args : List Value) (h : Enclosed k calls waiter.phase core) :
    k.Lasts (beginCall core (calls ++ k.loop) function args waiter) := by
  rcases beginCall_cases core (calls ++ k.loop) function args waiter with
    hbegin | ⟨-, hbegin⟩
  all_goals rw [hbegin]
  · exact encloses_of_holds h.spans h.holds
  · obtain ⟨above, hover⟩ := h.holds.spared
    have hcalled := Exec.called_call function args { entryPoint := true } core.proc.ip {}
      core.nested
    have hspans : k.Spans (.call core.proc.mark waiter :: calls) := by
      intro a ha
      rcases List.mem_cons.mp ha with rfl | ha
      · refine ⟨_, waiter, rfl, ?_, ?_⟩
        · change k.below.length ≤ core.proc.frames.height
          rw [core.proc.frames.height_eq, hover.frames, List.length_append]
          omega
        · change k.operands.length ≤ core.proc.stack.height
          rw [core.proc.stack.height_eq]
          exact hover.operands.length_le
      · exact h.spans a ha
    exact encloses_exec hspans ⟨hcalled.over (hover.of_same rfl rfl),
      hcalled.keeps.canYield.trans h.holds.canYield⟩

omit [Host H] in
theorem encloses_answer {waiter : Waiter H} (result : Except RuntimeError Value)
    (h : Enclosed k calls waiter.phase core)
    (hwaiter : waiter.Fits (calls ++ k.loop)) :
    k.Lasts (answer core (calls ++ k.loop) result waiter) := by
  cases waiter with
  | action next => exact encloses_of_holds h.spans h.holds
  | decorated e rest => exact encloses_of_holds h.spans h.holds
  | refused e handler flags returnAddress => exact encloses_of_holds h.spans h.holds
  | recovered flags returnAddress =>
      cases result with
      | ok v =>
          exact encloses_exec h.spans
            (h.delivered (Exec.delivered_deliver flags returnAddress (some v) core))
      | error e => exact encloses_of_holds h.spans h.holds
  | caught flags returnAddress =>
      cases result with
      | ok v =>
          exact encloses_exec h.spans
            (h.delivered (Exec.delivered_deliver flags returnAddress (some v) core))
      | error e => exact encloses_of_holds h.spans h.holds
  | processor =>
      have hloop := inLoop_of_encloses h.spans
      generalize calls ++ k.loop = all at hwaiter hloop
      cases hwaiter
      exact absurd hloop InLoop.ne_switch

omit [Host H] in
theorem encloses_settle {o : Outcome}
    (h : Enclosed k calls (o.phase core.proc) core) :
    k.Lasts (settle core (calls ++ k.loop) o) := by
  cases o with
  | finish frame v =>
      exact encloses_exec h.spans
        (h.finished (Exec.finished_finish frame v core))
  | _ => exact encloses_of_holds h.spans h.holds

/-! ## Errors -/

omit [Host H] in
theorem encloses_afterFailure (e : RuntimeError)
    (h : Enclosed k calls .failing core) :
    k.Lasts (afterFailure core (calls ++ k.loop) e) := by
  obtain ⟨above, below, hfloor, -, hover, hback⟩ := h.inner
  have hcut : k.Holds { core.proc with
      frames := core.proc.frames.truncate (frameFloor (calls ++ k.loop)) } := by
    refine hback _ rfl ⟨[], ?_, ?_, hover.operands⟩
    · rw [← hfloor]
      exact items_truncate_append hover.frames
    · intro f hf
      cases hf
  cases e with
  | script e => exact encloses_of_holds h.spans h.holds
  | contract v => exact encloses_of_holds h.spans hcut
  | internal reason => exact encloses_of_holds h.spans hcut
  | terminated => exact encloses_of_holds h.spans hcut
  | fault f => exact encloses_of_holds h.spans hcut

omit [Host H] in
theorem encloses_catchError (e : ScriptError) (h : Enclosed k calls .failing core) :
    k.Lasts (catchError core (calls ++ k.loop) e) := by
  obtain ⟨above, below, hfloor, -, hover, hback⟩ := h.inner
  rcases catchError_split e hover.frames hfloor.symm with
    ⟨path, frame, handler, rest, frames, rfl, -, -, hitems, hcaught⟩ |
      ⟨rest, frames, habove, -, hitems, hcaught⟩
  all_goals rw [hcaught]
  · have hbase : k.operands.length ≤ frame.base :=
      hover.bases frame (List.mem_append_right path List.mem_cons_self)
    refine encloses_of_holds h.spans (hback _ rfl
      ⟨rest, hitems, fun f hf => ?_, suffix_truncate hover.operands hbase⟩)
    exact hover.bases f (List.mem_append_right path (List.mem_cons_of_mem frame hf))
  · refine encloses_of_holds h.spans (hback _ rfl
      ⟨rest, hitems, fun f hf => hover.bases f ?_, hover.operands⟩)
    rw [habove]
    exact List.mem_append_right _ hf

/-! ## Host functions -/

theorem encloses_resume (r : CoroutineRef) (args : List Value)
    (next : Except RuntimeError Value → Action H NativeOutcome)
    (h : Enclosed k calls .working core) :
    k.Lasts (resume core (calls ++ k.loop) r args next) := by
  rcases resume_stays_or_switches core (calls ++ k.loop) r args next with
    ⟨e, hresume⟩ | ⟨inner, hinner⟩
  · rw [hresume]
    exact encloses_of_holds h.spans h.holds
  · exact .waiting inner r core.proc next calls h.spans hinner h.holds

omit [Host H] in
theorem encloses_enterMain (function : Value) (args : List Value)
    (next : Except RuntimeError Value → Action H NativeOutcome)
    (h : Enclosed k calls .working core) :
    k.Lasts (enterMain core (calls ++ k.loop) function args next) := by
  rcases enterMain_cases core (calls ++ k.loop) function args next with
    henter | ⟨c, p, -, -, henter⟩
  all_goals rw [henter]
  · exact encloses_of_holds h.spans h.holds
  · exact .waiting [] core.world.main core.proc next calls h.spans rfl h.holds

theorem encloses_act (a : Action H NativeOutcome)
    (h : Enclosed k calls .working core) :
    k.Lasts (act core (calls ++ k.loop) a) := by
  have hloop := inLoop_of_encloses h.spans
  cases a with
  | done outcome =>
      rw [act_done hloop]
      exact encloses_exec h.spans
        (h.completed (Exec.completed_completeNative outcome core))
  | fail e =>
      rw [act_fail hloop]
      exact encloses_of_holds h.spans h.holds
  | read next => exact encloses_of_holds h.spans h.holds
  | write change next =>
      have hholds : k.Holds (⟨change core.world, core.proc⟩ : Core H).proc :=
        h.holds
      exact encloses_of_holds h.spans hholds
  | call function args next => exact encloses_of_holds h.spans h.holds
  | resume r args next => exact encloses_resume r args next h
  | enterMain function args next => exact encloses_enterMain function args next h

/-! ## Leaving loops -/

omit [Host H] in
/-- A loop further in gives its processor back to those it was nested in. -/
theorem encloses_leave {a : Activation H} (exit : Except RuntimeError LoopExit)
    (h : Enclosed k (a :: calls) (LoopExit.phase core.proc exit) core) :
    k.Lasts (leave core (a :: calls ++ k.loop) exit) := by
  obtain ⟨mark, waiter, rfl, -, hstack⟩ := h.spans a List.mem_cons_self
  obtain ⟨above, below, hfloor, -, hover, hback⟩ := h.inner
  have hcut : k.Holds { core.proc with
      nesting := core.proc.nesting - 1, ip := mark.ip, chunk? := mark.chunk?
      frames := core.proc.frames.truncate mark.frames
      stack := core.proc.stack.truncate mark.stack } := by
    refine hback _ rfl ⟨[], ?_, ?_, suffix_truncate hover.operands hstack⟩
    · have hmark : mark.frames = below.length := hfloor.symm
      rw [hmark]
      exact items_truncate_append hover.frames
    · intro f hf
      cases hf
  have hspans := encloses_tail h.spans
  change k.Lasts (endCall core (calls ++ k.loop) mark waiter exit)
  unfold endCall
  rcases exit with e | exit
  · exact encloses_of_holds hspans hcut
  · cases exit with
    | returned v =>
        exact encloses_of_holds hspans (h.holds.of_same rfl rfl rfl)
    | yielded v => exact encloses_of_holds hspans hcut
    | forceYielded => exact encloses_of_holds hspans hcut

omit [Host H] in
/-- The call ends. -/
theorem left_leave (exit : Except RuntimeError LoopExit)
    (h : Enclosed k [] (LoopExit.phase core.proc exit) core)
    (hunder : LoopExit.Under k.mark.stack core.proc.stack.height exit) :
    k.Left (leave core k.loop exit) := by
  obtain ⟨above, hover⟩ := h.holds.spared
  have hframes : (core.proc.frames.truncate k.mark.frames).items = k.below := by
    rw [← k.frames_eq]
    exact items_truncate_append hover.frames
  have hstack := suffix_truncate hover.operands k.operands_le
  have hcan := h.holds.canYield
  have hheight : (endCall core k.outer k.mark k.waiter
      exit).core.proc.stack.height ≤ k.mark.stack := height_endCall hunder
  change k.Left (endCall core k.outer k.mark k.waiter exit)
  revert hheight
  unfold endCall
  rcases exit with e | exit
  · exact fun hheight => ⟨rfl, ⟨_, rfl⟩, hframes, hstack, hheight, rfl, rfl, hcan⟩
  · cases exit with
    | returned v =>
        obtain ⟨outer, above', below', -, hitems, hbelow, hnil, -⟩ := h.stands
        have habove : above' = [] := hnil
        have hsame : above = above' ∧ k.below = below' :=
          List.append_inj' (hover.frames.symm.trans hitems)
            (k.frames_eq.trans hbelow.symm)
        have hkept : core.proc.frames.items = k.below := by
          rw [hover.frames, hsame.1, habove, List.nil_append]
        exact fun hheight =>
          ⟨rfl, ⟨_, rfl⟩, hkept, hover.operands, hheight, rfl, rfl, hcan⟩
    | yielded v =>
        exact fun hheight =>
          ⟨rfl, ⟨_, rfl⟩, hframes, hstack, hheight, rfl, rfl, hcan⟩
    | forceYielded =>
        exact fun hheight =>
          ⟨rfl, ⟨_, rfl⟩, hframes, hstack, hheight, rfl, rfl, hcan⟩

/-! ## Steps of the machine -/

variable {m : Machine H}

theorem encloses_next (hm : m.WellNested) (hg : m.WellFramed) (hb : m.Bounded)
    (hsparing : k.operands = [] ∨ m.Sparing) (hcalls : k.Spans calls)
    (h : m.activations = calls ++ k.loop) (hholds : k.Holds m.core.proc) :
    k.Lasts m.next ∨ k.Left m.next := by
  obtain ⟨core, all, control⟩ := m
  obtain rfl : all = calls ++ k.loop := h
  have hin := inLoop_of_encloses hcalls
  have henclosed {s : LoopPhase} (hstands : StandsOn s (calls ++ k.loop)
      core.proc.nesting core.proc.frames.items) : Enclosed k calls s core :=
    ⟨hcalls, hholds, hstands⟩
  have hseated := hg.seated
  have hcontrol := hm.control
  cases control with
  | loop o =>
      refine Or.inl (encloses_afterOutcome (henclosed hseated) ?_)
      rintro rfl
      exact hsparing.imp_right fun h => h rfl
  | failed e => exact Or.inl (encloses_afterFailure e (henclosed hseated))
  | unwinding e decorators =>
      left
      cases decorators with
      | nil => exact encloses_catchError e (henclosed hseated)
      | cons d rest => exact encloses_of_holds hcalls hholds
  | calling function args waiter =>
      exact Or.inl (encloses_beginCall function args (henclosed hseated))
  | leaving exit =>
      cases calls with
      | cons a calls => exact Or.inl (encloses_leave exit (henclosed hseated))
      | nil =>
          obtain ⟨_, _, _, _, hunder, _⟩ := hb
          exact Or.inr (left_leave exit (henclosed hseated) hunder)
  | answering waiter result =>
      exact Or.inl (encloses_answer result (henclosed hseated) hcontrol)
  | switching exit =>
      obtain ⟨r, outer, next, rest, hswitch, -⟩ := hcontrol
      dsimp only at hswitch
      rw [hswitch] at hin
      exact absurd hin InLoop.ne_switch
  | running a => exact Or.inl (encloses_act a (henclosed hseated))
  | settling o => exact Or.inl (encloses_settle (henclosed hseated))
  | finished result =>
      have hnil : calls ++ k.loop = [] := hcontrol
      rw [hnil] at hin
      exact absurd hin not_inLoop_nil

end

end Machine

/-- A nested call goes on, or it ends with what it found. -/
theorem Enclosure.Lasts.next [Host H] {k : Enclosure H} {m : Machine H}
    (h : k.Lasts m) (hm : m.WellNested) (hg : m.WellFramed) (hb : m.Bounded)
    (hsparing : k.operands = [] ∨ m.Sparing) :
    k.Lasts m.next ∨ k.Left m.next := by
  cases h with
  | executing calls hcalls h hholds =>
      exact Machine.encloses_next hm hg hb hsparing hcalls h hholds
  | waiting inner r outer next calls hcalls h hholds =>
      left
      rcases (Machine.turn_next hm.control).above h with
        ⟨inner', hinner⟩ | ⟨hback, hproc, -⟩
      · exact .waiting inner' r outer next calls hcalls hinner hholds
      · refine .executing calls hcalls hback ?_
        rw [hproc]
        exact hholds

end ScriptEngine
