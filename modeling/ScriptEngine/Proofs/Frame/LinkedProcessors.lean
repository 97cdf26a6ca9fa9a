import ScriptEngine.Proofs.Frame.LinkedFrames
import ScriptEngine.Proofs.Frame.Protection

/-!
# Linked processors

In a history of sound chunks every processor has its frames linked: the one at hand,
those that wait for a coroutine and those of coroutines at rest.  What a loop
waits for finds the frames below it as it needs them, and the processor of a
coroutine that has been suspended by force has the chunk of its topmost frame.
Steps keep this true as long as host functions bring no functions of
scripts but sound ones.
-/

namespace ScriptEngine

variable {H : HostTypes}

/-- What a loop waits for finds the frames below the nested one as it needs them. -/
def Waiter.FindsCode (w : World H) (frames : List Frame) : Waiter H → Prop
  | .action _ => True
  | .decorated _ _ => True
  | .refused _ _ flags returnAddress =>
      Due.Lands w ⟨flags.entryPoint, returnAddress⟩ frames
  | .recovered flags returnAddress => Due.Lands w ⟨flags.entryPoint, returnAddress⟩ frames
  | .caught flags returnAddress => Due.Lands w ⟨flags.entryPoint, returnAddress⟩ frames
  | .processor => True

/-- A coroutine that gives way can go on later. -/
def LoopExit.FindsCode (w : World H) (p : Processor) : Except RuntimeError LoopExit → Prop
  | .ok (.returned _) => True
  | .ok (.yielded _) => ∀ f, p.yielded? = some f → f.due.Lands w p.frames.items
  | .ok .forceYielded => p.Scripting w
  | .error _ => True

def Control.FindsCode (w : World H) (p : Processor) : Control H → Prop
  | .loop o => o.FindsCode w p
  | .failed _ => True
  | .unwinding _ _ => True
  | .calling _ _ waiter => waiter.FindsCode w p.frames.items
  | .leaving exit => LoopExit.FindsCode w p exit
  | .answering waiter _ => waiter.FindsCode w p.frames.items
  | .switching exit => LoopExit.FindsCode w p exit
  | .running _ => True
  | .settling o => o.FindsCode w p
  | .finished _ => True

/-- The loops and processors that wait have their frames as they need them. -/
def WaitersFindCode (w : World H) : List (Activation H) → List Frame → Prop
  | .call mark waiter :: rest, frames =>
      ∃ above below, frames = above ++ below ∧ below.length = mark.frames ∧
        waiter.FindsCode w below ∧ WaitersFindCode w rest below
  | .body :: rest, _ => WaitersFindCode w rest []
  | .switch _ outer _ :: rest, _ =>
      Linked w outer.frames.items ∧ WaitersFindCode w rest outer.frames.items
  | [], _ => True

/-- The processor of a coroutine in this state can go on. -/
def CoroutineState.FindsCode (w : World H) (p : Processor) : CoroutineState → Prop
  | .suspended => ∀ f, p.yielded? = some f → f.due.Lands w p.frames.items
  | .forceSuspended => p.Scripting w
  | _ => True

/-- The processors at rest have their frames linked and can go on. -/
def World.FindsCode (w : World H) : Prop :=
  ∀ r c p, w.coroutine? r = some c → c.processor? = some p →
    Linked w p.frames.items ∧ c.state.FindsCode w p

/-- The processor at hand and those that wait. -/
structure Machine.InFlightLinked (m : Machine H) : Prop where
  linked : Linked m.core.world m.core.proc.frames.items
  findsCode : m.control.FindsCode m.core.world m.core.proc
  waiting : WaitersFindCode m.core.world m.activations m.core.proc.frames.items

structure Machine.AllLinked (m : Machine H) : Prop where
  sound : m.core.world.IsSound
  resting : m.core.world.FindsCode
  inFlightLinked : m.InFlightLinked

/-- The innermost loop in this phase, and the loops that wait. -/
structure Machine.LoopLinked (activations : List (Activation H)) (s : LoopPhase)
    (core : Core H) : Prop where
  loop : InLoop activations
  stands : StandsOn s activations core.proc.nesting core.proc.frames.items
  sound : core.world.IsSound
  linked : Linked core.world core.proc.frames.items
  waiting : WaitersFindCode core.world activations core.proc.frames.items

section

variable {w w' : World H} {p : Processor} {activations : List (Activation H)}
  {frames above below : List Frame}

theorem Waiter.FindsCode.mono {waiter : Waiter H} (h : waiter.FindsCode w frames)
    (hw : w.KeepsClosures w') : waiter.FindsCode w' frames := by
  cases waiter with
  | action next => trivial
  | decorated e rest => trivial
  | refused e handler flags returnAddress => exact Due.Lands.mono h hw
  | recovered flags returnAddress => exact Due.Lands.mono h hw
  | caught flags returnAddress => exact Due.Lands.mono h hw
  | processor => trivial

theorem WaitersFindCode.mono (h : WaitersFindCode w activations frames) (hw : w.KeepsClosures w') :
    WaitersFindCode w' activations frames := by
  induction activations generalizing frames with
  | nil => trivial
  | cons a rest ih =>
      cases a with
      | call mark waiter =>
          obtain ⟨above, below, hframes, hbelow, hwaiter, hrest⟩ := h
          exact ⟨above, below, hframes, hbelow, hwaiter.mono hw, ih hrest⟩
      | body => exact ih h
      | switch r outer next => exact ⟨h.1.mono hw, ih h.2⟩

theorem CoroutineState.FindsCode.mono {state : CoroutineState} (h : state.FindsCode w p)
    (hw : w.KeepsClosures w') : state.FindsCode w' p := by
  cases state with
  | suspended => exact fun f hf => Due.Lands.mono (h f hf) hw
  | forceSuspended => exact Processor.Scripting.mono h hw
  | _ => trivial

/-- What the innermost loop does above its floor is nothing to the loops that wait. -/
theorem WaitersFindCode.replace (hloop : InLoop activations)
    (hfloor : below.length = frameFloor activations)
    (h : WaitersFindCode w activations (above ++ below)) (above' : List Frame) :
    WaitersFindCode w activations (above' ++ below) := by
  cases hloop with
  | call mark waiter rest =>
      obtain ⟨own, lower, hframes, hlower, hwaiter, hrest⟩ := h
      obtain ⟨rfl, rfl⟩ := List.append_inj' hframes (hfloor.trans hlower.symm)
      exact ⟨above', below, rfl, hlower, hwaiter, hrest⟩
  | body rest => exact h

end

namespace Machine

variable {core : Core H} {activations : List (Activation H)} {s : LoopPhase}

theorem LoopLinked.own (h : LoopLinked activations s core) :
    ∃ above below, core.proc.frames.items = above ++ below ∧ s.Fits above ∧
      below.length = frameFloor activations := by
  obtain ⟨above, below, hframes, hfits, hbase⟩ := (standsOn_iff h.loop).mp h.stands
  exact ⟨above, below, hframes, hfits, hbase.floor.symm⟩

/-! ## Programs in a loop -/

theorem LoopLinked.result {r : EStateM.Result RuntimeError (Core H) Outcome}
    (h : LoopLinked activations s core) (hworld : core.world.Extends (Exec.resultCore r).world)
    (hresult : ∀ above below, core.proc.frames.items = above ++ below → s.Fits above →
      Exec.ResultStands below r ∧ Exec.ResultFindsCode r) :
    Exec.ResultFindsCode r ∧ WaitersFindCode (Exec.resultCore r).world activations
      (Exec.resultCore r).proc.frames.items := by
  obtain ⟨above, below, hframes, hfits, hfloor⟩ := h.own
  obtain ⟨hstands, hfindsCode⟩ := hresult above below hframes hfits
  obtain ⟨above', hframes'⟩ :
      ∃ above', (Exec.resultCore r).proc.frames.items = above' ++ below := by
    cases r with
    | ok o c =>
        obtain ⟨above', hframes', -⟩ := hstands
        exact ⟨above', hframes'⟩
    | error e c =>
        obtain ⟨above', hframes', -⟩ := hstands
        exact ⟨above', hframes'⟩
  have hwaiting := h.waiting
  rw [hframes] at hwaiting
  refine ⟨hfindsCode, ?_⟩
  rw [hframes']
  exact (hwaiting.replace h.loop hfloor above').mono hworld.keepsClosures

theorem LoopLinked.exec {route : Route} {x : Exec H Outcome} (h : LoopLinked activations s core)
    (hworld : core.world.Extends (Exec.resultCore (x core)).world)
    (hresult : ∀ above below, core.proc.frames.items = above ++ below → s.Fits above →
      Exec.ResultStands below (x core) ∧ Exec.ResultFindsCode (x core)) :
    (exec route x core activations).InFlightLinked := by
  obtain ⟨hfindsCode, hwaiting⟩ := h.result hworld hresult
  unfold Machine.exec
  cases hx : x core with
  | ok o c =>
      rw [hx] at hfindsCode hwaiting
      cases route <;> exact ⟨hfindsCode.1, hfindsCode.2, hwaiting⟩
  | error e c =>
      rw [hx] at hfindsCode hwaiting
      cases route <;> exact ⟨hfindsCode, trivial, hwaiting⟩

theorem extends_of_keeps {c' : Core H} (h : core.Keeps c') : core.world.Extends c'.world := by
  rw [h.world]
  exact .refl _

theorem LoopLinked.called {flags : FrameFlags} {returnAddress : Nat} {handlers : Handlers}
    {x : Exec H Outcome} (h : LoopLinked activations (.handing flags.entryPoint) core)
    (hcalled : Exec.Called core flags returnAddress handlers (x core))
    (hlands : Due.Lands core.world ⟨flags.entryPoint, returnAddress⟩ core.proc.frames.items)
    (hawaiting : flags.awaiting = false)
    (hpresent : (Machine.exec .loop x core activations).core.Present) :
    (Machine.exec .loop x core activations).InFlightLinked := by
  rw [exec_core] at hpresent
  refine h.exec (extends_of_keeps hcalled.keeps) fun above below hframes hfits => ?_
  exact ⟨hcalled.stands hframes hfits,
    hcalled.findsCode h.sound h.linked hlands hawaiting hpresent⟩

theorem LoopLinked.delivered {flags : FrameFlags} {returnAddress : Nat} {v? : Option Value}
    {r : EStateM.Result RuntimeError (Core H) Outcome}
    (h : LoopLinked activations (.handing flags.entryPoint) core)
    (hdelivered : Exec.Delivered core flags returnAddress v? r)
    (hlands : Due.Lands core.world ⟨flags.entryPoint, returnAddress⟩ core.proc.frames.items)
    {above below : List Frame} (hframes : core.proc.frames.items = above ++ below)
    (hfits : (LoopPhase.handing flags.entryPoint).Fits above) :
    Exec.ResultStands below r ∧ Exec.ResultFindsCode r := by
  constructor
  · exact hdelivered.stands hframes hfits
  · exact hdelivered.findsCode hframes hfits h.linked hlands

theorem LoopLinked.finished {frame : Frame} {v : Value}
    {r : EStateM.Result RuntimeError (Core H) Outcome}
    (h : LoopLinked activations (.handing frame.flags.entryPoint) core)
    (hfinished : Exec.Finished core frame v r)
    (hlands : frame.due.Lands core.world core.proc.frames.items)
    {above below : List Frame} (hframes : core.proc.frames.items = above ++ below)
    (hfits : (LoopPhase.handing frame.flags.entryPoint).Fits above) :
    Exec.ResultStands below r ∧ Exec.ResultFindsCode r := by
  constructor
  · exact hfinished.stands hframes hfits
  · exact hfinished.findsCode hframes hfits h.linked hlands

/-! ## Answers and errors -/

theorem inFlightLinked_answer {waiter : Waiter H} (result : Except RuntimeError Value)
    (hwaiter : waiter.Fits activations)
    (hstands : StandsOn waiter.phase activations core.proc.nesting core.proc.frames.items)
    (hsound : core.world.IsSound)
    (h : (⟨core, activations, .answering waiter result⟩ : Machine H).InFlightLinked) :
    (answer core activations result waiter).InFlightLinked := by
  cases waiter with
  | action next => exact ⟨h.linked, trivial, h.waiting⟩
  | decorated e rest => exact ⟨h.linked, trivial, h.waiting⟩
  | refused e handler flags returnAddress => exact ⟨h.linked, h.findsCode, h.waiting⟩
  | recovered flags returnAddress =>
      cases result with
      | ok v =>
          have hunder : LoopLinked activations (.handing flags.entryPoint) core :=
            ⟨hwaiter, hstands, hsound, h.linked, h.waiting⟩
          have hdelivered := Exec.delivered_deliver flags returnAddress (some v) core
          exact hunder.exec (extends_of_keeps hdelivered.keeps)
            fun _ _ => hunder.delivered hdelivered h.findsCode
      | error e => exact ⟨h.linked, trivial, h.waiting⟩
  | caught flags returnAddress =>
      cases result with
      | ok v =>
          have hunder : LoopLinked activations (.handing flags.entryPoint) core :=
            ⟨hwaiter, hstands, hsound, h.linked, h.waiting⟩
          have hdelivered := Exec.delivered_deliver flags returnAddress (some v) core
          exact hunder.exec (extends_of_keeps hdelivered.keeps)
            fun _ _ => hunder.delivered hdelivered h.findsCode
      | error e => exact ⟨h.linked, trivial, h.waiting⟩
  | processor =>
      refine ⟨h.linked, ?_, h.waiting⟩
      cases result <;> trivial

theorem inFlightLinked_settle {o : Outcome} (h : LoopLinked activations (o.phase core.proc) core)
    (hfindsCode : o.FindsCode core.world core.proc) :
    (settle core activations o).InFlightLinked := by
  cases o with
  | finish frame v =>
      have hfinished := Exec.finished_finish frame v core
      exact h.exec (extends_of_keeps hfinished.keeps)
        fun _ _ => h.finished hfinished hfindsCode
  | _ => exact ⟨h.linked, hfindsCode, h.waiting⟩

theorem inFlightLinked_afterFailure (e : RuntimeError) (h : LoopLinked activations .failing core) :
    (afterFailure core activations e).InFlightLinked := by
  obtain ⟨above, below, hframes, -, hfloor⟩ := h.own
  have hcut : (core.proc.frames.truncate (frameFloor activations)).items = below := by
    rw [← hfloor]
    exact items_truncate_append hframes
  have hlinked := h.linked
  have hwaiting := h.waiting
  rw [hframes] at hlinked hwaiting
  have hended (e : RuntimeError) : (⟨⟨core.world, { core.proc with
      frames := core.proc.frames.truncate (frameFloor activations) }⟩, activations,
      .leaving (.error e)⟩ : Machine H).InFlightLinked := by
    refine ⟨?_, trivial, ?_⟩
    · change Linked core.world (core.proc.frames.truncate (frameFloor activations)).items
      rw [hcut]
      exact hlinked.of_append
    · change WaitersFindCode core.world activations
        (core.proc.frames.truncate (frameFloor activations)).items
      rw [hcut]
      exact hwaiting.replace h.loop hfloor []
  cases e with
  | script e => exact ⟨h.linked, trivial, h.waiting⟩
  | contract v => exact hended _
  | internal reason => exact hended _
  | terminated => exact hended _
  | fault f => exact hended _

/-- The answer of a handler goes where the result of its frame would have gone. -/
theorem inFlightLinked_catchError (e : ScriptError) (h : LoopLinked activations .failing core) :
    (catchError core activations e).InFlightLinked := by
  obtain ⟨above, below, hframes, -, hfloor⟩ := h.own
  have hlinked := h.linked
  have hwaiting := h.waiting
  rw [hframes] at hlinked hwaiting
  rcases catchError_split e hframes hfloor.symm with
    ⟨path, frame, handler, rest, frames, rfl, -, -, hitems, hcaught⟩ |
      ⟨rest, frames, habove, -, hitems, hcaught⟩
  all_goals
    have hwaiting' := hwaiting.replace h.loop hfloor rest
    rw [hcaught]
  · rw [List.append_assoc, List.cons_append] at hlinked
    obtain ⟨hlands, hrest⟩ := hlinked.of_append
    rw [← hitems] at hlands hrest hwaiting'
    exact ⟨hrest, hlands, hwaiting'⟩
  · rw [habove, List.append_assoc] at hlinked
    have hrest := hlinked.of_append
    rw [← hitems] at hrest hwaiting'
    exact ⟨hrest, trivial, hwaiting'⟩

/-! ## Leaving loops -/

theorem inFlightLinked_endCall {mark : LoopMark} {waiter : Waiter H}
    (exit : Except RuntimeError LoopExit)
    (h : LoopLinked (.call mark waiter :: activations) (LoopExit.phase core.proc exit) core) :
    (endCall core activations mark waiter exit).InFlightLinked := by
  obtain ⟨outer, above, below, -, hframes, hbelow, hfits, -⟩ := h.stands
  obtain ⟨own, lower, hframes', hlower, hwaiter, hwaiting⟩ := h.waiting
  obtain ⟨-, rfl⟩ := List.append_inj' (hframes.symm.trans hframes')
    (hbelow.trans hlower.symm)
  have hlinked := h.linked
  rw [hframes] at hlinked
  have hcut : (core.proc.frames.truncate mark.frames).items = below := by
    rw [← hbelow]
    exact items_truncate_append hframes
  have hrest : Linked core.world below := hlinked.of_append
  have hdone : Linked core.world (core.proc.frames.truncate mark.frames).items ∧
      waiter.FindsCode core.world (core.proc.frames.truncate mark.frames).items ∧
      WaitersFindCode core.world activations (core.proc.frames.truncate mark.frames).items := by
    rw [hcut]
    exact ⟨hrest, hwaiter, hwaiting⟩
  unfold endCall
  rcases exit with e | exit
  · exact ⟨hdone.1, hdone.2.1, hdone.2.2⟩
  · cases exit with
    | returned v =>
        have hnil : above = [] := hfits
        rw [hnil, List.nil_append] at hframes
        rw [← hframes] at hrest hwaiter hwaiting
        exact ⟨hrest, hwaiter, hwaiting⟩
    | yielded v => exact ⟨hdone.1, hdone.2.1, hdone.2.2⟩
    | forceYielded => exact ⟨hdone.1, hdone.2.1, hdone.2.2⟩

theorem inFlightLinked_leave {w : World H} (exit : Except RuntimeError LoopExit)
    (hnested : Nested w activations)
    (h : LoopLinked activations (LoopExit.phase core.proc exit) core)
    (hfindsCode : LoopExit.FindsCode core.world core.proc exit) :
    (leave core activations exit).InFlightLinked := by
  cases hnested with
  | nil => exact absurd h.loop not_inLoop_nil
  | call mark hwaiter hrest => exact inFlightLinked_endCall exit h
  | body hscript hrest =>
      have hwaiting := h.waiting
      change (endBody core _ exit).InFlightLinked
      unfold endBody
      cases exit with
      | error e => exact ⟨trivial, trivial, hwaiting⟩
      | ok exit => exact ⟨h.linked, hfindsCode, hwaiting⟩
  | switch r outer hacts hnext hrest => exact absurd h.loop InLoop.ne_switch

/-! ## Instructions and calls -/

section

variable [Host H]

omit [Host H] in
theorem scripting_counted (h : core.proc.Scripting core.world) :
    (counted core).proc.Scripting (counted core).world := by
  unfold counted
  rw [countInstruction_eq]
  exact h

theorem LoopLinked.polled (h : LoopLinked activations .working core)
    (hscripting : core.proc.Scripting core.world)
    (hpresent : (Exec.resultCore (Exec.poll core)).Present) :
    Exec.ResultFindsCode (Exec.poll core) := by
  obtain ⟨above, below, hframes, hfits, -⟩ := h.own
  have hlinked : Linked (counted core).world (counted core).proc.frames.items := by
    rw [counted_frames]
    exact h.linked
  have hcounted := scripting_counted hscripting
  rcases poll_cases core with hrun | hrun | hrun
  · rw [hrun]
    exact h.linked
  · rw [hrun]
    exact ⟨hlinked, hcounted⟩
  · rw [hrun] at hpresent ⊢
    rw [← counted_frames] at hframes
    exact Exec.step_findsCode hframes hfits h.sound hlinked hcounted hpresent

theorem inFlightLinked_afterOutcome {o : Outcome}
    (h : LoopLinked activations (o.phase core.proc) core)
    (hfindsCode : o.FindsCode core.world core.proc)
    (hpresent : (afterOutcome core activations o).core.Present) :
    (afterOutcome core activations o).InFlightLinked := by
  cases o with
  | proceed =>
      have hpolled : (Exec.resultCore (Exec.poll core)).Present := by
        rw [← exec_core _ core activations]
        exact hpresent
      exact h.exec (poll_extends core) fun _ _ hframes hfits =>
        ⟨poll_stands hframes hfits, h.polled hfindsCode hpolled⟩
  | finish frame v =>
      have hfinished := Exec.finished_finish frame v core
      exact h.exec (extends_of_keeps hfinished.keeps) fun _ _ => h.finished hfinished hfindsCode
  | invoke f args => exact ⟨h.linked, trivial, h.waiting⟩
  | recover e decorator? handler flags returnAddress =>
      cases decorator? with
      | none => exact ⟨h.linked, hfindsCode, h.waiting⟩
      | some decorator => exact ⟨h.linked, hfindsCode, h.waiting⟩
  | tailCall request flags returnAddress =>
      exact h.called (x := Exec.callRequest request flags returnAddress)
        (Exec.called_call _ _ _ _ _ core) hfindsCode.2 hfindsCode.1 hpresent
  | yield v =>
      unfold afterOutcome
      rcases checkYield_cases core with hrun | ⟨violation, hrun⟩
      · rw [hrun]
        exact ⟨h.linked, hfindsCode, h.waiting⟩
      · rw [hrun]
        exact ⟨h.linked, trivial, h.waiting⟩
  | forceYield => exact ⟨h.linked, hfindsCode, h.waiting⟩
  | «return» v => exact ⟨h.linked, trivial, h.waiting⟩

theorem inFlightLinked_beginCall {waiter : Waiter H} (function : Value) (args : List Value)
    (hstands : StandsOn waiter.phase activations core.proc.nesting core.proc.frames.items)
    (hsound : core.world.IsSound)
    (h : (⟨core, activations, .calling function args waiter⟩ : Machine H).InFlightLinked)
    (hpresent : (beginCall core activations function args waiter).core.Present) :
    (beginCall core activations function args waiter).InFlightLinked := by
  rcases beginCall_cases core activations function args waiter with hbegin | ⟨-, hbegin⟩
  all_goals rw [hbegin] at hpresent ⊢
  · exact ⟨h.linked, h.findsCode, h.waiting⟩
  · have hunder : LoopLinked (.call core.proc.mark waiter :: activations) (.handing true)
        core.nested :=
      ⟨.call _ _ _,
        ⟨core.proc.nesting, [], core.proc.frames.items, rfl, rfl,
          core.proc.frames.height_eq.symm, rfl, hstands⟩,
        hsound, h.linked,
        ⟨[], core.proc.frames.items, rfl, core.proc.frames.height_eq.symm, h.findsCode, h.waiting⟩⟩
    have hcalled := Exec.called_call function args { entryPoint := true } core.proc.ip {}
      core.nested
    refine hunder.called hcalled ?_ rfl hpresent
    cases core.nested.proc.frames.items with
    | nil => trivial
    | cons f rest => exact fun hentry => Bool.noConfusion hentry

end

end Machine

end ScriptEngine
