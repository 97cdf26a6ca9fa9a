import ScriptEngine.Proofs.Coroutine.Discipline
import ScriptEngine.Proofs.Frame.EntryFrames

/-!
# Frames and loops

Every loop of the machine has its frames right above those that were there when
it began, every processor that waits or rests has its frames in order, and the
loops on a processor are as many as the processor counts.  A machine of which
this is true is well framed; steps keep it so.
-/

namespace ScriptEngine

variable {H : HostTypes}

/-- What a loop is in the middle of while a nested call runs. -/
def Waiter.phase : Waiter H → LoopPhase
  | .action _ => .working
  | .decorated _ _ => .failing
  | .refused _ _ flags _ => .handing flags.entryPoint
  | .recovered flags _ => .handing flags.entryPoint
  | .caught flags _ => .handing flags.entryPoint
  | .processor => .empty

def LoopExit.phase (p : Processor) : Except RuntimeError LoopExit → LoopPhase
  | .ok (.returned _) => .empty
  | .ok (.yielded _) => .yielding p.yielded?
  | .ok .forceYielded => .working
  | .error _ => .failing

def Control.phase (p : Processor) : Control H → LoopPhase
  | .loop o => o.phase p
  | .failed _ => .failing
  | .unwinding _ _ => .failing
  | .calling _ _ waiter => waiter.phase
  | .leaving exit => LoopExit.phase p exit
  | .answering waiter _ => waiter.phase
  | .switching exit => LoopExit.phase p exit
  | .running _ => .working
  | .settling o => o.phase p
  | .finished _ => .working

/-- The frames and the number of loops of a processor, and of those that wait
for it. -/
def StandsOn : LoopPhase → List (Activation H) → Nat → List Frame → Prop
  | s, .call mark waiter :: rest, nesting, frames =>
      ∃ outer above below, nesting = outer + 1 ∧ frames = above ++ below ∧
        below.length = mark.frames ∧ s.Fits above ∧
        StandsOn waiter.phase rest outer below
  | s, .body :: rest, nesting, frames =>
      nesting = 1 ∧ s.Fits frames ∧ StandsOn .empty rest 0 []
  | _, .switch _ outer _ :: rest, nesting, frames =>
      nesting = 0 ∧ frames = [] ∧
        StandsOn .working rest outer.nesting outer.frames.items
  | _, [], nesting, frames => nesting = 0 ∧ frames = []

/-- What the frames of the innermost loop stand on. -/
inductive LoopBase : List (Activation H) → Nat → List Frame → Prop where
  | call (mark : LoopMark) (waiter : Waiter H) (rest : List (Activation H))
      (outer : Nat) (below : List Frame) (hbelow : below.length = mark.frames)
      (h : StandsOn waiter.phase rest outer below) :
      LoopBase (.call mark waiter :: rest) (outer + 1) below
  | body (rest : List (Activation H)) (h : StandsOn .empty rest 0 []) :
      LoopBase (.body :: rest) 1 []

/-- The processor of a coroutine in this state, at rest. -/
def CoroutineState.Rests (p : Processor) : CoroutineState → Prop
  | .main => p.nesting = 0 ∧ p.frames.items = []
  | .notStarted => p.nesting = 0 ∧ p.frames.items = []
  | .suspended =>
      ∃ f, p.yielded? = some f ∧
        Rooted (f.flags.entryPoint :: entries p.frames.items)
  | .forceSuspended => Rooted (entries p.frames.items)
  | .running => True
  | .dead => True

def World.WellFramed (w : World H) : Prop :=
  ∀ r c p, w.coroutine? r = some c → c.processor? = some p → c.state.Rests p

/-- A coroutine gives way with its processor in order. -/
structure Departs (main r : CoroutineRef) (p : Processor)
    (exit : Except RuntimeError LoopExit) : Prop where
  isMain : r = main → CoroutineState.Rests p .main
  isOther : r ≠ main → (CoroutineState.after .running exit).Rests p

def Control.WellFramed (main : CoroutineRef) (activations : List (Activation H))
    (p : Processor) : Control H → Prop
  | .switching exit =>
      ∃ r outer next rest, activations = .switch r outer next :: rest ∧
        StandsOn .working rest outer.nesting outer.frames.items ∧
        Departs main r p exit
  | control =>
      StandsOn (control.phase p) activations p.nesting p.frames.items

/-- The frames at hand, as far as they concern the control. -/
def Machine.Seated (main : CoroutineRef) (m : Machine H) : Prop :=
  m.control.WellFramed main m.activations m.core.proc

structure Machine.WellFramed (m : Machine H) : Prop where
  world : m.core.world.WellFramed
  seated : m.Seated m.core.world.main

/-! ## Loops -/

theorem standsOn_iff {s : LoopPhase} {activations : List (Activation H)}
    {nesting : Nat} {frames : List Frame} (hloop : InLoop activations) :
    StandsOn s activations nesting frames ↔
      ∃ above below, frames = above ++ below ∧ s.Fits above ∧
        LoopBase activations nesting below := by
  constructor
  · intro h
    cases hloop with
    | call mark waiter rest =>
        obtain ⟨outer, above, below, rfl, rfl, hbelow, hfits, hrest⟩ := h
        exact ⟨above, below, rfl, hfits, .call _ _ _ outer below hbelow hrest⟩
    | body rest =>
        obtain ⟨rfl, hfits, hrest⟩ := h
        exact ⟨frames, [], (List.append_nil frames).symm, hfits, .body rest hrest⟩
  · rintro ⟨above, below, rfl, hfits, hbase⟩
    cases hbase with
    | call mark waiter rest outer below hbelow h =>
        exact ⟨outer, above, below, rfl, rfl, hbelow, hfits, h⟩
    | body rest h =>
        refine ⟨rfl, ?_, h⟩
        rw [List.append_nil]
        exact hfits

theorem LoopBase.floor {activations : List (Activation H)} {nesting : Nat}
    {below : List Frame} (h : LoopBase activations nesting below) :
    frameFloor activations = below.length := by
  cases h with
  | call mark waiter rest outer below hbelow h => exact hbelow.symm
  | body rest h => rfl

/-- The phase of a loop does not change what the loop stands on. -/
theorem StandsOn.mono {s s' : LoopPhase} {activations : List (Activation H)}
    {nesting : Nat} {frames : List Frame}
    (h : StandsOn s activations nesting frames)
    (hs : ∀ frames, s.Fits frames → s'.Fits frames) :
    StandsOn s' activations nesting frames := by
  cases activations with
  | nil => exact h
  | cons a rest =>
      cases a with
      | call mark waiter =>
          obtain ⟨outer, above, below, hnesting, hframes, hbelow, hfits, hrest⟩ := h
          exact ⟨outer, above, below, hnesting, hframes, hbelow, hs _ hfits, hrest⟩
      | body => exact ⟨h.1, hs _ h.2.1, h.2.2⟩
      | switch r outer next => exact h

theorem StandsOn.failing {s : LoopPhase} {activations : List (Activation H)}
    {nesting : Nat} {frames : List Frame}
    (h : StandsOn s activations nesting frames) :
    StandsOn .failing activations nesting frames := by
  refine h.mono fun _ => ?_
  exact LoopPhase.Fits.failing

/-- The loops that run on the innermost processor. -/
def loopsAt : List (Activation H) → Nat
  | .call _ _ :: rest => loopsAt rest + 1
  | .body :: rest => loopsAt rest + 1
  | .switch _ _ _ :: _ => 0
  | [] => 0

theorem StandsOn.loopsAt_eq {activations : List (Activation H)} {s : LoopPhase}
    {nesting : Nat} {frames : List Frame}
    (h : StandsOn s activations nesting frames) : nesting = loopsAt activations := by
  induction activations generalizing s nesting frames with
  | nil => exact h.1
  | cons a rest ih =>
      cases a with
      | call mark waiter =>
          obtain ⟨outer, above, below, rfl, -, -, -, hrest⟩ := h
          exact congrArg (· + 1) (ih hrest)
      | body =>
          obtain ⟨rfl, -, hrest⟩ := h
          exact congrArg (· + 1) (ih hrest)
      | switch r outer next => exact h.1

/-- What is left of a stack that is cut down to what was below. -/
theorem items_truncate_append {α : Type} {stack : Stack α} {above below : List α}
    (h : stack.items = above ++ below) :
    (stack.truncate below.length).items = below := by
  have hheight : stack.height = above.length + below.length := by
    rw [stack.height_eq, h, List.length_append]
  rw [Stack.items_truncate, hheight, Nat.add_sub_cancel, h, List.drop_left]

theorem items_above_append {α : Type} {stack : Stack α} {above below : List α}
    (h : stack.items = above ++ below) :
    stack.above below.length = above := by
  have hheight : stack.height = above.length + below.length := by
    rw [stack.height_eq, h, List.length_append]
  unfold Stack.above
  rw [hheight, Nat.add_sub_cancel, h, List.take_left]

namespace Machine

section

variable {core : Core H} {activations : List (Activation H)} {main : CoroutineRef}

/-- Running a program in a loop, by what it does to the frames. -/
theorem wellFramed_exec {route : Route} {x : Exec H Outcome} {below : List Frame}
    (hloop : InLoop activations)
    (hbase : LoopBase activations core.proc.nesting below)
    (hnesting : (Exec.resultCore (x core)).proc.nesting = core.proc.nesting)
    (hstands : Exec.ResultStands below (x core)) :
    (exec route x core activations).Seated main := by
  unfold exec
  cases hx : x core with
  | ok o core' =>
      rw [hx] at hnesting hstands
      obtain ⟨above', hframes, hfits⟩ := hstands
      have hstands' : StandsOn (o.phase core'.proc) activations core'.proc.nesting
          core'.proc.frames.items := by
        refine (standsOn_iff hloop).mpr ⟨above', below, hframes, hfits, ?_⟩
        rw [show core'.proc.nesting = core.proc.nesting from hnesting]
        exact hbase
      cases route <;> exact hstands'
  | error e core' =>
      rw [hx] at hnesting hstands
      obtain ⟨above', hframes, hfits⟩ := hstands
      have hstands' : StandsOn .failing activations core'.proc.nesting
          core'.proc.frames.items := by
        refine (standsOn_iff hloop).mpr ⟨above', below, hframes, hfits, ?_⟩
        rw [show core'.proc.nesting = core.proc.nesting from hnesting]
        exact hbase
      cases route <;> exact hstands'

theorem wellFramed_deliver {route : Route} {flags : FrameFlags} (returnAddress : Nat) (v : Value)
    (hloop : InLoop activations)
    (h : StandsOn (.handing flags.entryPoint) activations core.proc.nesting
      core.proc.frames.items) :
    (exec route (Exec.deliver flags returnAddress (some v)) core
      activations).Seated main := by
  obtain ⟨above, below, hframes, hfits, hbase⟩ := (standsOn_iff hloop).mp h
  have hdelivered := Exec.delivered_deliver flags returnAddress (some v) core
  exact wellFramed_exec hloop hbase hdelivered.keeps.nesting
    (hdelivered.stands hframes hfits)

theorem wellFramed_answer {waiter : Waiter H} (result : Except RuntimeError Value)
    (hwaiter : waiter.Fits activations)
    (h : StandsOn waiter.phase activations core.proc.nesting
      core.proc.frames.items) :
    (answer core activations result waiter).Seated main := by
  cases waiter with
  | action next => exact h
  | decorated e rest => exact h
  | refused e handler flags returnAddress => exact h
  | recovered flags returnAddress =>
      cases result with
      | ok v => exact wellFramed_deliver returnAddress v hwaiter h
      | error e => exact h.failing
  | caught flags returnAddress =>
      cases result with
      | ok v => exact wellFramed_deliver returnAddress v hwaiter h
      | error e => exact h.failing
  | processor =>
      cases hwaiter with
      | switch r outer next rest =>
          obtain ⟨hnesting, hframes, hrest⟩ := h
          refine ⟨r, outer, next, rest, rfl, hrest, fun _ => ⟨hnesting, hframes⟩, ?_⟩
          intro _
          cases result <;> trivial

theorem wellFramed_settle {o : Outcome} (hloop : InLoop activations)
    (h : StandsOn (o.phase core.proc) activations core.proc.nesting
      core.proc.frames.items) :
    (settle core activations o).Seated main := by
  cases o with
  | finish frame v =>
      obtain ⟨above, below, hframes, hfits, hbase⟩ := (standsOn_iff hloop).mp h
      have hfinished := Exec.finished_finish frame v core
      exact wellFramed_exec hloop hbase hfinished.keeps.nesting
        (hfinished.stands hframes hfits)
  | _ => exact h

theorem wellFramed_afterFailure (e : RuntimeError) (hloop : InLoop activations)
    (h : StandsOn .failing activations core.proc.nesting core.proc.frames.items) :
    (afterFailure core activations e).Seated main := by
  obtain ⟨above, below, hframes, hfits, hbase⟩ := (standsOn_iff hloop).mp h
  have hcut : StandsOn .failing activations core.proc.nesting
      (core.proc.frames.truncate (frameFloor activations)).items := by
    rw [hbase.floor, items_truncate_append hframes]
    exact (standsOn_iff hloop).mpr ⟨[], below, rfl, Or.inl rfl, hbase⟩
  cases e with
  | script e => exact h
  | contract v => exact hcut
  | internal reason => exact hcut
  | terminated => exact hcut
  | fault f => exact hcut

/-- The frames of the path go. -/
theorem items_dropErrorPath {p : Processor} {above below : List Frame}
    (h : p.frames.items = above ++ below) :
    ∃ rest, above = errorPath above ++ rest ∧
      (p.dropErrorPath below.length).2.frames.items = rest ++ below := by
  obtain ⟨rest, hrest⟩ := errorPath_prefix above
  refine ⟨rest, hrest.symm, ?_⟩
  have hitems : p.frames.items = errorPath above ++ (rest ++ below) := by
    rw [h, ← List.append_assoc, hrest]
  have hpath : (errorPath above).length ≤ p.frames.height := by
    rw [p.frames.height_eq, hitems, List.length_append]
    omega
  unfold Processor.dropErrorPath
  rw [items_above_append h]
  change p.frames.items.drop
    (p.frames.height - (p.frames.height - (errorPath above).length)) = _
  rw [Nat.sub_sub_self hpath, hitems]
  exact List.drop_left

/-- The frame of the handler is the last of the path. -/
theorem handler_dropErrorPath {p : Processor} {above below : List Frame}
    (h : p.frames.items = above ++ below) :
    (p.dropErrorPath below.length).1 =
      (errorPath above).getLast?.bind fun f => f.handlers.errorHandler?.map (f, ·) := by
  unfold Processor.dropErrorPath
  rw [items_above_append h]
  dsimp only
  cases (errorPath above).getLast? with
  | none => rfl
  | some f =>
      dsimp only [Option.bind_eq_bind, Option.bind_some]
      cases f.handlers.errorHandler? <;> rfl

/-- The error goes to the frame that handles it, or to the end of the loop. -/
theorem catchError_split {above below : List Frame} (e : ScriptError)
    (hframes : core.proc.frames.items = above ++ below)
    (hfloor : frameFloor activations = below.length) :
    (∃ path frame handler rest, ∃ frames : Stack Frame,
      above = path ++ frame :: rest ∧ errorPath above = path ++ [frame] ∧
      frame.handlers.errorHandler? = some handler ∧ frames.items = rest ++ below ∧
      catchError core activations e =
        ⟨⟨core.world, { core.proc with
            frames, stack := core.proc.stack.truncate frame.base }⟩, activations,
          .calling (.native handler) [e.value] (.caught frame.flags frame.returnAddress)⟩) ∨
    ∃ rest, ∃ frames : Stack Frame,
      above = errorPath above ++ rest ∧
      (∀ f, (errorPath above).getLast? = some f → f.handlers.errorHandler? = none) ∧
      frames.items = rest ++ below ∧
      catchError core activations e =
        ⟨⟨core.world, { core.proc with frames }⟩, activations,
          .leaving (.error (.script e))⟩ := by
  obtain ⟨rest, habove, hitems⟩ := items_dropErrorPath hframes
  have hhandler := handler_dropErrorPath hframes
  rw [← hfloor] at hitems hhandler
  rcases catchError_cases core activations e with
    ⟨frame, handler, n, hdropped, hcaught⟩ | ⟨n, hdropped, hcaught⟩
  all_goals rw [hdropped] at hitems hhandler
  · obtain ⟨f, hlast, hfound⟩ := Option.bind_eq_some_iff.mp hhandler.symm
    obtain ⟨h, herror, hpair⟩ := Option.map_eq_some_iff.mp hfound
    cases hpair
    obtain ⟨path, hpath⟩ := List.getLast?_eq_some_iff.mp hlast
    refine Or.inl ⟨path, frame, handler, rest, _, ?_, hpath, herror, hitems, hcaught⟩
    rw [habove, hpath, List.append_assoc]
    rfl
  · refine Or.inr ⟨rest, _, habove, fun f hlast => ?_, hitems, hcaught⟩
    exact Option.map_eq_none_iff.mp (Option.bind_eq_none_iff.mp hhandler.symm f hlast)

theorem failing_of_append {path rest : List Frame}
    (h : LoopPhase.failing.Fits (path ++ rest)) : LoopPhase.failing.Fits rest := by
  cases rest with
  | nil => exact Or.inl rfl
  | cons f rest =>
      rcases h with hnil | hrooted
      · exact absurd (List.append_eq_nil_iff.mp hnil).2 (by simp)
      · right
        unfold entries at hrooted
        rw [List.map_append] at hrooted
        exact hrooted.of_append

theorem handing_of_failing {path rest : List Frame} {f : Frame}
    (h : LoopPhase.failing.Fits (path ++ f :: rest)) :
    (LoopPhase.handing f.flags.entryPoint).Fits rest := by
  rcases h with hnil | hrooted
  · exact absurd hnil (by simp)
  · unfold entries at hrooted
    rw [List.map_append] at hrooted
    exact hrooted.of_append

theorem wellFramed_catchError (e : ScriptError) (hloop : InLoop activations)
    (h : StandsOn .failing activations core.proc.nesting core.proc.frames.items) :
    (catchError core activations e).Seated main := by
  obtain ⟨above, below, hframes, hfits, hbase⟩ := (standsOn_iff hloop).mp h
  rcases catchError_split e hframes hbase.floor with
    ⟨path, frame, handler, rest, frames, rfl, -, -, hitems, hcaught⟩ |
      ⟨rest, frames, habove, -, hitems, hcaught⟩
  all_goals rw [hcaught]
  · exact (standsOn_iff hloop).mpr
      ⟨rest, below, hitems, handing_of_failing hfits, hbase⟩
  · rw [habove] at hfits
    exact (standsOn_iff hloop).mpr
      ⟨rest, below, hitems, failing_of_append hfits, hbase⟩

theorem wellFramed_endCall {mark : LoopMark} {waiter : Waiter H}
    (exit : Except RuntimeError LoopExit)
    (h : StandsOn (LoopExit.phase core.proc exit)
      (.call mark waiter :: activations) core.proc.nesting
      core.proc.frames.items) :
    (endCall core activations mark waiter exit).Seated main := by
  obtain ⟨outer, above, below, hnesting, hframes, hbelow, hfits, hrest⟩ := h
  have hcut : (core.proc.frames.truncate mark.frames).items = below := by
    rw [← hbelow]
    exact items_truncate_append hframes
  have houter : core.proc.nesting - 1 = outer := by
    rw [hnesting]
    exact Nat.add_sub_cancel outer 1
  have hdone : StandsOn waiter.phase activations (core.proc.nesting - 1)
      (core.proc.frames.truncate mark.frames).items := by
    rw [hcut, houter]
    exact hrest
  unfold endCall
  rcases exit with e | exit
  · exact hdone
  · cases exit with
    | returned v =>
        have hnil : above = [] := hfits
        rw [hnil] at hframes
        change StandsOn waiter.phase activations (core.proc.nesting - 1)
          core.proc.frames.items
        rw [hframes, houter]
        exact hrest
    | yielded v => exact hdone
    | forceYielded => exact hdone

theorem wellFramed_endBody {r : CoroutineRef} {outer : Processor}
    {next : Except RuntimeError Value → Action H NativeOutcome}
    (exit : Except RuntimeError LoopExit) (hr : r ≠ main)
    (h : StandsOn (LoopExit.phase core.proc exit)
      (.body :: .switch r outer next :: activations) core.proc.nesting
      core.proc.frames.items) :
    (endBody core (.switch r outer next :: activations) exit).Seated main := by
  obtain ⟨-, hfits, -, -, hrest⟩ := h
  unfold endBody
  rcases exit with e | exit
  · exact ⟨r, outer, next, activations, rfl, hrest, fun hmain => absurd hmain hr,
      fun _ => trivial⟩
  · refine ⟨r, outer, next, activations, rfl, hrest, fun hmain => absurd hmain hr,
      fun _ => ?_⟩
    cases exit with
    | returned v => trivial
    | yielded v => exact hfits
    | forceYielded => exact hfits

theorem wellFramed_leave {w : World H} (exit : Except RuntimeError LoopExit)
    (hscheduled : w.Scheduled) (hnested : Nested w activations)
    (hloop : InLoop activations)
    (h : StandsOn (LoopExit.phase core.proc exit) activations
      core.proc.nesting core.proc.frames.items) :
    (leave core activations exit).Seated w.main := by
  cases hnested with
  | nil => exact absurd hloop not_inLoop_nil
  | call mark hwaiter hrest => exact wellFramed_endCall exit h
  | @body r outer next rest hscript hrest =>
      refine wellFramed_endBody exit ?_ h
      intro hmain
      obtain ⟨c, hc, -, hstate⟩ := hscript
      rw [hmain] at hc
      exact hstate (hscheduled.state_main hc)
  | switch r outer hacts hnext hrest => exact absurd hloop InLoop.ne_switch

end

section

variable [Host H] {core : Core H} {activations : List (Activation H)}
  {main : CoroutineRef}

omit [Host H] in
theorem counted_frames (core : Core H) :
    (counted core).proc.frames = core.proc.frames := by
  unfold counted
  rw [countInstruction_eq]

omit [Host H] in
theorem counted_nesting (core : Core H) :
    (counted core).proc.nesting = core.proc.nesting := by
  unfold counted
  rw [countInstruction_eq]

theorem poll_stands {above below : List Frame}
    (hframes : core.proc.frames.items = above ++ below)
    (hfits : LoopPhase.working.Fits above) :
    Exec.ResultStands below (Exec.poll core) := by
  have hcounted : (counted core).proc.frames.items = above ++ below := by
    rw [counted_frames, hframes]
  rcases poll_cases core with h | h | h
  · rw [h]
    exact ⟨above, hframes, hfits.failing⟩
  · rw [h]
    exact ⟨above, hcounted, hfits⟩
  · rw [h]
    exact Exec.step_stands hcounted hfits

theorem poll_nesting (core : Core H) :
    (Exec.resultCore (Exec.poll core)).proc.nesting = core.proc.nesting := by
  rcases poll_cases core with h | h | h
  · rw [h]
    rfl
  · rw [h]
    exact counted_nesting core
  · rw [h, Exec.step_nesting]
    exact counted_nesting core

theorem wellFramed_afterOutcome {o : Outcome} (hloop : InLoop activations)
    (h : StandsOn (o.phase core.proc) activations core.proc.nesting
      core.proc.frames.items) :
    (afterOutcome core activations o).Seated main := by
  obtain ⟨above, below, hframes, hfits, hbase⟩ := (standsOn_iff hloop).mp h
  cases o with
  | proceed =>
      exact wellFramed_exec hloop hbase (poll_nesting core) (poll_stands hframes hfits)
  | finish frame v =>
      have hfinished := Exec.finished_finish frame v core
      exact wellFramed_exec hloop hbase hfinished.keeps.nesting
        (hfinished.stands hframes hfits)
  | invoke f args => exact h
  | recover e decorator? handler flags returnAddress =>
      cases decorator? with
      | none => exact h
      | some decorator => exact h
  | tailCall request flags returnAddress =>
      have hcalled := Exec.called_call request.function request.args flags
        returnAddress
        { continuation? := request.continuation?.map .native
          errorHandler? := request.errorHandler?
          beforeUnwind? := request.beforeUnwind? } core
      exact wellFramed_exec (x := Exec.callRequest request flags returnAddress)
        hloop hbase hcalled.keeps.nesting (hcalled.stands hframes hfits)
  | yield v =>
      unfold afterOutcome
      rcases checkYield_cases core with hrun | ⟨violation, hrun⟩
      · rw [hrun]
        exact h
      · rw [hrun]
        exact h.failing
  | forceYield => exact h
  | «return» v => exact h

theorem wellFramed_beginCall (function : Value) (args : List Value)
    (waiter : Waiter H)
    (h : StandsOn waiter.phase activations core.proc.nesting
      core.proc.frames.items) :
    (beginCall core activations function args waiter).Seated main := by
  rcases beginCall_cases core activations function args waiter with hbegin | ⟨-, hbegin⟩
  all_goals rw [hbegin]
  · exact h
  · have hcalled := Exec.called_call function args { entryPoint := true } core.proc.ip {}
      core.nested
    have hbase : LoopBase (.call core.proc.mark waiter :: activations)
        (core.proc.nesting + 1) core.proc.frames.items :=
      .call _ waiter activations _ _ core.proc.frames.height_eq.symm h
    exact wellFramed_exec (.call _ waiter activations) hbase hcalled.keeps.nesting
      (hcalled.stands (List.nil_append _).symm rfl)

/-! ## Switches -/

theorem wellFramed_runCoroutine {w world : World H} {r : CoroutineRef}
    {c : Coroutine} {p outer : Processor} (args : List Value)
    {next : Except RuntimeError Value → Action H NativeOutcome}
    (hscheduled : w.Scheduled) (hc : w.coroutine? r = some c)
    (hsuspended : c.state.isSuspended = true) (hrests : c.state.Rests p)
    (h : StandsOn .working activations outer.nesting outer.frames.items) :
    (runCoroutine world (.switch r outer next :: activations) c p args).Seated
      w.main := by
  have hswitch : StandsOn .empty (.switch r outer next :: activations) 0 [] :=
    ⟨rfl, rfl, h⟩
  have hroused := roused_runCoroutine world (.switch r outer next :: activations) c p args
  generalize runCoroutine world _ c p args = m at hroused ⊢
  cases hroused with
  | native hkind =>
      rw [hscheduled.notStarted_of_native hc hkind hsuspended] at hrests
      exact ⟨hrests.1, hrests.2, h⟩
  | first hkind hstate =>
      rw [hstate] at hrests
      have hcalled := Exec.called_call c.entry args { entryPoint := true } 0 {}
        (⟨world, p.enterOutermost⟩ : Core H)
      exact wellFramed_exec (.body _) (.body _ hswitch) hcalled.keeps.nesting
        (hcalled.stands (hrests.2.trans (List.nil_append _).symm) rfl)
  | lost hkind hstate hnone =>
      rw [hstate] at hrests
      obtain ⟨f, hyielded, -⟩ := hrests
      rw [hyielded] at hnone
      cases hnone
  | yielded frame hkind hstate hsome =>
      rw [hstate] at hrests
      obtain ⟨f, hyielded, hrooted⟩ := hrests
      obtain rfl := Option.some.inj (hsome.symm.trans hyielded)
      exact ⟨rfl, hrooted, hswitch⟩
  | forced hkind hfirst hyielded =>
      rw [CoroutineState.eq_forceSuspended hsuspended hfirst hyielded] at hrests
      exact ⟨rfl, hrests, hswitch⟩

theorem wellFramed_resume (r : CoroutineRef) (args : List Value)
    (next : Except RuntimeError Value → Action H NativeOutcome)
    (hscheduled : core.world.Scheduled) (hworld : core.world.WellFramed)
    (h : StandsOn .working activations core.proc.nesting core.proc.frames.items) :
    (resume core activations r args next).Seated core.world.main := by
  rcases resume_cases core activations r args next with
    ⟨e, -, hresume⟩ | ⟨c, p, hc, hp, hstate, -, hresume⟩
  all_goals rw [hresume]
  · exact h
  · exact wellFramed_runCoroutine args hscheduled hc hstate (hworld r c p hc hp) h

omit [Host H] in
theorem wellFramed_enterMain (function : Value) (args : List Value)
    (next : Except RuntimeError Value → Action H NativeOutcome)
    (hscheduled : core.world.Scheduled) (hworld : core.world.WellFramed)
    (h : StandsOn .working activations core.proc.nesting core.proc.frames.items) :
    (enterMain core activations function args next).Seated core.world.main := by
  rcases enterMain_cases core activations function args next with
    henter | ⟨c, p, hc, hp, henter⟩
  all_goals rw [henter]
  · exact h
  · have hrests := hworld _ c p hc hp
    rw [hscheduled.state_main hc] at hrests
    exact ⟨hrests.1, hrests.2, h⟩

theorem wellFramed_act {a : Action H NativeOutcome} (hacts : ActsIn activations)
    (hscheduled : core.world.Scheduled) (hworld : core.world.WellFramed)
    (h : StandsOn .working activations core.proc.nesting core.proc.frames.items) :
    (act core activations a).Seated core.world.main := by
  cases a with
  | done outcome =>
      cases activations with
      | nil => exact h
      | cons top rest =>
          have hloop := hacts.resolve_left (List.cons_ne_nil top rest)
          obtain ⟨above, below, hframes, hfits, hbase⟩ := (standsOn_iff hloop).mp h
          have hcompleted := Exec.completed_completeNative outcome core
          exact wellFramed_exec hloop hbase hcompleted.keeps.nesting
            (hcompleted.stands hframes hfits)
  | fail e =>
      cases activations with
      | nil => exact h
      | cons top rest => exact h.failing
  | read next => exact h
  | write change next => exact h
  | call function args next => exact h
  | resume r args next => exact wellFramed_resume r args next hscheduled hworld h
  | enterMain function args next =>
      exact wellFramed_enterMain function args next hscheduled hworld h

theorem seated_next {m : Machine H} (hm : m.WellNested) (h : m.WellFramed) :
    m.next.Seated m.core.world.main := by
  obtain ⟨core, activations, control⟩ := m
  have hcontrol := hm.control
  have hseated := h.seated
  cases control with
  | loop o => exact wellFramed_afterOutcome hcontrol hseated
  | failed e => exact wellFramed_afterFailure e hcontrol hseated
  | unwinding e decorators =>
      cases decorators with
      | nil => exact wellFramed_catchError e hcontrol hseated
      | cons d rest => exact hseated
  | calling function args waiter =>
      exact wellFramed_beginCall function args waiter hseated
  | leaving exit =>
      exact wellFramed_leave exit hm.scheduled hm.nested hcontrol hseated
  | answering waiter result => exact wellFramed_answer result hcontrol hseated
  | switching exit =>
      obtain ⟨r, outer, next, rest, rfl, hrest, -⟩ := hseated
      exact hrest
  | running a => exact wellFramed_act hcontrol.1 hm.scheduled h.world hseated
  | settling o => exact wellFramed_settle hcontrol hseated
  | finished result => exact hseated

end

/-! ## The processors at rest -/

theorem rests_of_alike {s : CoroutineState} {p p' : Processor}
    (h : p.Alike p') (hrests : s.Rests p) : s.Rests p' := by
  cases s with
  | main => exact ⟨h.nesting.trans hrests.1, by rw [h.frames]; exact hrests.2⟩
  | notStarted =>
      exact ⟨h.nesting.trans hrests.1, by rw [h.frames]; exact hrests.2⟩
  | suspended =>
      obtain ⟨f, hyielded, hrooted⟩ := hrests
      refine ⟨f, h.yielded.trans hyielded, ?_⟩
      rw [h.frames]
      exact hrooted
  | forceSuspended =>
      unfold CoroutineState.Rests
      rw [h.frames]
      exact hrests
  | running => trivial
  | dead => trivial

theorem rests_of_fresh {p : Processor} (h : p.Fresh) : CoroutineState.notStarted.Rests p := by
  refine ⟨h.nesting, ?_⟩
  rw [h.frames]
  rfl

theorem wellFramed_of_extends {w w' : World H} (hw : w.WellFramed)
    (h : w.Extends w') : w'.WellFramed :=
  World.Resting.of_extends (Q := fun s p => s.Rests p) hw h rests_of_alike rests_of_fresh

theorem wellFramed_engage {w : World H} (hw : w.WellFramed) {r : CoroutineRef}
    {c : Coroutine} (hc : w.coroutine? r = some c) : (w.engage r).WellFramed :=
  World.Resting.engage (Q := fun s p => s.Rests p) hw hc id

theorem wellFramed_release {w : World H} (hscheduled : w.Scheduled)
    (hw : w.WellFramed) {r : CoroutineRef} (hr : r ∈ w.inFlight) {p : Processor}
    {exit : Except RuntimeError LoopExit} (h : Departs w.main r p exit) :
    (w.release r p exit).WellFramed := by
  obtain ⟨c, hc⟩ := hscheduled.present r hr
  refine World.Resting.release (Q := fun s p => s.Rests p) hw hc id ?_
  by_cases hmain : r = w.main
  · subst hmain
    rw [hscheduled.state_main hc]
    exact h.isMain rfl
  · rw [(hscheduled.running r c hc hmain).mpr hr]
    exact h.isOther hmain

variable {m m' : Machine H}

theorem Turn.main_eq (h : Turn m m') : m'.core.world.main = m.core.world.main := by
  cases h with
  | stays hworld h => exact hworld.main
  | enters hworld mark waiter h => exact hworld.main
  | leaves hworld a ha h => rw [hworld]
  | engages r c hready p hp hproc next hworld loops hloops h hfrom =>
      rw [hworld, World.main_engage]
  | releases r next exit hexit hworld h hcontrol =>
      rw [hworld, World.main_release]

theorem Turn.wellFramed (h : Turn m m') (hm : m.WellNested) (hg : m.WellFramed) :
    m'.core.world.WellFramed := by
  cases h with
  | stays hworld h => exact wellFramed_of_extends hg.world hworld
  | enters hworld mark waiter h => exact wellFramed_of_extends hg.world hworld
  | leaves hworld a ha h =>
      rw [hworld]
      exact hg.world
  | engages r c hready p hp hproc next hworld loops hloops h hfrom =>
      rw [hworld]
      exact wellFramed_engage hg.world hready.found
  | releases r next exit hexit hworld h hcontrol =>
      have hseated := hg.seated
      unfold Seated at hseated
      rw [hexit] at hseated
      obtain ⟨r', outer, next', rest, hactivations, -, hdeparts⟩ := hseated
      rw [h] at hactivations
      cases hactivations
      rw [hworld]
      refine wellFramed_release hm.scheduled hg.world ?_ hdeparts
      rw [hm.inFlight, h]
      exact List.mem_cons_self

theorem WellFramed.next [Host H] (hm : m.WellNested) (hg : m.WellFramed) :
    m.next.WellFramed := by
  have hturn := turn_next hm.control
  refine ⟨hturn.wellFramed hm hg, ?_⟩
  rw [hturn.main_eq]
  exact seated_next hm hg

theorem wellFramed_start {w : World H} (hw : w.WellFramed)
    (a : Action H NativeOutcome) : (start w a).WellFramed :=
  ⟨hw, rfl, rfl⟩

theorem wellFramed_startWorld (settings : Settings) (host : H.State) :
    (World.start settings host).WellFramed :=
  World.resting_start (Q := fun s p => s.Rests p) ⟨rfl, rfl⟩ rests_of_alike rests_of_fresh
    settings host

/-- In every state of every history the frames are where the loops say. -/
theorem Reachable.wellFramed [Host H] [LawfulHost H] (h : m.Reachable) :
    m.WellFramed := by
  induction h with
  | start settings host ha => exact wellFramed_start (wellFramed_startWorld _ _) _
  | next h ih => exact WellFramed.next h.wellNested ih
  | again h hfinished hw ha ih =>
      exact wellFramed_start (wellFramed_of_extends ih.world hw) _

end Machine

end ScriptEngine
