import ScriptEngine.Proofs.Frame.ReturnHeights
import ScriptEngine.Proofs.Frame.Protection

/-!
# Operands at the end of loops

Nested loops have their ceiling where the operands were when they began.  All
loops of a machine are below theirs at any time, those that wait included, so
none leaves more operands than it found.
-/

namespace ScriptEngine

variable {H : HostTypes}

/-- Where a loop stands with its operands while a nested call runs. -/
def Waiter.Under (ceiling height : Nat) (frames : List Frame) : Waiter H → Prop
  | .action _ => Hosted ceiling height frames
  | .decorated _ _ => Faulty ceiling frames
  | .refused _ _ _ _ => Handed ceiling height frames
  | .recovered _ _ => Handed ceiling height frames
  | .caught _ _ => Handed ceiling height frames
  | .processor => True

/-- Only a loop that has returned keeps its operands. -/
def LoopExit.Under (ceiling height : Nat) : Except RuntimeError LoopExit → Prop
  | .ok (.returned _) => height ≤ ceiling
  | _ => True

def Control.Under (ceiling height : Nat) (frames : List Frame) : Control H → Prop
  | .loop o => o.Under ceiling height frames
  | .failed _ => Faulty ceiling frames
  | .unwinding _ _ => Faulty ceiling frames
  | .calling _ _ waiter => waiter.Under ceiling height frames
  | .leaving exit => LoopExit.Under ceiling height exit
  | .answering waiter _ => waiter.Under ceiling height frames
  | .switching _ => True
  | .running _ => Hosted ceiling height frames
  | .settling o => o.Under ceiling height frames
  | .finished _ => True

/-- The innermost loop stands so with its operands, and all others as they have
to while they wait.  The outermost loop of a coroutine has no ceiling. -/
def HeightsOn (under : Nat → Nat → List Frame → Prop) :
    List (Activation H) → Nat → List Frame → Prop
  | .call mark waiter :: rest, height, frames =>
      ∃ above below, frames = above ++ below ∧ below.length = mark.frames ∧
        under mark.stack height above ∧
        HeightsOn (fun ceiling height frames => waiter.Under ceiling height frames)
          rest mark.stack below
  | .body :: rest, _, _ => HeightsOn (fun _ _ _ => True) rest 0 []
  | .switch _ outer _ :: rest, _, _ =>
      HeightsOn Hosted rest outer.stack.height outer.frames.items
  | [], _, _ => True

namespace Machine

/-- All loops of the machine are below their ceilings. -/
def Bounded (m : Machine H) : Prop :=
  HeightsOn (fun ceiling height frames => m.control.Under ceiling height frames)
    m.activations m.core.proc.stack.height m.core.proc.frames.items

end Machine

variable {activations : List (Activation H)} {height : Nat} {frames : List Frame}
  {under under' : Nat → Nat → List Frame → Prop}

theorem HeightsOn.mono (h : HeightsOn under activations height frames)
    (hunder : ∀ ceiling frames, under ceiling height frames →
      under' ceiling height frames) :
    HeightsOn under' activations height frames := by
  cases activations with
  | nil => trivial
  | cons a rest =>
      cases a with
      | call mark waiter =>
          obtain ⟨above, below, hframes, hbelow, habove, hrest⟩ := h
          exact ⟨above, below, hframes, hbelow, hunder _ _ habove, hrest⟩
      | body => exact h
      | switch r outer next => exact h

theorem Waiter.Under.mono {waiter : Waiter H} {ceiling height' : Nat}
    (h : waiter.Under ceiling height frames) (hle : height' ≤ height) :
    waiter.Under ceiling height' frames := by
  cases waiter with
  | action next => exact Hosted.mono h hle
  | decorated e rest => exact h
  | refused e handler flags returnAddress => exact Handed.mono h hle
  | recovered flags returnAddress => exact Handed.mono h hle
  | caught flags returnAddress => exact Handed.mono h hle
  | processor => trivial

/-- A loop that waits for a nested call may get fewer operands back. -/
theorem HeightsOn.lower {waiter : Waiter H} {height' : Nat}
    (h : HeightsOn (fun ceiling height frames =>
      waiter.Under ceiling height frames) activations height frames)
    (hle : height' ≤ height) :
    HeightsOn (fun ceiling height frames => waiter.Under ceiling height frames)
      activations height' frames := by
  cases activations with
  | nil => trivial
  | cons a rest =>
      cases a with
      | call mark waiter' =>
          obtain ⟨above, below, hframes, hbelow, hunder, hrest⟩ := h
          exact ⟨above, below, hframes, hbelow,
            Waiter.Under.mono hunder hle, hrest⟩
      | body => exact h
      | switch r outer next => exact h

namespace Machine

section

variable {core : Core H}

/-! ## Programs in a loop -/

/-- Running a program in a loop, by where it leaves the operands. -/
theorem bounded_exec {route : Route} {x : Exec H Outcome} {s : LoopPhase}
    (h : HeightsOn under activations core.proc.stack.height
      core.proc.frames.items)
    (hstands : StandsOn s activations core.proc.nesting core.proc.frames.items)
    (hloop : InLoop activations)
    (hresult : ∀ ceiling above below, core.proc.frames.items = above ++ below →
      s.Fits above → under ceiling core.proc.stack.height above →
        Exec.ResultUnder ceiling below (x core)) :
    (exec route x core activations).Bounded := by
  unfold exec
  cases hloop with
  | body rest =>
      cases x core with
      | ok o core' => cases route <;> exact h
      | error e core' => cases route <;> exact h
  | call mark waiter rest =>
      obtain ⟨above, below, hframes, hbelow, hunder, hrest⟩ := h
      obtain ⟨-, above', below', -, hframes', hbelow', hfits, -⟩ := hstands
      obtain ⟨rfl, rfl⟩ := List.append_inj' (hframes'.symm.trans hframes)
        (hbelow'.trans hbelow.symm)
      have hafter := hresult mark.stack above' below' hframes hfits hunder
      cases hx : x core with
      | ok o core' =>
          rw [hx] at hafter
          obtain ⟨above, hitems, hunder⟩ := hafter
          cases route <;> exact ⟨above, below', hitems, hbelow, hunder, hrest⟩
      | error e core' =>
          rw [hx] at hafter
          obtain ⟨above, hitems, hfaulty⟩ := hafter
          cases route with
          | loop => exact ⟨above, below', hitems, hbelow, hfaulty, hrest⟩
          | settling => exact ⟨above, below', hitems, hbelow, trivial, hrest⟩

end

section

variable [Host H] {core : Core H}

theorem poll_under {ceiling : Nat} {above below : List Frame}
    (hframes : core.proc.frames.items = above ++ below)
    (hfits : LoopPhase.working.Fits above) (hscripted : Scripted ceiling above) :
    Exec.ResultUnder ceiling below (Exec.poll core) := by
  have hcounted : (counted core).proc.frames.items = above ++ below := by
    rw [counted_frames, hframes]
  rcases poll_cases core with h | h | h
  · rw [h]
    exact ⟨above, hframes, Or.inl hscripted⟩
  · rw [h]
    exact ⟨above, hcounted, trivial⟩
  · rw [h]
    exact Exec.step_under hcounted hfits hscripted

theorem bounded_afterOutcome {o : Outcome} (hloop : InLoop activations)
    (hstands : StandsOn (o.phase core.proc) activations core.proc.nesting
      core.proc.frames.items)
    (h : HeightsOn (fun ceiling height frames => o.Under ceiling height frames)
      activations core.proc.stack.height core.proc.frames.items) :
    (afterOutcome core activations o).Bounded := by
  cases o with
  | proceed =>
      refine bounded_exec h hstands hloop ?_
      intro ceiling above below hframes hfits hscripted
      exact poll_under hframes hfits hscripted
  | finish frame v =>
      refine bounded_exec h hstands hloop ?_
      intro ceiling above below hframes hfits hhanded
      exact (Exec.finished_finish frame v core).under hframes hfits hhanded
  | invoke f args => exact h
  | recover e decorator? handler flags returnAddress =>
      cases decorator? with
      | none => exact h
      | some decorator => exact h
  | tailCall request flags returnAddress =>
      refine bounded_exec h hstands hloop ?_
      intro ceiling above below hframes hfits hhanded
      exact (Exec.called_call _ _ _ _ _ core).under hframes hhanded.2
        (Or.inl hhanded.1)
  | yield v =>
      unfold afterOutcome
      rcases checkYield_cases core with hrun | ⟨violation, hrun⟩
      · rw [hrun]
        exact h.mono fun _ _ _ => trivial
      · rw [hrun]
        exact h
  | forceYield => exact h
  | «return» v => exact h

theorem bounded_beginCall (function : Value) (args : List Value)
    {waiter : Waiter H}
    (h : HeightsOn (fun ceiling height frames =>
      waiter.Under ceiling height frames) activations core.proc.stack.height
      core.proc.frames.items) :
    (beginCall core activations function args waiter).Bounded := by
  rcases beginCall_cases core activations function args waiter with hbegin | ⟨-, hbegin⟩
  all_goals rw [hbegin]
  · exact h
  · have hcalled := Exec.called_call function args { entryPoint := true } core.proc.ip {}
      core.nested
    have hunder : Exec.ResultUnder core.proc.stack.height
        core.proc.frames.items _ :=
      hcalled.under (List.nil_append _).symm
        (Or.inr ⟨Nat.le_refl _, quiet_nil⟩) (Or.inl rfl)
    unfold exec
    split
    · next o core' hrun =>
        rw [hrun] at hunder
        obtain ⟨above, hitems, hunder⟩ := hunder
        exact ⟨above, core.proc.frames.items, hitems,
          core.proc.frames.height_eq.symm, hunder, h⟩
    · next e core' hrun =>
        rw [hrun] at hunder
        obtain ⟨above, hitems, hfaulty⟩ := hunder
        exact ⟨above, core.proc.frames.items, hitems,
          core.proc.frames.height_eq.symm, hfaulty, h⟩

/-! ## Errors and the end of a loop -/

omit [Host H] in
theorem bounded_afterFailure (e : RuntimeError)
    (h : HeightsOn (fun ceiling _ frames => Faulty ceiling frames) activations
      core.proc.stack.height core.proc.frames.items) :
    (afterFailure core activations e).Bounded := by
  have hcut : HeightsOn (fun _ _ _ => True) activations core.proc.stack.height
      (core.proc.frames.truncate (frameFloor activations)).items := by
    cases activations with
    | nil => trivial
    | cons a rest =>
        cases a with
        | call mark waiter =>
            obtain ⟨above, below, hframes, hbelow, -, hrest⟩ := h
            refine ⟨[], below, ?_, hbelow, trivial, hrest⟩
            change (core.proc.frames.truncate mark.frames).items = below
            rw [← hbelow]
            exact items_truncate_append hframes
        | body => exact h
        | switch r outer next => exact h
  cases e with
  | script e => exact h
  | contract v => exact hcut
  | internal reason => exact hcut
  | terminated => exact hcut
  | fault f => exact hcut

omit [Host H] in
theorem bounded_catchError (e : ScriptError) (hloop : InLoop activations)
    (h : HeightsOn (fun ceiling _ frames => Faulty ceiling frames) activations
      core.proc.stack.height core.proc.frames.items) :
    (catchError core activations e).Bounded := by
  cases hloop with
  | body rest =>
      rcases catchError_cases core (.body :: rest) e with
        ⟨frame, handler, n, -, hcaught⟩ | ⟨n, -, hcaught⟩
      all_goals rw [hcaught]; exact h
  | call mark waiter rest =>
      obtain ⟨above, below, hframes, hbelow, hfaulty, hrest⟩ := h
      have hfloor : frameFloor (.call mark waiter :: rest) = below.length :=
        hbelow.symm
      rcases catchError_split e hframes hfloor with
        ⟨path, frame, handler, rest', frames, rfl, -, -, hitems, hcaught⟩ |
          ⟨rest', frames, -, -, hitems, hcaught⟩
      all_goals rw [hcaught]
      · exact ⟨rest', below, hitems, hbelow, hfaulty.handed _, hrest⟩
      · exact ⟨rest', below, hitems, hbelow, trivial, hrest⟩

omit [Host H] in
theorem height_truncate_le (s : Stack Value) (n : Nat) :
    (s.truncate n).height ≤ n := by
  rw [Stack.height_eq, Stack.items_truncate, List.length_drop, ← Stack.height_eq]
  omega

omit [Host H] in
/-- A nested loop that ends leaves no more operands than it found. -/
theorem height_endCall {mark : LoopMark} {waiter : Waiter H}
    {exit : Except RuntimeError LoopExit}
    (h : LoopExit.Under mark.stack core.proc.stack.height exit) :
    (endCall core activations mark waiter exit).core.proc.stack.height ≤
      mark.stack := by
  unfold endCall
  cases exit with
  | error e => exact height_truncate_le _ _
  | ok exit =>
      cases exit with
      | returned v => exact h
      | yielded v => exact height_truncate_le _ _
      | forceYielded => exact height_truncate_le _ _

omit [Host H] in
/-- What lies below a body belongs to the processors that wait for it. -/
theorem bounded_endBody {rest : List (Activation H)} (exit : Except RuntimeError LoopExit)
    (hstands : StandsOn (LoopExit.phase core.proc exit) (.body :: rest)
      core.proc.nesting core.proc.frames.items)
    (h : HeightsOn (fun _ _ _ => True) rest 0 []) :
    (endBody core rest exit).Bounded := by
  obtain ⟨-, -, hswitch⟩ := hstands
  have hrest {height : Nat} {frames : List Frame} :
      HeightsOn (fun _ _ _ => True) rest height frames := by
    cases rest with
    | nil => trivial
    | cons a rest =>
        cases a with
        | call mark waiter =>
            obtain ⟨outer, -, -, hnesting, -⟩ := hswitch
            omega
        | body => exact absurd hswitch.1 (Nat.zero_ne_one)
        | switch r outer next => exact h
  unfold endBody
  cases exit <;> exact hrest

omit [Host H] in
/-- A nested loop that ends leaves the frames that it found. -/
theorem items_endCall {mark : LoopMark} {waiter : Waiter H}
    {exit : Except RuntimeError LoopExit} {above below : List Frame}
    (hstands : StandsOn (LoopExit.phase core.proc exit)
      (.call mark waiter :: activations) core.proc.nesting core.proc.frames.items)
    (hframes : core.proc.frames.items = above ++ below)
    (hbelow : below.length = mark.frames) :
    (endCall core activations mark waiter exit).core.proc.frames.items = below := by
  have hcut : (core.proc.frames.truncate mark.frames).items = below := by
    rw [← hbelow]
    exact items_truncate_append hframes
  unfold endCall
  rcases exit with e | exit
  · exact hcut
  · cases exit with
    -- A loop that has returned has popped its entry frame by itself.
    | returned v =>
        obtain ⟨-, above', below', -, hframes', hbelow', hnil, -⟩ := hstands
        obtain ⟨rfl, rfl⟩ := List.append_inj' (hframes'.symm.trans hframes)
          (hbelow'.trans hbelow.symm)
        have habove : above' = [] := hnil
        rw [habove] at hframes
        exact hframes
    | yielded v => exact hcut
    | forceYielded => exact hcut

omit [Host H] in
theorem bounded_leave (exit : Except RuntimeError LoopExit)
    (hloop : InLoop activations)
    (hstands : StandsOn (LoopExit.phase core.proc exit) activations
      core.proc.nesting core.proc.frames.items)
    (h : HeightsOn (fun ceiling height _ => LoopExit.Under ceiling height exit)
      activations core.proc.stack.height core.proc.frames.items) :
    (leave core activations exit).Bounded := by
  cases hloop with
  | body rest => exact bounded_endBody exit hstands h
  | call mark waiter rest =>
      obtain ⟨above, below, hframes, hbelow, hexit, hrest⟩ := h
      have hheight : (endCall core rest mark waiter exit).core.proc.stack.height ≤
          mark.stack := height_endCall hexit
      have hlower := hrest.lower hheight
      rw [← items_endCall hstands hframes hbelow] at hlower
      change (endCall core rest mark waiter exit).Bounded
      unfold Bounded
      revert hlower
      unfold endCall
      rcases exit with e | exit
      · exact id
      · cases exit <;> exact id

omit [Host H] in
theorem bounded_answer {waiter : Waiter H} (result : Except RuntimeError Value)
    (hwaiter : waiter.Fits activations)
    (hstands : StandsOn waiter.phase activations core.proc.nesting
      core.proc.frames.items)
    (h : HeightsOn (fun ceiling height frames =>
      waiter.Under ceiling height frames) activations core.proc.stack.height
      core.proc.frames.items) :
    (answer core activations result waiter).Bounded := by
  cases waiter with
  | action next => exact h
  | decorated e rest => exact h
  | refused e handler flags returnAddress => exact h
  | recovered flags returnAddress =>
      cases result with
      | ok v =>
          refine bounded_exec h hstands hwaiter ?_
          intro ceiling above below hframes hfits hhanded
          exact (Exec.delivered_deliver flags returnAddress (some v) core).under
            hframes hfits hhanded
      | error e => exact h.mono fun _ _ => Handed.faulty
  | caught flags returnAddress =>
      cases result with
      | ok v =>
          refine bounded_exec h hstands hwaiter ?_
          intro ceiling above below hframes hfits hhanded
          exact (Exec.delivered_deliver flags returnAddress (some v) core).under
            hframes hfits hhanded
      | error e => exact h.mono fun _ _ => Handed.faulty
  | processor => exact h

omit [Host H] in
theorem bounded_settle {o : Outcome} (hloop : InLoop activations)
    (hstands : StandsOn (o.phase core.proc) activations core.proc.nesting
      core.proc.frames.items)
    (h : HeightsOn (fun ceiling height frames => o.Under ceiling height frames)
      activations core.proc.stack.height core.proc.frames.items) :
    (settle core activations o).Bounded := by
  cases o with
  | finish frame v =>
      refine bounded_exec h hstands hloop ?_
      intro ceiling above below hframes hfits hhanded
      exact (Exec.finished_finish frame v core).under hframes hfits hhanded
  | _ => exact h

/-! ## Host functions and switches -/

theorem bounded_runCoroutine {world : World H} {r : CoroutineRef}
    {outer : Processor} {next : Except RuntimeError Value → Action H NativeOutcome}
    (c : Coroutine) (p : Processor) (args : List Value)
    (h : HeightsOn Hosted activations outer.stack.height outer.frames.items) :
    (runCoroutine world (.switch r outer next :: activations) c p
      args).Bounded := by
  have hroused := roused_runCoroutine world (.switch r outer next :: activations) c p args
  generalize runCoroutine world _ c p args = m at hroused ⊢
  cases hroused with
  | first hkind hstate =>
      unfold exec
      split <;> exact h
  | _ => exact h

theorem bounded_resume (r : CoroutineRef) (args : List Value)
    (next : Except RuntimeError Value → Action H NativeOutcome)
    (h : HeightsOn Hosted activations core.proc.stack.height
      core.proc.frames.items) :
    (resume core activations r args next).Bounded := by
  rcases resume_cases core activations r args next with
    ⟨e, -, hresume⟩ | ⟨c, p, -, -, -, -, hresume⟩
  all_goals rw [hresume]
  · exact h
  · exact bounded_runCoroutine c p args h

omit [Host H] in
theorem bounded_enterMain (function : Value) (args : List Value)
    (next : Except RuntimeError Value → Action H NativeOutcome)
    (h : HeightsOn Hosted activations core.proc.stack.height
      core.proc.frames.items) :
    (enterMain core activations function args next).Bounded := by
  rcases enterMain_cases core activations function args next with
    henter | ⟨c, p, -, -, henter⟩
  all_goals
    rw [henter]
    exact h

theorem bounded_act {a : Action H NativeOutcome} (hacts : ActsIn activations)
    (hstands : StandsOn .working activations core.proc.nesting
      core.proc.frames.items)
    (h : HeightsOn Hosted activations core.proc.stack.height
      core.proc.frames.items) :
    (act core activations a).Bounded := by
  cases a with
  | done outcome =>
      rcases hacts with rfl | hloop
      · trivial
      · rw [act_done hloop]
        refine bounded_exec h hstands hloop ?_
        intro ceiling above below hframes hfits hhosted
        exact (Exec.completed_completeNative outcome core).under hframes hfits
          hhosted
  | fail e =>
      rcases hacts with rfl | hloop
      · trivial
      · rw [act_fail hloop]
        exact h.mono fun _ _ => Hosted.faulty
  | read next => exact h
  | write change next => exact h
  | call function args next => exact h
  | resume r args next => exact bounded_resume r args next h
  | enterMain function args next => exact bounded_enterMain function args next h

/-! ## Steps -/

theorem Bounded.next {m : Machine H} (h : m.Bounded) (hm : m.WellNested)
    (hg : m.WellFramed) : m.next.Bounded := by
  obtain ⟨core, activations, control⟩ := m
  have hcontrol := hm.control
  have hseated := hg.seated
  cases control with
  | loop o => exact bounded_afterOutcome hcontrol hseated h
  | failed e => exact bounded_afterFailure e h
  | unwinding e decorators =>
      cases decorators with
      | nil => exact bounded_catchError e hcontrol h
      | cons d rest => exact h
  | calling function args waiter => exact bounded_beginCall function args h
  | leaving exit => exact bounded_leave exit hcontrol hseated h
  | answering waiter result => exact bounded_answer result hcontrol hseated h
  | switching exit =>
      obtain ⟨r, outer, next, rest, rfl, -⟩ := hcontrol
      exact h
  | running a => exact bounded_act hcontrol.1 hseated h
  | settling o => exact bounded_settle hcontrol hseated h
  | finished result => exact h

/-- No loop of any history rises above its ceiling. -/
theorem Reachable.bounded [LawfulHost H] {m : Machine H} (h : m.Reachable) :
    m.Bounded := by
  induction h with
  | start settings host ha => trivial
  | next h ih => exact ih.next h.wellNested h.wellFramed
  | again h hfinished hw ha ih => trivial

end

end Machine

end ScriptEngine
