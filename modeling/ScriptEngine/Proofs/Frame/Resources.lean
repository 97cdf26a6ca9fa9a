import ScriptEngine.Proofs.Coroutine.AllProcessors
import ScriptEngine.Proofs.Frame.YieldedFrames

/-!
# Limits on frames and loops

The settings limit the frames of a processor, the loops that run on it and the
coroutines in flight.  A frame is pushed only where there is room for it; the other
frames that come back to a processor, of a host function that waits for the call it
asked for or that has yielded, had been there just before.  A loop begins on a
processor only below the limit or as its first, and the first loop of a coroutine
begins only when the coroutine was let in flight.
-/

namespace ScriptEngine

variable {H : HostTypes}

/-- The frames of a processor, with the one that a yield has set aside. -/
def Processor.load (p : Processor) : Nat :=
  p.frames.height + if p.yielded?.isSome then 1 else 0

structure Processor.Within (s : Settings) (p : Processor) : Prop where
  frames : p.load ≤ s.maxCallDepth
  loops : p.nesting ≤ s.maxNativeNesting

namespace Processor

variable {s : Settings} {p p' : Processor}

theorem load_of_none (h : p.yielded? = none) : p.load = p.frames.height := by
  simp [load, h]

theorem load_le_of_none (h : p'.yielded? = none)
    (hframes : p'.frames.height ≤ p.frames.height) : p'.load ≤ p.load := by
  rw [load_of_none h]
  unfold load
  omega

theorem load_le_of_eq (h : p'.yielded? = p.yielded?)
    (hframes : p'.frames.height ≤ p.frames.height) : p'.load ≤ p.load := by
  unfold load
  rw [h]
  omega

theorem Within.mono (h : p.Within s) (hload : p'.load ≤ p.load)
    (hloops : p'.nesting ≤ p.nesting) : p'.Within s := by
  constructor
  · exact Nat.le_trans hload h.frames
  · exact Nat.le_trans hloops h.loops

theorem inert_within : Inert Within where
  fresh h := by
    constructor
    · simp [load_of_none h.yielded, h.frames, Stack.empty]
    · simp [h.nesting]
  alike h hp := by
    apply hp.mono
    · exact load_le_of_eq h.yielded (by simp [h.frames])
    · simp [h.nesting]

end Processor

theorem Core.Plain.within {c c' : Core H} {s : Settings} (h : c.Plain c')
    (hp : c.proc.Within s) : c'.proc.Within s := by
  apply hp.mono
  · exact Processor.load_le_of_eq h.yielded (Nat.le_of_eq h.height)
  · exact Nat.le_of_eq h.nesting

/-! ## Steps of a processor -/

namespace Exec

variable {c : Core H} {s : Settings} {r : EStateM.Result RuntimeError (Core H) Outcome}

theorem load_le_of_pop {frame : Frame} {rest : Stack Frame}
    (h : c.proc.frames = rest.push frame) (stack : Stack Value) :
    Processor.load { c.proc with frames := rest, stack } ≤ c.proc.load := by
  apply Processor.load_le_of_eq
  · rfl
  · simp [h]

theorem load_pushFrame (hnone : c.proc.yielded? = none) (f : Frame) :
    (c.proc.pushFrame f).load = c.proc.frames.height + 1 :=
  Processor.load_of_none hnone

theorem Called.within {flags : FrameFlags} {returnAddress : Nat} {handlers : Handlers}
    (h : Called c flags returnAddress handlers r)
    (hp : c.proc.Within c.world.settings) (hnone : c.proc.yielded? = none) :
    (resultCore r).proc.Within c.world.settings := by
  cases h with
  | failed e h => exact hp
  | recovered e handler h => exact hp
  | entered f args hdepth =>
      constructor
      · exact Nat.le_trans (Nat.le_of_eq (load_pushFrame hnone _)) hdepth
      · exact hp.loops
  | invoked f args hdepth =>
      constructor
      · exact Nat.le_trans (Nat.le_of_eq (load_pushFrame hnone _)) hdepth
      · exact hp.loops

theorem Delivered.load_le {flags : FrameFlags} {returnAddress : Nat} {v? : Option Value}
    (h : Delivered c flags returnAddress v? r) :
    (resultCore r).proc.load ≤ c.proc.load := by
  cases h with
  | awaited h top rest hframes hawaiting => exact load_le_of_pop hframes c.proc.stack
  | _ => exact Nat.le_refl _

theorem Finished.load_le {frame : Frame} {v : Value} (h : Finished c frame v r) :
    (resultCore r).proc.load ≤ c.proc.load := by
  cases h with
  | delivered v? hpost h => exact h.load_le
  | _ => exact Nat.le_refl _

theorem Delivered.within {flags : FrameFlags} {returnAddress : Nat} {v? : Option Value}
    (h : Delivered c flags returnAddress v? r) (hp : c.proc.Within s) :
    (resultCore r).proc.Within s := by
  have hnesting := Nat.le_of_eq h.keeps.nesting
  exact hp.mono h.load_le hnesting

theorem Finished.within {frame : Frame} {v : Value} (h : Finished c frame v r)
    (hp : c.proc.Within s) : (resultCore r).proc.Within s := by
  have hnesting := Nat.le_of_eq h.keeps.nesting
  exact hp.mono h.load_le hnesting

theorem Carried.within (h : Carried c r) (hp : c.proc.Within c.world.settings)
    (hnone : c.proc.yielded? = none) :
    (resultCore r).proc.Within c.world.settings := by
  have hpopped {frame : Frame} {rest : Stack Frame}
      (hframes : c.proc.frames = rest.push frame) (stack : Stack Value) :
      Processor.Within c.world.settings { c.proc with frames := rest, stack } :=
    hp.mono (load_le_of_pop hframes stack) (Nat.le_refl _)
  cases h with
  | stepMatches => exact hp
  | calls flags hentry handlers hhandlers h => exact h.within hp hnone
  | replaces caller rest hframes hcan flags hentry h =>
      exact h.within (hpopped hframes _) hnone
  | returns frame rest hframes v h => exact h.within (hpopped hframes _)
  | lost reason => exact hp

/-- The frame of a function that waits or has yielded was there before. -/
theorem Completed.load_le {outcome : NativeOutcome} (h : Completed c outcome r) :
    (resultCore r).proc.load ≤ c.proc.load := by
  cases h with
  | lost outcome h => exact Nat.le_refl _
  | returns frame rest hframes v h =>
      exact Nat.le_trans h.load_le (load_le_of_pop hframes c.proc.stack)
  | yields frame rest hframes v =>
      simp only [resultCore, Processor.load, hframes, Stack.height_push,
        Option.isSome_some, if_true]
      omega
  | replaced frame rest hframes hhandlers request =>
      exact load_le_of_pop hframes c.proc.stack
  | waits frame rest hframes hhandlers request =>
      apply Processor.load_le_of_eq
      · rfl
      · simp [resultCore, hframes]

theorem Completed.within {outcome : NativeOutcome} (h : Completed c outcome r)
    (hp : c.proc.Within s) : (resultCore r).proc.Within s := by
  have hnesting := Nat.le_of_eq h.keeps.nesting
  exact hp.mono h.load_le hnesting

variable [HostObjects H]

theorem step_within (hp : c.proc.Within c.world.settings) (hnone : c.proc.yielded? = none) :
    (resultCore (step c)).proc.Within c.world.settings := by
  rcases step_cases c with ⟨e, c', hrun, hplain⟩ | ⟨c', hplain, hcarried⟩
  · rw [hrun]
    exact hplain.within hp
  · rw [← hplain.world.settings]
    apply hcarried.within
    · rw [hplain.world.settings]
      exact hplain.within hp
    · rw [hplain.yielded, hnone]

end Exec

namespace Machine

open Exec

variable {core : Core H} {activations : List (Activation H)} {s : Settings}

theorem within_counted (hp : core.proc.Within s) : (counted core).proc.Within s := by
  unfold counted
  rw [countInstruction_eq]
  exact hp.mono (Nat.le_refl _) (Nat.le_refl _)

theorem within_truncate (hp : core.proc.Within s) (height : Nat) :
    Processor.Within s { core.proc with frames := core.proc.frames.truncate height } := by
  apply hp.mono
  · exact Processor.load_le_of_eq rfl (Nat.sub_le _ _)
  · exact Nat.le_refl _

theorem within_afterFailure (e : RuntimeError) (hp : core.proc.Within s) :
    (afterFailure core activations e).core.proc.Within s := by
  cases e with
  | script e => exact hp
  | _ => exact within_truncate hp _

theorem within_catchError (e : ScriptError) (hp : core.proc.Within s) :
    (catchError core activations e).core.proc.Within s := by
  rcases catchError_cases core activations e with
    ⟨frame, handler, n, -, hcaught⟩ | ⟨n, -, hcaught⟩
  all_goals rw [hcaught]
  · exact (within_truncate hp n).mono (Nat.le_refl _) (Nat.le_refl _)
  · exact within_truncate hp n

theorem within_leave (exit : Except RuntimeError LoopExit) (hp : core.proc.Within s) :
    (leave core activations exit).core.proc.Within s := by
  have hcut (mark : LoopMark) := within_truncate hp mark.frames
  unfold leave
  split
  · next mark waiter rest =>
      unfold endCall
      dsimp only
      split
      · exact hp.mono (Nat.le_refl _) (Nat.sub_le _ _)
      · exact (hcut mark).mono (Nat.le_refl _) (Nat.sub_le _ _)
      · exact (hcut mark).mono (Nat.le_refl _) (Nat.sub_le _ _)
  · unfold endBody
    dsimp only
    split
    · exact hp.mono (Nat.le_refl _) (Nat.zero_le _)
    · exact hp.mono (Processor.load_le_of_none rfl (Nat.zero_le _)) (Nat.zero_le _)
  · exact hp

theorem within_answer (result : Except RuntimeError Value) (waiter : Waiter H)
    (hp : core.proc.Within s) :
    (answer core activations result waiter).core.proc.Within s := by
  cases waiter with
  | recovered flags returnAddress =>
      cases result with
      | ok v =>
          rw [answer, exec_core]
          exact (delivered_deliver flags returnAddress (some v) core).within hp
      | error e => exact hp
  | caught flags returnAddress =>
      cases result with
      | ok v =>
          rw [answer, exec_core]
          exact (delivered_deliver flags returnAddress (some v) core).within hp
      | error e => exact hp
  | _ => exact hp

theorem within_settle (o : Outcome) (hp : core.proc.Within s) :
    (settle core activations o).core.proc.Within s := by
  cases o with
  | finish frame v =>
      rw [settle, exec_core]
      exact (finished_finish frame v core).within hp
  | _ => exact hp

section

variable [Host H]

theorem poll_within (hp : core.proc.Within core.world.settings)
    (hnone : core.proc.yielded? = none) :
    (resultCore (poll core)).proc.Within core.world.settings := by
  rcases poll_cases core with h | h | h
  · rw [h]
    exact hp
  · rw [h]
    exact within_counted hp
  · rw [h]
    apply step_within (c := counted core) (within_counted hp)
    unfold counted
    rw [countInstruction_eq]
    exact hnone

theorem within_afterOutcome {o : Outcome} (hp : core.proc.Within core.world.settings)
    (hyieldedFits : (Control.loop o : Control H).YieldedFits core.proc) :
    (afterOutcome core activations o).core.proc.Within core.world.settings := by
  cases o with
  | proceed =>
      rw [afterOutcome, exec_core]
      exact poll_within hp hyieldedFits
  | finish frame v =>
      rw [afterOutcome, exec_core]
      exact (finished_finish frame v core).within hp
  | tailCall request flags returnAddress =>
      rw [afterOutcome, exec_core]
      exact (called_call _ _ _ _ _ core).within hp hyieldedFits
  | recover e decorator? handler flags returnAddress =>
      cases decorator? <;> exact hp
  | yield v =>
      unfold afterOutcome
      rcases checkYield_cases core with h | ⟨violation, h⟩
      · rw [h]
        exact hp
      · rw [h]
        exact hp.mono (Processor.load_le_of_none rfl (Nat.le_refl _)) (Nat.le_refl _)
  | _ => exact hp

theorem within_beginCall (function : Value) (args : List Value) (waiter : Waiter H)
    (hp : core.proc.Within core.world.settings) (hnone : core.proc.yielded? = none) :
    (beginCall core activations function args waiter).core.proc.Within
      core.world.settings := by
  rcases beginCall_cases core activations function args waiter with hbegin | ⟨hroom, hbegin⟩
  all_goals rw [hbegin]
  · exact hp
  · have hnested : core.nested.proc.Within core.world.settings := ⟨hp.frames, hroom⟩
    rw [exec_core]
    exact (called_call function args { entryPoint := true } core.proc.ip {}
      core.nested).within hnested hnone

/-- A coroutine that is let in flight may have a loop. -/
theorem within_runCoroutine {world : World H} {c : Coroutine} {p : Processor}
    (args : List Value) (hp : p.Within world.settings)
    (hfirst : 1 ≤ world.settings.maxNativeNesting)
    (hyieldedFits : c.state.YieldedFits p) :
    (runCoroutine world activations c p args).core.proc.Within world.settings := by
  have hentered : p.enterOutermost.Within world.settings := ⟨hp.frames, hfirst⟩
  have hroused := roused_runCoroutine world activations c p args
  generalize runCoroutine world activations c p args = m at hroused ⊢
  cases hroused with
  | native hkind => exact hp
  | first hkind hstate =>
      rw [hstate] at hyieldedFits
      rw [exec_core]
      exact (called_call c.entry args { entryPoint := true } 0 {}
        ⟨world, p.enterOutermost⟩).within hentered hyieldedFits
  | lost hkind hstate hyielded => exact hp
  | yielded frame hkind hstate hyielded =>
      exact hentered.mono (Processor.load_le_of_none rfl (Nat.le_refl _)) (Nat.le_refl _)
  | forced hkind hfirst hyielded => exact hentered

theorem within_resume (r : CoroutineRef) (args : List Value)
    (next : Except RuntimeError Value → Action H NativeOutcome)
    (hp : core.proc.Within core.world.settings)
    (hrest : core.world.AtRest (Processor.Within core.world.settings))
    (hyieldedFits : core.world.YieldedFits) :
    (resume core activations r args next).core.proc.Within core.world.settings := by
  rcases resume_cases core activations r args next with
    ⟨e, -, hresume⟩ | ⟨c, p, hc, hproc, -, haccepted, hresume⟩
  all_goals rw [hresume]
  · exact hp
  · have hroom := World.length_inFlight_lt haccepted
    rw [← World.settings_engage core.world r] at hroom hrest ⊢
    apply within_runCoroutine args (hrest r c p hc hproc) _ (hyieldedFits r c p hc hproc)
    exact Nat.one_le_of_lt hroom

omit [Host H] in
theorem within_enterMain (function : Value) (args : List Value)
    (next : Except RuntimeError Value → Action H NativeOutcome)
    (hp : core.proc.Within s) (hrest : core.world.AtRest (Processor.Within s)) :
    (enterMain core activations function args next).core.proc.Within s := by
  rcases enterMain_cases core activations function args next with
    henter | ⟨c, p, hc, hproc, henter⟩
  all_goals rw [henter]
  · exact hp
  · exact hrest _ c p hc hproc

theorem within_act (a : Action H NativeOutcome) (hacts : ActsIn activations)
    (hp : core.proc.Within core.world.settings)
    (hrest : core.world.AtRest (Processor.Within core.world.settings))
    (hyieldedFits : core.world.YieldedFits) :
    (act core activations a).core.proc.Within core.world.settings := by
  cases a with
  | done outcome =>
      rcases hacts with rfl | hloop
      · exact hp
      · rw [act_done hloop, exec_core]
        exact (completed_completeNative outcome core).within hp
  | fail e =>
      rcases hacts with rfl | hloop
      · exact hp
      · rw [act_fail hloop]
        exact hp
  | resume r args next => exact within_resume r args next hp hrest hyieldedFits
  | enterMain function args next => exact within_enterMain function args next hp hrest
  | _ => exact hp

theorem within_next {m : Machine H} (hm : m.WellNested) (hyieldedFits : m.YieldedFits)
    (h : m.Everywhere Processor.Within) :
    m.next.core.proc.Within m.core.world.settings := by
  obtain ⟨core, activations, control⟩ := m
  have hfits := hm.control
  have hcontrol := hyieldedFits.yieldedFitsInFlight.control
  have hp := h.atHand
  cases control with
  | loop o => exact within_afterOutcome hp hcontrol
  | failed e => exact within_afterFailure e hp
  | unwinding e decorators =>
      cases decorators with
      | nil => exact within_catchError e hp
      | cons d rest => exact hp
  | calling function args waiter => exact within_beginCall function args waiter hp hcontrol
  | leaving exit => exact within_leave exit hp
  | answering waiter result => exact within_answer result waiter hp
  | switching exit =>
      obtain ⟨r, outer, next, rest, rfl, -⟩ := hfits
      exact h.waiting r outer next List.mem_cons_self
  | running a => exact within_act a hfits.1 hp h.resting hyieldedFits.world
  | settling o => exact within_settle o hp
  | finished result => exact hp

/-- No processor has more frames or more loops than the settings allow. -/
theorem Reachable.within [LawfulHost H] {m : Machine H} (h : m.Reachable) :
    m.Everywhere Processor.Within := by
  refine h.everywhere Processor.inert_within fun _ h => ?_
  exact within_next h.wellNested h.yieldedFits

end

end Machine

end ScriptEngine
