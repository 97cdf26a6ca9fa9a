import ScriptEngine.Proofs.Frame.EntryFrames
import ScriptEngine.Proofs.Machine.JumpTargets

/-!
# Where frames go on

A frame has the address at which its caller goes on.  The frames of a processor
are linked if each of these is one of the chunk of the frame below, or that frame
is of a host function that waits for the result.  While a function of a script
runs, the processor has the chunk of the topmost frame and an instruction in it,
or is right behind the last one.  All parts of a step keep to this.
-/

namespace ScriptEngine

variable {H : HostTypes}

/-- The frame is that of a function of a script. -/
structure Frame.Runs (w : World H) (f : Frame) (k : Closure) : Prop where
  callee : ∃ r, f.callee = .function r ∧ w.HasClosure r k
  awaiting : f.flags.awaiting = false

/-- The frame can be handed a result at the address. -/
def Frame.Takes (w : World H) (f : Frame) (address : Nat) : Prop :=
  f.flags.awaiting = true ∨ ∃ k, f.Runs w k ∧ address ≤ k.chunk.size

/-- Where a result goes: to the end of the loop, or to the caller at an address. -/
structure Due where
  entryPoint : Bool
  address : Nat

def Frame.due (f : Frame) : Due := ⟨f.flags.entryPoint, f.returnAddress⟩

/-- The topmost frame can take the result. -/
def Due.Lands (w : World H) (d : Due) : List Frame → Prop
  | [] => True
  | f :: _ => d.entryPoint = false → f.Takes w d.address

/-- Every frame can be handed the result of the one above. -/
def Linked (w : World H) : List Frame → Prop
  | [] => True
  | f :: rest => f.due.Lands w rest ∧ Linked w rest

/-- The processor has the chunk of the topmost frame and goes on in it. -/
def Processor.Scripting (w : World H) (p : Processor) : Prop :=
  ∃ f rest k, p.frames.items = f :: rest ∧ f.Runs w k ∧ p.chunk? = some k.chunk ∧
    p.ip ≤ k.chunk.size

/-- The function of the topmost frame is an object of the world. -/
def Core.Present (c : Core H) : Prop :=
  ∀ f r, c.proc.frames.top? = some f → f.callee = .function r →
    ∃ k, c.world.HasClosure r k

/-- What is to come finds the frames and the processor as it needs them. -/
def Outcome.FindsCode (w : World H) (p : Processor) : Outcome → Prop
  | .proceed => p.Scripting w
  | .finish frame _ => frame.due.Lands w p.frames.items
  | .invoke _ _ => True
  | .recover _ _ _ flags returnAddress =>
      Due.Lands w ⟨flags.entryPoint, returnAddress⟩ p.frames.items
  | .tailCall _ flags returnAddress =>
      flags.awaiting = false ∧
        Due.Lands w ⟨flags.entryPoint, returnAddress⟩ p.frames.items
  | .yield _ => ∀ f, p.yielded? = some f → f.due.Lands w p.frames.items
  | .forceYield => p.Scripting w
  | .return _ => True

/-! ## Other worlds, other variables -/

section

variable {w w' : World H} {f f' : Frame} {d : Due} {frames frames' : List Frame}

theorem Frame.Runs.mono {k : Closure} (h : f.Runs w k) (hw : w.KeepsClosures w') : f.Runs w' k := by
  obtain ⟨r, hr, hk⟩ := h.callee
  exact ⟨⟨r, hr, hw r k hk⟩, h.awaiting⟩

theorem Frame.Runs.of_sameCall {k : Closure} (h : f.Runs w k) (hsame : f.SameCall f') :
    f'.Runs w k := by
  refine ⟨?_, ?_⟩
  · rw [hsame.callee]
    exact h.callee
  · rw [hsame.flags]
    exact h.awaiting

theorem Frame.Takes.mono {address : Nat} (h : f.Takes w address) (hw : w.KeepsClosures w') :
    f.Takes w' address := by
  refine h.imp id fun ⟨k, hk, hle⟩ => ?_
  exact ⟨k, hk.mono hw, hle⟩

theorem Due.Lands.mono (h : d.Lands w frames) (hw : w.KeepsClosures w') : d.Lands w' frames := by
  cases frames with
  | nil => trivial
  | cons f rest => exact fun hentry => (h hentry).mono hw

theorem Linked.mono (h : Linked w frames) (hw : w.KeepsClosures w') : Linked w' frames := by
  induction frames with
  | nil => trivial
  | cons f rest ih => exact ⟨h.1.mono hw, ih h.2⟩

theorem Linked.of_alike (h : Linked w frames) (halike : FramesAlike frames frames') :
    Linked w frames' := by
  cases halike with
  | nil => trivial
  | @cons f f' hsame rest =>
      refine ⟨?_, h.2⟩
      unfold Frame.due
      rw [hsame.flags, hsame.returnAddress]
      exact h.1

theorem Linked.of_append {upper : List Frame} (h : Linked w (upper ++ frames)) :
    Linked w frames := by
  induction upper with
  | nil => exact h
  | cons f upper ih => exact ih h.2

theorem Processor.Scripting.mono {p : Processor} (h : p.Scripting w) (hw : w.KeepsClosures w') :
    p.Scripting w' := by
  obtain ⟨f, rest, k, hframes, hruns, hchunk, hip⟩ := h
  exact ⟨f, rest, k, hframes, hruns.mono hw, hchunk, hip⟩

end

namespace Exec

variable {c : Core H} {above below : List Frame}

/-- The frames are linked, and what is to come finds them as it needs them. -/
def ResultFindsCode : EStateM.Result RuntimeError (Core H) Outcome → Prop
  | .ok o c => Linked c.world c.proc.frames.items ∧ o.FindsCode c.world c.proc
  | .error _ c => Linked c.world c.proc.frames.items

/-! ## Calls and results -/

theorem Called.findsCode {flags : FrameFlags} {returnAddress : Nat} {handlers : Handlers}
    {r : EStateM.Result RuntimeError (Core H) Outcome}
    (h : Called c flags returnAddress handlers r) (hsound : c.world.IsSound)
    (hlinked : Linked c.world c.proc.frames.items)
    (hlands : Due.Lands c.world ⟨flags.entryPoint, returnAddress⟩ c.proc.frames.items)
    (hawaiting : flags.awaiting = false) (hpresent : (resultCore r).Present) :
    ResultFindsCode r := by
  cases h with
  | failed e h => exact hlinked
  | recovered e handler h => exact ⟨hlinked, hlands⟩
  | entered f args hdepth =>
      obtain ⟨k, hk⟩ := hpresent _ f rfl rfl
      have hclosure : c.world.closure f = k := hk.closure_eq
      refine ⟨⟨hlands, hlinked⟩, _, _, k, rfl, ⟨⟨f, rfl, hk⟩, hawaiting⟩, ?_, ?_⟩
      · exact congrArg (fun k => some k.chunk) hclosure
      · change (c.world.closure f).entry ≤ k.chunk.size
        rw [hclosure]
        exact (hsound f k hk).entry_le
  | invoked f args hdepth => exact ⟨⟨hlands, hlinked⟩, trivial⟩

theorem Delivered.findsCode {flags : FrameFlags} {returnAddress : Nat} {v? : Option Value}
    {r : EStateM.Result RuntimeError (Core H) Outcome}
    (h : Delivered c flags returnAddress v? r)
    (hframes : c.proc.frames.items = above ++ below)
    (hfits : (LoopPhase.handing flags.entryPoint).Fits above)
    (hlinked : Linked c.world c.proc.frames.items)
    (hlands : Due.Lands c.world ⟨flags.entryPoint, returnAddress⟩ c.proc.frames.items) :
    ResultFindsCode r := by
  cases h with
  | returned hentry => exact ⟨hlinked, trivial⟩
  | awaited hentry top rest hpush hawaiting =>
      rw [hpush, Stack.items_push] at hlinked
      exact ⟨hlinked.2, hlinked.1⟩
  | bottom hentry hempty =>
      rw [hframes] at hempty
      rw [(List.append_eq_nil_iff.mp hempty).1] at hfits
      have hrooted : Rooted (flags.entryPoint :: entries []) := hfits
      rw [hentry] at hrooted
      exact absurd rfl hrooted.of_false.ne_nil
  | resumed hentry top htop hawaiting =>
      obtain ⟨rest, hitems⟩ : ∃ rest, c.proc.frames.items = top :: rest :=
        List.head?_eq_some_iff.mp htop
      rw [hitems] at hlands
      rcases hlands hentry with hwaits | ⟨k, hruns, hle⟩
      · rw [hawaiting] at hwaits
        cases hwaits
      · obtain ⟨f, hcallee, hk⟩ := hruns.callee
        refine ⟨hlinked, top, rest, k, hitems, hruns, ?_, hle⟩
        dsimp only
        rw [hcallee]
        exact congrArg (fun k => some k.chunk) hk.closure_eq

theorem Finished.findsCode {frame : Frame} {v : Value}
    {r : EStateM.Result RuntimeError (Core H) Outcome} (h : Finished c frame v r)
    (hframes : c.proc.frames.items = above ++ below)
    (hfits : (LoopPhase.handing frame.flags.entryPoint).Fits above)
    (hlinked : Linked c.world c.proc.frames.items)
    (hlands : frame.due.Lands c.world c.proc.frames.items) : ResultFindsCode r := by
  cases h with
  | delivered v? hpost h => exact h.findsCode hframes hfits hlinked hlands
  | continued f h => exact ⟨hlinked, rfl, hlands⟩
  | notNumber h hv => exact hlinked

theorem Completed.findsCode {outcome : NativeOutcome}
    {r : EStateM.Result RuntimeError (Core H) Outcome} (h : Completed c outcome r)
    (hframes : c.proc.frames.items = above ++ below)
    (hfits : LoopPhase.working.Fits above)
    (hlinked : Linked c.world c.proc.frames.items) : ResultFindsCode r := by
  have hpopped {frame : Frame} {rest : Stack Frame} (hpush : c.proc.frames = rest.push frame) :
      frame.due.Lands c.world rest.items ∧ Linked c.world rest.items := by
    rw [hpush, Stack.items_push] at hlinked
    exact hlinked
  cases h with
  | lost outcome h => exact hlinked
  | returns frame rest hpush v h =>
      obtain ⟨above', -, hrest, hhanding⟩ := pop_stands hpush hframes hfits
      exact h.findsCode hrest hhanding (hpopped hpush).2 (hpopped hpush).1
  | yields frame rest hpush v =>
      refine ⟨(hpopped hpush).2, fun f hf => ?_⟩
      cases hf
      exact (hpopped hpush).1
  | replaced frame rest hpush hhandlers request =>
      exact ⟨(hpopped hpush).2, rfl, (hpopped hpush).1⟩
  | waits frame rest hpush hhandlers request =>
      obtain ⟨hlands, hrest⟩ := hpopped hpush
      exact ⟨⟨hlands, hrest⟩, rfl, fun _ => Or.inl rfl⟩

/-! ## Instructions -/

/-- What an instruction has come to is carried out at the next one. -/
theorem Carried.findsCode {r : EStateM.Result RuntimeError (Core H) Outcome} (h : Carried c r)
    (hframes : c.proc.frames.items = above ++ below) (hfits : LoopPhase.working.Fits above)
    (hsound : c.world.IsSound) (hlinked : Linked c.world c.proc.frames.items)
    (hscripting : c.proc.Scripting c.world) (hpresent : (resultCore r).Present) :
    ResultFindsCode r := by
  cases h with
  | stepMatches => exact ⟨hlinked, hscripting⟩
  | calls flags hentry handlers hhandlers h hscript hawaiting =>
      refine h.findsCode hsound hlinked ?_ hawaiting hpresent
      obtain ⟨f, rest, k, hitems, hruns, -, hip⟩ := hscripting
      rw [hitems]
      exact fun _ => Or.inr ⟨k, hruns, hip⟩
  | replaces caller rest hpush hcan flags hentry h hawaiting =>
      rw [hpush, Stack.items_push] at hlinked
      refine h.findsCode hsound hlinked.2 ?_ hawaiting hpresent
      rw [hentry]
      exact hlinked.1
  | returns frame rest hpush v h =>
      obtain ⟨above', -, hrest, hhanding⟩ := pop_stands hpush hframes hfits
      rw [hpush, Stack.items_push] at hlinked
      exact h.findsCode hrest hhanding hlinked.2 hlinked.1
  | lost reason => exact hlinked

section

variable [HostObjects H]

/-- The instruction to come is one of the function on top, and it goes on in it. -/
theorem scripting_stepIntent (hsound : c.world.IsSound) (hscripting : c.proc.Scripting c.world)
    {next : Intent} {c' : Core H} (hrun : stepIntent c = .ok next c') :
    c'.proc.Scripting c'.world ∧ (next ≠ .proceed → c'.proc.ip = c.proc.ip + 1) := by
  obtain ⟨f, rest, k, hitems, hruns, hchunk, -⟩ := hscripting
  obtain ⟨r, -, hk⟩ := hruns.callee
  have hplain := simple_stepIntent.plain c
  obtain ⟨-, hsteers⟩ := stepIntent_steers hchunk (hsound r k hk).chunk
  obtain ⟨hip, hnext⟩ := hsteers next c' hrun
  rw [hrun] at hplain
  have halike := hplain.frames
  rw [hitems] at halike
  refine ⟨?_, hnext⟩
  generalize hitems' : (resultCore (EStateM.Result.ok next c')).proc.frames.items = items
    at halike
  cases halike with
  | @cons f f' hsame rest =>
      exact ⟨f', rest, k, hitems', (hruns.of_sameCall hsame).mono hplain.world.keepsClosures,
        hplain.chunk.trans hchunk, hip⟩

theorem admits_stepIntent (hsound : c.world.IsSound) (hscripting : c.proc.Scripting c.world) :
    c.world.Admits (resultCore (stepIntent c)).world := by
  obtain ⟨f, rest, k, -, hruns, hchunk, -⟩ := hscripting
  obtain ⟨r, -, hk⟩ := hruns.callee
  exact (stepIntent_steers hchunk (hsound r k hk).chunk).1

theorem admits_step (hsound : c.world.IsSound) (hscripting : c.proc.Scripting c.world) :
    c.world.Admits (resultCore (step c)).world := by
  have hadmits := admits_stepIntent hsound hscripting
  rcases step_intent_cases c with ⟨e, hrun⟩ | hcarried
  · rw [hrun]
    exact hadmits
  · rw [hcarried.keeps.world]
    exact hadmits

theorem step_findsCode (hframes : c.proc.frames.items = above ++ below)
    (hfits : LoopPhase.working.Fits above) (hsound : c.world.IsSound)
    (hlinked : Linked c.world c.proc.frames.items) (hscripting : c.proc.Scripting c.world)
    (hpresent : (resultCore (step c)).Present) : ResultFindsCode (step c) := by
  have hplain := simple_stepIntent.plain c
  have hlinked' : Linked (resultCore (stepIntent c)).world
      (resultCore (stepIntent c)).proc.frames.items :=
    (hlinked.of_alike hplain.frames).mono hplain.world.keepsClosures
  have hsound' := hsound.of_admits (admits_stepIntent hsound hscripting)
  obtain ⟨above', hframes', -, hfits'⟩ := plain_stands hplain hframes hfits
  rw [step_eq] at hpresent ⊢
  cases hrun : stepIntent c with
  | error e c' =>
      rw [hrun] at hlinked'
      rw [run_bind_of_error hrun]
      exact hlinked'
  | ok next c' =>
      rw [hrun] at hlinked' hsound' hframes'
      rw [run_bind_of_ok hrun] at hpresent ⊢
      exact (carried_carryOut next c').findsCode hframes' hfits' hsound' hlinked'
        (scripting_stepIntent hsound hscripting hrun).1 hpresent

end

end Exec

end ScriptEngine
