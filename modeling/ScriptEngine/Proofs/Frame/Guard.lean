import ScriptEngine.Proofs.Frame.LoopFrames
import ScriptEngine.Proofs.Machine.Operands

/-!
# Frames that catch errors

The function of a protected call has a frame with an error handler.  What runs
above that frame leaves it where it is, and leaves the frames and operands below
it as they were, until the frame is taken off for its result.
-/

namespace ScriptEngine

variable {H : HostTypes}

/-- Whatever is above some frames leaves the operands below it alone. -/
structure Processor.Over (operands : List Value) (above below : List Frame)
    (p : Processor) : Prop where
  frames : p.frames.items = above ++ below
  bases : ∀ f ∈ above, operands.length ≤ f.base
  operands : operands <:+ p.stack.items

/-- What is left of a call's frame as long as it is not taken off. -/
structure Frame.StandsFor (f f' : Frame) : Prop where
  base : f'.base = f.base
  returnAddress : f'.returnAddress = f.returnAddress
  handlers : f'.handlers = f.handlers
  entryPoint : f'.flags.entryPoint = f.flags.entryPoint

theorem Frame.StandsFor.trans {f g h : Frame} (hfg : f.StandsFor g)
    (hgh : g.StandsFor h) : f.StandsFor h := by
  constructor
  · rw [hgh.base, hfg.base]
  · rw [hgh.returnAddress, hfg.returnAddress]
  · rw [hgh.handlers, hfg.handlers]
  · rw [hgh.entryPoint, hfg.entryPoint]

theorem Frame.SameCall.standsFor {f f' : Frame} (h : f.SameCall f') :
    f.StandsFor f' := by
  refine ⟨h.base, h.returnAddress, h.handlers, ?_⟩
  rw [h.flags]

/-- A frame of a protected call, what is below it and the operands there. -/
structure Guard where
  frame : Frame
  ok : NativeRef
  failed : NativeRef
  below : List Frame
  operands : List Value
  base : frame.base = operands.length
  handlers : frame.handlers =
    { continuation? := some (.native ok), errorHandler? := some failed }

namespace Guard

/-- The guard is on the frames, with these frames above. -/
def Under (g : Guard) (above : List Frame) (p : Processor) : Prop :=
  ∃ f, g.frame.StandsFor f ∧ p.Over g.operands above (f :: g.below)

/-- The guard is on the frames. -/
def Holds (g : Guard) (p : Processor) : Prop :=
  ∃ above, g.Under above p

/-- The function has yielded and its frame is kept for the resume. -/
def SetAside (g : Guard) (p : Processor) : Prop :=
  ∃ f, g.frame.StandsFor f ∧ p.yielded? = some f ∧
    p.Over g.operands [] g.below

/-- The frame has been taken off with its result. -/
inductive Returns (g : Guard) (v : Value) : Outcome → Prop where
  | finish (f : Frame) (h : g.frame.StandsFor f) : Returns g v (.finish f v)
  | tailCall : Returns g v
      (.tailCall { function := .native g.ok, args := [v] }
        { entryPoint := g.frame.flags.entryPoint } g.frame.returnAddress)

end Guard

theorem Processor.Over.of_same {p p' : Processor} {operands : List Value}
    {above below : List Frame} (h : p.Over operands above below)
    (hframes : p'.frames = p.frames) (hstack : p'.stack = p.stack) :
    p'.Over operands above below := by
  refine ⟨?_, h.bases, ?_⟩
  · rw [hframes]
    exact h.frames
  · rw [hstack]
    exact h.operands

theorem Guard.Holds.of_same {g : Guard} {p p' : Processor} (h : g.Holds p)
    (hframes : p'.frames = p.frames) (hstack : p'.stack = p.stack) :
    g.Holds p' := by
  obtain ⟨above, f, hf, hover⟩ := h
  exact ⟨above, f, hf, hover.of_same hframes hstack⟩

theorem suffix_truncate {operands : List Value} {s : Stack Value} {height : Nat}
    (h : operands <:+ s.items) (hheight : operands.length ≤ height) :
    operands <:+ (s.truncate height).items := by
  rw [Stack.items_truncate]
  refine List.suffix_of_suffix_length_le h (List.drop_suffix _ _) ?_
  have hlength := h.length_le
  rw [← s.height_eq] at hlength
  rw [List.length_drop, ← s.height_eq]
  omega

theorem Guard.Holds.operands {g : Guard} {p : Processor} (h : g.Holds p) :
    g.operands <:+ p.stack.items := by
  obtain ⟨above, f, -, hover⟩ := h
  exact hover.operands

/-- Frames above the guard may be cut off. -/
theorem Guard.Holds.truncate {g : Guard} {p p' : Processor} {frames : Nat}
    (h : g.Holds p) (hheight : g.below.length < frames)
    (hframes : p'.frames = p.frames.truncate frames)
    (hstack : g.operands <:+ p'.stack.items) : g.Holds p' := by
  obtain ⟨above, f, hf, hover⟩ := h
  refine ⟨above.drop (p.frames.height - frames), f, hf, ?_, ?_, hstack⟩
  · have hdrop : p.frames.height - frames ≤ above.length := by
      rw [p.frames.height_eq, hover.frames, List.length_append, List.length_cons]
      omega
    rw [hframes, Stack.items_truncate, hover.frames,
      List.drop_append_of_le_length hdrop]
  · exact fun d hd => hover.bases d (List.mem_of_mem_drop hd)

namespace Exec

/-! ## Above frames that stay -/

section

variable {c : Core H} {operands : List Value} {above below : List Frame}

def ResultOver (operands : List Value) (below : List Frame)
    (r : EStateM.Result RuntimeError (Core H) Outcome) : Prop :=
  ∃ above, (resultCore r).proc.Over operands above below

theorem Called.over {flags : FrameFlags} {returnAddress : Nat}
    {handlers : Handlers} {r : EStateM.Result RuntimeError (Core H) Outcome}
    (h : Called c flags returnAddress handlers r)
    (hover : c.proc.Over operands above below) : ResultOver operands below r := by
  have hpushed {f : Frame} (hbase : f.base = c.proc.stack.height) :
      ∀ g ∈ f :: above, operands.length ≤ g.base := by
    intro g hg
    rcases List.mem_cons.mp hg with rfl | hg
    · rw [hbase, c.proc.stack.height_eq]
      exact hover.operands.length_le
    · exact hover.bases g hg
  cases h with
  | failed e h => exact ⟨above, hover⟩
  | recovered e handler h => exact ⟨above, hover⟩
  | entered f args hdepth =>
      exact ⟨_ :: above, congrArg (_ :: ·) hover.frames, hpushed rfl,
        hover.operands⟩
  | invoked f args hdepth =>
      exact ⟨_ :: above, congrArg (_ :: ·) hover.frames, hpushed rfl,
        hover.operands⟩

theorem suffix_pushAll {s : Stack Value} (vs : List Value)
    (h : operands <:+ s.items) : operands <:+ (s.pushAll vs).items := by
  rw [Stack.items_pushAll]
  exact h.trans (List.suffix_append _ _)

/-- The frame that is taken off is the topmost one. -/
theorem over_of_push {p : Processor} {frame : Frame} {rest : Stack Frame}
    (hover : p.Over operands above below) (hpush : p.frames = rest.push frame)
    (habove : above ≠ []) :
    ∃ above', above = frame :: above' ∧ rest.items = above' ++ below ∧
      ∀ f ∈ above', operands.length ≤ f.base := by
  have hframes := hover.frames
  rw [hpush, Stack.items_push] at hframes
  cases above with
  | nil => exact absurd rfl habove
  | cons f above' =>
      obtain ⟨rfl, hrest⟩ := List.cons.inj hframes
      exact ⟨above', rfl, hrest,
        fun f hf => hover.bases f (List.mem_cons_of_mem _ hf)⟩

theorem over_nil_of_push {p : Processor} {f frame : Frame} {rest : Stack Frame}
    (hover : p.Over operands [] (f :: below)) (hpush : p.frames = rest.push frame) :
    frame = f ∧ rest.items = below := by
  have hframes := hover.frames
  rw [hpush, Stack.items_push] at hframes
  exact List.cons.inj hframes

/-- A result that ends the loop or finds a frame above stays above. -/
theorem Delivered.over {flags : FrameFlags} {returnAddress : Nat}
    {v? : Option Value} {r : EStateM.Result RuntimeError (Core H) Outcome}
    (h : Delivered c flags returnAddress v? r)
    (hover : c.proc.Over operands above below)
    (hroom : flags.entryPoint = true ∨ above ≠ []) :
    ResultOver operands below r := by
  cases h with
  | returned hentry => exact ⟨above, hover⟩
  | awaited hentry top rest hpush hawaiting =>
      rcases hroom with hroom | hroom
      · rw [hroom] at hentry
        cases hentry
      · obtain ⟨above', -, hrest, hbases⟩ := over_of_push hover hpush hroom
        exact ⟨above', hrest, hbases, hover.operands⟩
  | bottom hentry hempty =>
      exact ⟨above, hover.frames, hover.bases, suffix_pushAll _ hover.operands⟩
  | resumed hentry top htop hawaiting =>
      exact ⟨above, hover.frames, hover.bases, suffix_pushAll _ hover.operands⟩

theorem Finished.over {frame : Frame} {v : Value}
    {r : EStateM.Result RuntimeError (Core H) Outcome} (h : Finished c frame v r)
    (hover : c.proc.Over operands above below)
    (hroom : frame.flags.entryPoint = true ∨ above ≠ []) :
    ResultOver operands below r := by
  cases h with
  | delivered v? hpost h => exact h.over hover hroom
  | continued f h => exact ⟨above, hover⟩
  | notNumber h hv => exact ⟨above, hover⟩

/-- There is a frame to take off, and one to hand its result to. -/
def Roomy (above : List Frame) : Prop :=
  ∃ top rest, above = top :: rest ∧ (top.flags.entryPoint = true ∨ rest ≠ [])

theorem roomy_of_working (h : LoopPhase.working.Fits above) : Roomy above := by
  have hrooted : Rooted (entries above) := h
  cases above with
  | nil => exact absurd rfl hrooted.ne_nil
  | cons top rest =>
      refine ⟨top, rest, rfl, ?_⟩
      rcases rooted_cons.mp hrooted with ⟨-, hentry⟩ | ⟨-, hrest⟩
      · exact Or.inl hentry
      · right
        rintro rfl
        exact hrest.ne_nil rfl

theorem Carried.over {r : EStateM.Result RuntimeError (Core H) Outcome}
    (h : Carried c r) (hover : c.proc.Over operands above below)
    (hroom : Roomy above) : ResultOver operands below r := by
  obtain ⟨top, above', rfl, hroom⟩ := hroom
  cases h with
  | stepMatches => exact ⟨_, hover⟩
  | calls flags hentry handlers hhandlers h => exact h.over hover
  | replaces caller rest hpush hcan flags hentry h =>
      obtain ⟨above'', habove, hrest, hbases⟩ :=
        over_of_push hover hpush (List.cons_ne_nil _ _)
      cases habove
      refine h.over ⟨hrest, hbases, suffix_truncate hover.operands ?_⟩
      exact hover.bases _ List.mem_cons_self
  | returns frame rest hpush v h =>
      obtain ⟨above'', habove, hrest, hbases⟩ :=
        over_of_push hover hpush (List.cons_ne_nil _ _)
      cases habove
      refine h.over ⟨hrest, hbases, suffix_truncate hover.operands ?_⟩ hroom
      exact hover.bases _ List.mem_cons_self
  | lost reason => exact ⟨_, hover⟩

theorem Completed.over {outcome : NativeOutcome}
    {r : EStateM.Result RuntimeError (Core H) Outcome}
    (h : Completed c outcome r) (hover : c.proc.Over operands above below)
    (hroom : Roomy above) : ResultOver operands below r := by
  obtain ⟨top, above', rfl, hroom⟩ := hroom
  have hpopped {frame : Frame} {rest : Stack Frame}
      (hpush : c.proc.frames = rest.push frame) :
      frame = top ∧ rest.items = above' ++ below ∧
        ∀ f ∈ above', operands.length ≤ f.base := by
    obtain ⟨above'', habove, hrest, hbases⟩ :=
      over_of_push hover hpush (List.cons_ne_nil _ _)
    cases habove
    exact ⟨rfl, hrest, hbases⟩
  cases h with
  | lost outcome h => exact ⟨_, hover⟩
  | returns frame rest hpush v h =>
      obtain ⟨rfl, hrest, hbases⟩ := hpopped hpush
      exact h.over ⟨hrest, hbases, hover.operands⟩ hroom
  | yields frame rest hpush v =>
      obtain ⟨-, hrest, hbases⟩ := hpopped hpush
      exact ⟨above', hrest, hbases, hover.operands⟩
  | replaced frame rest hpush hhandlers request =>
      obtain ⟨-, hrest, hbases⟩ := hpopped hpush
      exact ⟨above', hrest, hbases, hover.operands⟩
  | waits frame rest hpush hhandlers request =>
      obtain ⟨rfl, hrest, hbases⟩ := hpopped hpush
      refine ⟨_ :: above', congrArg (_ :: ·) hrest, ?_, hover.operands⟩
      intro f hf
      rcases List.mem_cons.mp hf with rfl | hf
      · exact hover.bases frame List.mem_cons_self
      · exact hbases f hf

end

/-! ## In the loop of the guard -/

section

variable {c : Core H} {g : Guard} {above : List Frame}

/-- The guard is still there, or it has been taken off with its result. -/
def ResultGuarded (g : Guard)
    (r : EStateM.Result RuntimeError (Core H) Outcome) : Prop :=
  g.Holds (resultCore r).proc ∨
    ∃ v o c', r = .ok o c' ∧ g.Returns v o ∧
      c'.proc.Over g.operands [] g.below

theorem guarded_of_over {f : Frame} (hf : g.frame.StandsFor f)
    {r : EStateM.Result RuntimeError (Core H) Outcome}
    (h : ResultOver g.operands (f :: g.below) r) : ResultGuarded g r := by
  obtain ⟨above, hover⟩ := h
  exact Or.inl ⟨above, f, hf, hover⟩

theorem Delivered.guarded {flags : FrameFlags} {returnAddress : Nat}
    {v? : Option Value} {r : EStateM.Result RuntimeError (Core H) Outcome}
    (h : Delivered c flags returnAddress v? r) (hunder : g.Under above c.proc) :
    ResultGuarded g r := by
  obtain ⟨f, hf, hover⟩ := hunder
  cases above with
  | cons top above =>
      exact guarded_of_over hf (h.over hover (Or.inr (List.cons_ne_nil _ _)))
  | nil =>
      cases h with
      | returned hentry => exact Or.inl ⟨[], f, hf, hover⟩
      | awaited hentry top rest hpush hawaiting =>
          obtain ⟨rfl, hrest⟩ := over_nil_of_push hover hpush
          exact Or.inr ⟨_, _, _, rfl, .finish top hf, hrest, hover.bases,
            hover.operands⟩
      | bottom hentry hempty =>
          rw [hover.frames] at hempty
          cases hempty
      | resumed hentry top htop hawaiting =>
          exact Or.inl ⟨[], f, hf, hover.frames, hover.bases,
            suffix_pushAll _ hover.operands⟩

theorem Finished.guarded {frame : Frame} {v : Value}
    {r : EStateM.Result RuntimeError (Core H) Outcome} (h : Finished c frame v r)
    (hunder : g.Under above c.proc) : ResultGuarded g r := by
  cases h with
  | delivered v? hpost h => exact h.guarded hunder
  | continued f h => exact Or.inl ⟨above, hunder⟩
  | notNumber h hv => exact Or.inl ⟨above, hunder⟩

/-- The result of the guard itself goes to the library. -/
theorem Finished.returns {f : Frame} (hf : g.frame.StandsFor f) {v : Value}
    {r : EStateM.Result RuntimeError (Core H) Outcome} (h : Finished c f v r) :
    ∃ o, r = .ok o c ∧ g.Returns v o := by
  have hcontinuation : f.handlers.continuation? = some (.native g.ok) := by
    rw [hf.handlers, g.handlers]
  cases h with
  | delivered v? hpost h =>
      rw [hcontinuation] at hpost
      rcases hpost with ⟨hnone, -⟩ | ⟨p, hpost, -⟩
      · cases hnone
      · cases hpost
  | continued f' h =>
      rw [hcontinuation] at h
      cases h
      refine ⟨_, rfl, ?_⟩
      rw [hf.returnAddress, hf.entryPoint]
      exact .tailCall
  | notNumber h hv =>
      rw [hcontinuation] at h
      cases h

theorem isEmpty_handlers {f : Frame} (hf : g.frame.StandsFor f) :
    f.handlers.isEmpty = false := by
  rw [hf.handlers, g.handlers]
  rfl

theorem isEmpty_of_canTailCall {p : Processor} {caller : Frame}
    {rest : Stack Frame} (hpush : p.frames = rest.push caller)
    (hcan : canTailCall p = true) : caller.handlers.isEmpty = true := by
  unfold canTailCall at hcan
  have htop : p.frames.top? = some caller := by rw [hpush]; rfl
  rw [htop] at hcan
  simp only [Bool.and_eq_true] at hcan
  exact hcan.2.1.2

theorem Carried.guarded {r : EStateM.Result RuntimeError (Core H) Outcome}
    (h : Carried c r) (hunder : g.Under above c.proc) : ResultGuarded g r := by
  obtain ⟨f, hf, hover⟩ := hunder
  cases above with
  | nil =>
      cases h with
      | stepMatches => exact Or.inl ⟨[], f, hf, hover⟩
      | calls flags hentry handlers hhandlers h =>
          exact guarded_of_over hf (h.over hover)
      | replaces caller rest hpush hcan flags hentry h =>
          obtain ⟨rfl, -⟩ := over_nil_of_push hover hpush
          have hempty := isEmpty_of_canTailCall hpush hcan
          rw [isEmpty_handlers hf] at hempty
          cases hempty
      | returns frame rest hpush v h =>
          obtain ⟨rfl, hrest⟩ := over_nil_of_push hover hpush
          obtain ⟨o, hr, hreturns⟩ := h.returns hf
          have hbase : g.operands.length ≤ frame.base :=
            Nat.le_of_eq (hf.base.trans g.base).symm
          exact Or.inr ⟨v, o, _, hr, hreturns, hrest, hover.bases,
            suffix_truncate hover.operands hbase⟩
      | lost reason => exact Or.inl ⟨[], f, hf, hover⟩
  | cons top above =>
      cases h with
      | stepMatches => exact Or.inl ⟨_, f, hf, hover⟩
      | calls flags hentry handlers hhandlers h =>
          exact guarded_of_over hf (h.over hover)
      | replaces caller rest hpush hcan flags hentry h =>
          obtain ⟨above', habove, hrest, hbases⟩ :=
            over_of_push hover hpush (List.cons_ne_nil _ _)
          cases habove
          refine guarded_of_over hf
            (h.over ⟨hrest, hbases, suffix_truncate hover.operands ?_⟩)
          exact hover.bases _ List.mem_cons_self
      | returns frame rest hpush v h =>
          obtain ⟨above', habove, hrest, hbases⟩ :=
            over_of_push hover hpush (List.cons_ne_nil _ _)
          cases habove
          refine h.guarded
            ⟨f, hf, hrest, hbases, suffix_truncate hover.operands ?_⟩
          exact hover.bases _ List.mem_cons_self
      | lost reason => exact Or.inl ⟨_, f, hf, hover⟩

theorem Completed.guarded {outcome : NativeOutcome}
    {r : EStateM.Result RuntimeError (Core H) Outcome}
    (h : Completed c outcome r) (hunder : g.Under above c.proc) :
    ResultGuarded g r ∨
      ∃ v c', r = .ok (.yield v) c' ∧ g.SetAside c'.proc := by
  obtain ⟨f, hf, hover⟩ := hunder
  cases above with
  | nil =>
      cases h with
      | lost outcome h => exact Or.inl (Or.inl ⟨[], f, hf, hover⟩)
      | returns frame rest hpush v h =>
          obtain ⟨rfl, hrest⟩ := over_nil_of_push hover hpush
          obtain ⟨o, hr, hreturns⟩ := h.returns hf
          exact Or.inl (Or.inr ⟨v, o, _, hr, hreturns, hrest, hover.bases,
            hover.operands⟩)
      | yields frame rest hpush v =>
          obtain ⟨rfl, hrest⟩ := over_nil_of_push hover hpush
          exact Or.inr ⟨v, _, rfl, frame, hf, rfl, hrest, hover.bases,
            hover.operands⟩
      | replaced frame rest hpush hhandlers request =>
          obtain ⟨rfl, -⟩ := over_nil_of_push hover hpush
          rw [isEmpty_handlers hf] at hhandlers
          cases hhandlers
      | waits frame rest hpush hhandlers request =>
          obtain ⟨rfl, hrest⟩ := over_nil_of_push hover hpush
          have hwaiting : g.frame.StandsFor
              { frame with flags := { frame.flags with awaiting := true } } :=
            ⟨hf.base, hf.returnAddress, hf.handlers, hf.entryPoint⟩
          exact Or.inl (Or.inl ⟨[], _, hwaiting, congrArg (_ :: ·) hrest,
            hover.bases, hover.operands⟩)
  | cons top above =>
      left
      have hpopped {frame : Frame} {rest : Stack Frame}
          (hpush : c.proc.frames = rest.push frame) :
          frame = top ∧ rest.items = above ++ f :: g.below ∧
            ∀ f ∈ above, g.operands.length ≤ f.base := by
        obtain ⟨above', habove, hrest, hbases⟩ :=
          over_of_push hover hpush (List.cons_ne_nil _ _)
        cases habove
        exact ⟨rfl, hrest, hbases⟩
      cases h with
      | lost outcome h => exact Or.inl ⟨_, f, hf, hover⟩
      | returns frame rest hpush v h =>
          obtain ⟨rfl, hrest, hbases⟩ := hpopped hpush
          exact h.guarded ⟨f, hf, hrest, hbases, hover.operands⟩
      | yields frame rest hpush v =>
          obtain ⟨-, hrest, hbases⟩ := hpopped hpush
          exact Or.inl ⟨_, f, hf, hrest, hbases, hover.operands⟩
      | replaced frame rest hpush hhandlers request =>
          obtain ⟨-, hrest, hbases⟩ := hpopped hpush
          exact Or.inl ⟨_, f, hf, hrest, hbases, hover.operands⟩
      | waits frame rest hpush hhandlers request =>
          obtain ⟨rfl, hrest, hbases⟩ := hpopped hpush
          refine Or.inl ⟨_ :: above, f, hf, congrArg (_ :: ·) hrest, ?_,
            hover.operands⟩
          intro f' hf'
          rcases List.mem_cons.mp hf' with rfl | hf'
          · exact hover.bases frame List.mem_cons_self
          · exact hbases f' hf'

end

/-! ## Instructions -/

section

variable [HostObjects H] {c : Core H} {g : Guard} {operands : List Value}
  {above below : List Frame}

omit [HostObjects H] in
theorem over_of_alike {p p' : Processor} (hover : p.Over operands above below)
    (halike : FramesAlike p.frames.items p'.frames.items)
    (hstack : operands <:+ p'.stack.items) (habove : above ≠ []) :
    ∃ above', FramesAlike above above' ∧ p'.Over operands above' below := by
  rw [hover.frames] at halike
  cases above with
  | nil => exact absurd rfl habove
  | cons f rest =>
      generalize hitems : p'.frames.items = items at halike
      cases halike with
      | @cons f f' hsame rest' =>
          refine ⟨f' :: rest, .cons hsame rest, hitems, ?_, hstack⟩
          intro d hd
          rcases List.mem_cons.mp hd with rfl | hd
          · rw [hsame.base]
            exact hover.bases f List.mem_cons_self
          · exact hover.bases d (List.mem_cons_of_mem f hd)

omit [HostObjects H] in
theorem under_of_alike {p p' : Processor} (hunder : g.Under above p)
    (halike : FramesAlike p.frames.items p'.frames.items)
    (hstack : g.operands <:+ p'.stack.items) : g.Holds p' := by
  obtain ⟨f, hf, hover⟩ := hunder
  cases above with
  | cons top above =>
      obtain ⟨above', -, hover'⟩ :=
        over_of_alike hover halike hstack (List.cons_ne_nil top above)
      exact ⟨above', f, hf, hover'⟩
  | nil =>
      have hframes := hover.frames
      rw [hframes] at halike
      generalize hitems : p'.frames.items = items at halike
      cases halike with
      | @cons f f' hsame rest =>
          exact ⟨[], f', hf.trans hsame.standsFor, hitems, hover.bases, hstack⟩

omit [HostObjects H] in
theorem roomy_of_alike {above' : List Frame} (hroom : Roomy above)
    (halike : FramesAlike above above') : Roomy above' := by
  obtain ⟨top, rest, rfl, hroom⟩ := hroom
  cases halike with
  | @cons f f' hsame rest =>
      refine ⟨f', rest, rfl, ?_⟩
      rw [hsame.flags]
      exact hroom

theorem step_over_of_suffix (hover : c.proc.Over operands above below)
    (hroom : Roomy above)
    (hstack : operands <:+ (resultCore (stepIntent c)).proc.stack.items) :
    ResultOver operands below (step c) := by
  obtain ⟨top, rest, habove, -⟩ := id hroom
  have hplain := simple_stepIntent.plain c
  obtain ⟨above', halike, hover'⟩ := over_of_alike hover hplain.frames hstack
    (habove ▸ List.cons_ne_nil _ _)
  rcases step_intent_cases c with ⟨e, hrun⟩ | hcarried
  · rw [hrun]
    exact ⟨above', hover'⟩
  · exact hcarried.over hover' (roomy_of_alike hroom halike)

theorem step_over (hover : c.proc.Over operands above below)
    (hroom : Roomy above) (h : c.Sparing) :
    ResultOver operands below (step c) := by
  obtain ⟨top, rest, habove, -⟩ := id hroom
  have htop : c.proc.frames.top? = some top := by
    unfold Stack.top?
    rw [hover.frames, habove]
    rfl
  have hbase := hover.bases top (habove ▸ List.mem_cons_self)
  exact step_over_of_suffix hover hroom (h top htop _ hover.operands hbase)

theorem step_guarded (hunder : g.Under above c.proc) (h : c.SelfContained) :
    ResultGuarded g (step c) := by
  obtain ⟨f, hf, hover⟩ := id hunder
  obtain ⟨top, htop, hbase⟩ : ∃ top, c.proc.frames.top? = some top ∧
      g.operands.length ≤ top.base := by
    unfold Stack.top?
    rw [hover.frames]
    cases above with
    | nil => exact ⟨f, rfl, Nat.le_of_eq (g.base.symm.trans hf.base.symm)⟩
    | cons top rest => exact ⟨top, rfl, hover.bases top List.mem_cons_self⟩
  have hstack := h.suffix htop hover.operands hbase
  have hplain := simple_stepIntent.plain c
  have hholds := under_of_alike hunder hplain.frames hstack
  rcases step_intent_cases c with ⟨e, hrun⟩ | hcarried
  · rw [hrun]
    exact Or.inl hholds
  · obtain ⟨above', hunder'⟩ := hholds
    exact hcarried.guarded hunder'

end

end Exec

end ScriptEngine
