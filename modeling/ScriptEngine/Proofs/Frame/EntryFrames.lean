import ScriptEngine.Proofs.Machine.Results

/-!
# What a loop has on the frames

A loop begins with one entry frame, and returning from it ends the loop.  All
frames the loop has are above that one, and none of them is an entry frame.
While a result or a call is handed on, the frame it belongs to is off the
frames already, and may be the entry frame.  `LoopPhase` says which of these a
loop is in the middle of; the parts of a step lead from one phase to another.
-/

namespace ScriptEngine

/-- Only the last of the marks is set. -/
def Rooted : List Bool → Prop
  | [] => False
  | [b] => b = true
  | b :: c :: rest => b = false ∧ Rooted (c :: rest)

theorem rooted_cons {b : Bool} {marks : List Bool} :
    Rooted (b :: marks) ↔
      (marks = [] ∧ b = true) ∨ (b = false ∧ Rooted marks) := by
  cases marks with
  | nil => simp [Rooted]
  | cons c rest => simp [Rooted]

theorem Rooted.ne_nil {marks : List Bool} (h : Rooted marks) : marks ≠ [] := by
  rintro rfl
  exact h

theorem Rooted.nil_of_true {marks : List Bool} (h : Rooted (true :: marks)) :
    marks = [] := by
  rcases rooted_cons.mp h with ⟨hmarks, -⟩ | ⟨hfalse, -⟩
  · exact hmarks
  · cases hfalse

theorem Rooted.of_false {marks : List Bool} (h : Rooted (false :: marks)) :
    Rooted marks := by
  rcases rooted_cons.mp h with ⟨-, hfalse⟩ | ⟨-, hmarks⟩
  · cases hfalse
  · exact hmarks

/-- What is above a mark is gone, and the rest is as rooted as before. -/
theorem Rooted.of_append {marks marks' : List Bool} {b : Bool}
    (h : Rooted (marks ++ b :: marks')) : Rooted (b :: marks') := by
  induction marks with
  | nil => exact h
  | cons c rest ih =>
      rcases rooted_cons.mp h with ⟨hnil, -⟩ | ⟨-, hrest⟩
      · exact absurd hnil (by simp)
      · exact ih hrest

/-- The marks above the last one are not set. -/
theorem Rooted.eq_false {marks marks' : List Bool} (h : Rooted (marks ++ marks'))
    (hmarks' : marks' ≠ []) : ∀ b ∈ marks, b = false := by
  induction marks with
  | nil =>
      intro b hb
      cases hb
  | cons c rest ih =>
      intro b hb
      rcases rooted_cons.mp h with ⟨hnil, -⟩ | ⟨hc, hrest⟩
      · exact absurd (List.append_eq_nil_iff.mp hnil).2 hmarks'
      · rcases List.mem_cons.mp hb with rfl | hb
        · exact hc
        · exact ih hrest b hb

/-- Which frames begin a loop. -/
def entries (frames : List Frame) : List Bool :=
  frames.map (·.flags.entryPoint)

inductive LoopPhase where
  /-- The topmost frame is at work. -/
  | working
  /-- A frame, or a call that would have had one, is being dealt with. -/
  | handing (entryPoint : Bool)
  /-- A host function has yielded; its frame is set aside. -/
  | yielding (frame? : Option Frame)
  | failing
  /-- The loop has returned. -/
  | empty

/-- The frames of a loop in this phase. -/
def LoopPhase.Fits (frames : List Frame) : LoopPhase → Prop
  | .working => Rooted (entries frames)
  | .handing entryPoint => Rooted (entryPoint :: entries frames)
  | .yielding frame? =>
      ∃ f, frame? = some f ∧ Rooted (f.flags.entryPoint :: entries frames)
  | .failing => frames = [] ∨ Rooted (entries frames)
  | .empty => frames = []

/-- An error can come at any time. -/
theorem LoopPhase.Fits.failing {frames : List Frame} {s : LoopPhase}
    (h : s.Fits frames) : LoopPhase.failing.Fits frames := by
  have hhanding {b : Bool} (h : Rooted (b :: entries frames)) :
      LoopPhase.failing.Fits frames := by
    rcases rooted_cons.mp h with ⟨hnil, -⟩ | ⟨-, hrooted⟩
    · exact Or.inl (List.map_eq_nil_iff.mp hnil)
    · exact Or.inr hrooted
  cases s with
  | working => exact Or.inr h
  | handing b => exact hhanding h
  | yielding frame? =>
      obtain ⟨f, -, hrooted⟩ := h
      exact hhanding hrooted
  | failing => exact h
  | empty => exact Or.inl h

def Outcome.phase (p : Processor) : Outcome → LoopPhase
  | .proceed => .working
  | .finish frame _ => .handing frame.flags.entryPoint
  | .invoke _ _ => .working
  | .recover _ _ _ flags _ => .handing flags.entryPoint
  | .tailCall _ flags _ => .handing flags.entryPoint
  | .yield _ => .yielding p.yielded?
  | .forceYield => .working
  | .return _ => .empty

variable {H : HostTypes}

namespace Exec

/-- What was below the loop is still there, and what the loop has fits. -/
def ResultStands (below : List Frame) :
    EStateM.Result RuntimeError (Core H) Outcome → Prop
  | .ok o c =>
      ∃ above, c.proc.frames.items = above ++ below ∧
        (o.phase c.proc).Fits above
  | .error _ c =>
      ∃ above, c.proc.frames.items = above ++ below ∧
        LoopPhase.failing.Fits above

variable {c : Core H} {above below : List Frame}

theorem Called.stands {flags : FrameFlags} {returnAddress : Nat}
    {handlers : Handlers} {r : EStateM.Result RuntimeError (Core H) Outcome}
    (h : Called c flags returnAddress handlers r)
    (hframes : c.proc.frames.items = above ++ below)
    (hfits : (LoopPhase.handing flags.entryPoint).Fits above) :
    ResultStands below r := by
  cases h with
  | failed e h => exact ⟨above, hframes, hfits.failing⟩
  | recovered e handler h => exact ⟨above, hframes, hfits⟩
  | entered f args hdepth =>
      exact ⟨_ :: above, congrArg (_ :: ·) hframes, hfits⟩
  | invoked f args hdepth =>
      exact ⟨_ :: above, congrArg (_ :: ·) hframes, hfits⟩

theorem Delivered.stands {flags : FrameFlags} {returnAddress : Nat}
    {v? : Option Value} {r : EStateM.Result RuntimeError (Core H) Outcome}
    (h : Delivered c flags returnAddress v? r)
    (hframes : c.proc.frames.items = above ++ below)
    (hfits : (LoopPhase.handing flags.entryPoint).Fits above) :
    ResultStands below r := by
  have hinner (hentry : flags.entryPoint = false) : Rooted (entries above) := by
    unfold LoopPhase.Fits at hfits
    rw [hentry] at hfits
    exact hfits.of_false
  cases h with
  | returned hentry =>
      unfold LoopPhase.Fits at hfits
      rw [hentry] at hfits
      have hnil : above = [] := List.map_eq_nil_iff.mp hfits.nil_of_true
      exact ⟨above, hframes, hnil⟩
  | awaited hentry top rest hpush hawaiting =>
      have hrooted := hinner hentry
      rw [hpush, Stack.items_push] at hframes
      cases above with
      | nil => exact absurd rfl hrooted.ne_nil
      | cons f above =>
          obtain ⟨rfl, hrest⟩ := List.cons.inj hframes
          exact ⟨above, hrest, hrooted⟩
  | bottom hentry hempty =>
      have hrooted := hinner hentry
      rw [hframes, List.append_eq_nil_iff] at hempty
      rw [hempty.1] at hrooted
      exact absurd rfl hrooted.ne_nil
  | resumed hentry top htop hawaiting => exact ⟨above, hframes, hinner hentry⟩

theorem Finished.stands {frame : Frame} {v : Value}
    {r : EStateM.Result RuntimeError (Core H) Outcome} (h : Finished c frame v r)
    (hframes : c.proc.frames.items = above ++ below)
    (hfits : (LoopPhase.handing frame.flags.entryPoint).Fits above) :
    ResultStands below r := by
  cases h with
  | delivered v? hpost h => exact h.stands hframes hfits
  | continued f h => exact ⟨above, hframes, hfits⟩
  | notNumber h hv => exact ⟨above, hframes, hfits.failing⟩

/-- The frame that is taken off is the topmost one of the loop. -/
theorem pop_stands {frame : Frame} {rest : Stack Frame}
    (hpush : c.proc.frames = rest.push frame)
    (hframes : c.proc.frames.items = above ++ below)
    (hfits : LoopPhase.working.Fits above) :
    ∃ above', above = frame :: above' ∧ rest.items = above' ++ below ∧
      (LoopPhase.handing frame.flags.entryPoint).Fits above' := by
  have hrooted : Rooted (entries above) := hfits
  rw [hpush, Stack.items_push] at hframes
  cases above with
  | nil => exact absurd rfl hrooted.ne_nil
  | cons f above' =>
      obtain ⟨rfl, hrest⟩ := List.cons.inj hframes
      exact ⟨above', rfl, hrest, hrooted⟩

theorem Carried.stands {r : EStateM.Result RuntimeError (Core H) Outcome}
    (h : Carried c r) (hframes : c.proc.frames.items = above ++ below)
    (hfits : LoopPhase.working.Fits above) : ResultStands below r := by
  cases h with
  | stepMatches => exact ⟨above, hframes, hfits⟩
  | calls flags hentry handlers hhandlers h =>
      refine h.stands hframes ?_
      unfold LoopPhase.Fits
      rw [hentry]
      exact rooted_cons.mpr (Or.inr ⟨rfl, hfits⟩)
  | replaces caller rest hpush hcan flags hentry h =>
      obtain ⟨above', -, hrest, hhanding⟩ := pop_stands hpush hframes hfits
      rw [← hentry] at hhanding
      exact h.stands hrest hhanding
  | returns frame rest hpush v h =>
      obtain ⟨above', -, hrest, hhanding⟩ := pop_stands hpush hframes hfits
      exact h.stands hrest hhanding
  | lost reason => exact ⟨above, hframes, hfits.failing⟩

theorem Completed.stands {outcome : NativeOutcome}
    {r : EStateM.Result RuntimeError (Core H) Outcome}
    (h : Completed c outcome r) (hframes : c.proc.frames.items = above ++ below)
    (hfits : LoopPhase.working.Fits above) : ResultStands below r := by
  cases h with
  | lost outcome h => exact ⟨above, hframes, hfits.failing⟩
  | returns frame rest hpush v h =>
      obtain ⟨above', -, hrest, hhanding⟩ := pop_stands hpush hframes hfits
      exact h.stands hrest hhanding
  | yields frame rest hpush v =>
      obtain ⟨above', -, hrest, hhanding⟩ := pop_stands hpush hframes hfits
      exact ⟨above', hrest, frame, rfl, hhanding⟩
  | replaced frame rest hpush hhandlers request =>
      obtain ⟨above', -, hrest, hhanding⟩ := pop_stands hpush hframes hfits
      exact ⟨above', hrest, hhanding⟩
  | waits frame rest hpush hhandlers request =>
      obtain ⟨above', -, hrest, hhanding⟩ := pop_stands hpush hframes hfits
      refine ⟨_ :: above', congrArg (_ :: ·) hrest, ?_⟩
      exact rooted_cons.mpr (Or.inr ⟨rfl, hhanding⟩)

theorem entries_eq_of_alike {frames frames' : List Frame}
    (h : FramesAlike frames frames') : entries frames' = entries frames := by
  cases h with
  | nil => rfl
  | cons hsame rest =>
      unfold entries
      rw [List.map_cons, List.map_cons, hsame.flags]

theorem plain_stands {c' : Core H} (h : c.Plain c')
    (hframes : c.proc.frames.items = above ++ below)
    (hfits : LoopPhase.working.Fits above) :
    ∃ above', c'.proc.frames.items = above' ++ below ∧
      FramesAlike above above' ∧ LoopPhase.working.Fits above' := by
  have halike := h.frames
  rw [hframes] at halike
  have hrooted : Rooted (entries above) := hfits
  cases above with
  | nil => exact absurd rfl hrooted.ne_nil
  | cons f above =>
      generalize c'.proc.frames.items = frames at halike
      cases halike with
      | @cons f f' hsame rest =>
          have hlocal : FramesAlike (f :: above) (f' :: above) := .cons hsame above
          refine ⟨f' :: above, rfl, hlocal, ?_⟩
          unfold LoopPhase.Fits
          rw [entries_eq_of_alike hlocal]
          exact hrooted

theorem step_stands [HostObjects H]
    (hframes : c.proc.frames.items = above ++ below)
    (hfits : LoopPhase.working.Fits above) : ResultStands below (step c) := by
  rcases step_cases c with ⟨e, c', hrun, hplain⟩ | ⟨c', hplain, hcarried⟩
  · obtain ⟨above', hframes', -, hfits'⟩ := plain_stands hplain hframes hfits
    rw [hrun]
    exact ⟨above', hframes', hfits'.failing⟩
  · obtain ⟨above', hframes', -, hfits'⟩ := plain_stands hplain hframes hfits
    exact hcarried.stands hframes' hfits'

end Exec

end ScriptEngine
