import ScriptEngine.Proofs.Frame.Guard

/-!
# How high a loop leaves the operands

A loop that returns leaves no more operands than there were when it began.  A
function of a script takes its operands off when it returns; a host function
does not, but it has none of its own while it waits.  So below the lowest
function of a script, all frames of a loop are of host functions that began at a
height not above that of the loop.
-/

namespace ScriptEngine

variable {H : HostTypes} {ceiling height : Nat} {frames : List Frame}

/-- Frames of host functions that wait and began not above the ceiling. -/
def Quiet (ceiling : Nat) (frames : List Frame) : Prop :=
  ∀ f ∈ frames, f.flags.awaiting = true ∧ f.base ≤ ceiling

/-- A function of a script began not above the ceiling, and below it host
functions wait. -/
def Scripted (ceiling : Nat) (frames : List Frame) : Prop :=
  ∃ upper f lower, frames = upper ++ f :: lower ∧ Quiet ceiling lower ∧
    f.callee.isFunction = true ∧ f.flags.awaiting = false ∧ f.base ≤ ceiling

/-- A call or a result is being handed on. -/
def Handed (ceiling height : Nat) (frames : List Frame) : Prop :=
  Scripted ceiling frames ∨ height ≤ ceiling ∧ Quiet ceiling frames

/-- A host function runs. -/
def Hosted (ceiling height : Nat) (frames : List Frame) : Prop :=
  ∃ top rest, frames = top :: rest ∧
    (Scripted ceiling rest ∨
      height ≤ ceiling ∧ top.base ≤ ceiling ∧ Quiet ceiling rest)

/-- An error has to be dealt with. -/
def Faulty (ceiling : Nat) (frames : List Frame) : Prop :=
  Scripted ceiling frames ∨
    ∃ upper lower, frames = upper ++ lower ∧ upper.length ≤ 1 ∧
      (∀ f ∈ upper, f.base ≤ ceiling) ∧ Quiet ceiling lower

theorem quiet_nil : Quiet ceiling [] := by
  intro f hf
  cases hf

theorem Quiet.cons {f : Frame} (hf : f.flags.awaiting = true)
    (hbase : f.base ≤ ceiling) (h : Quiet ceiling frames) :
    Quiet ceiling (f :: frames) := by
  intro g hg
  rcases List.mem_cons.mp hg with rfl | hg
  · exact ⟨hf, hbase⟩
  · exact h g hg

theorem Quiet.tail {f : Frame} (h : Quiet ceiling (f :: frames)) :
    Quiet ceiling frames := by
  intro g hg
  exact h g (List.mem_cons_of_mem f hg)

theorem Scripted.ne_nil (h : Scripted ceiling frames) : frames ≠ [] := by
  obtain ⟨upper, f, lower, rfl, -⟩ := h
  simp

theorem Scripted.cons (h : Scripted ceiling frames) (g : Frame) :
    Scripted ceiling (g :: frames) := by
  obtain ⟨upper, f, lower, rfl, h⟩ := h
  exact ⟨g :: upper, f, lower, rfl, h⟩

/-- The topmost frame is the lowest function of a script, or that is below. -/
theorem Scripted.cases {f : Frame} (h : Scripted ceiling (f :: frames)) :
    Scripted ceiling frames ∨
      Quiet ceiling frames ∧ f.callee.isFunction = true ∧
        f.flags.awaiting = false ∧ f.base ≤ ceiling := by
  obtain ⟨upper, g, lower, hframes, hquiet, hg⟩ := h
  cases upper with
  | nil =>
      cases hframes
      exact Or.inr ⟨hquiet, hg⟩
  | cons d upper =>
      cases hframes
      exact Or.inl ⟨upper, g, lower, rfl, hquiet, hg⟩

theorem Scripted.of_alike {frames' : List Frame} (h : Scripted ceiling frames)
    (halike : FramesAlike frames frames') : Scripted ceiling frames' := by
  cases halike with
  | nil => exact h
  | @cons f f' hsame rest =>
      rcases h.cases with hrest | ⟨hquiet, hfunction, hawaiting, hbase⟩
      · exact hrest.cons f'
      · refine ⟨[], f', rest, rfl, hquiet, ?_, ?_, ?_⟩
        · rw [hsame.callee]
          exact hfunction
        · rw [hsame.flags]
          exact hawaiting
        · rw [hsame.base]
          exact hbase

/-- What is left when the topmost function has returned or made room. -/
theorem Scripted.handed {f : Frame} (h : Scripted ceiling (f :: frames))
    (stack : Stack Value) :
    Handed ceiling (stack.truncate f.base).height frames := by
  rcases h.cases with hrest | ⟨hquiet, -, -, hbase⟩
  · exact Or.inl hrest
  · refine Or.inr ⟨?_, hquiet⟩
    rw [Stack.height_eq, Stack.items_truncate, List.length_drop,
      ← Stack.height_eq]
    omega

theorem Handed.mono {height' : Nat} (h : Handed ceiling height frames)
    (hle : height' ≤ height) : Handed ceiling height' frames := by
  refine h.imp id fun h => ?_
  exact ⟨Nat.le_trans hle h.1, h.2⟩

theorem Hosted.mono {height' : Nat} (h : Hosted ceiling height frames)
    (hle : height' ≤ height) : Hosted ceiling height' frames := by
  obtain ⟨top, rest, hframes, h⟩ := h
  exact ⟨top, rest, hframes, h.imp id fun h => ⟨Nat.le_trans hle h.1, h.2⟩⟩

theorem Handed.faulty (h : Handed ceiling height frames) :
    Faulty ceiling frames := by
  rcases h with hscripted | ⟨-, hquiet⟩
  · exact Or.inl hscripted
  · refine Or.inr ⟨[], frames, rfl, Nat.zero_le 1, ?_, hquiet⟩
    intro f hf
    cases hf

theorem Hosted.faulty (h : Hosted ceiling height frames) :
    Faulty ceiling frames := by
  obtain ⟨top, rest, rfl, hscripted | ⟨-, hbase, hquiet⟩⟩ := h
  · exact Or.inl (hscripted.cons top)
  · refine Or.inr ⟨[top], rest, rfl, Nat.le_refl 1, ?_, hquiet⟩
    intro f hf
    rw [List.mem_singleton.mp hf]
    exact hbase

/-- The handler of a frame answers in place of that frame. -/
theorem Faulty.handed {path rest : List Frame} {f : Frame}
    (h : Faulty ceiling (path ++ f :: rest)) (stack : Stack Value) :
    Handed ceiling (stack.truncate f.base).height rest := by
  have hcut (hbase : f.base ≤ ceiling) :
      (stack.truncate f.base).height ≤ ceiling := by
    rw [Stack.height_eq, Stack.items_truncate, List.length_drop,
      ← Stack.height_eq]
    omega
  -- Frame by frame of the path: what is left below a frame that is passed is faulty again.
  induction path with
  | nil =>
      rcases h with hscripted | ⟨upper, lower, hframes, hlength, hbases, hquiet⟩
      · exact hscripted.handed stack
      · cases upper with
        | nil =>
            cases hframes
            exact Or.inr ⟨hcut (hquiet f List.mem_cons_self).2, hquiet.tail⟩
        | cons d upper =>
            obtain ⟨rfl, hrest⟩ := List.cons.inj hframes
            have hnil : upper = [] :=
              List.eq_nil_of_length_eq_zero
                (Nat.le_zero.mp (Nat.le_of_succ_le_succ hlength))
            rw [hrest, hnil]
            exact Or.inr ⟨hcut (hbases f List.mem_cons_self), hquiet⟩
  | cons d path ih =>
      apply ih
      rcases h with hscripted | ⟨upper, lower, hframes, hlength, hbases, hquiet⟩
      · rcases hscripted.cases with hrest | ⟨hquiet, -⟩
        · exact Or.inl hrest
        · exact Handed.faulty (Or.inr ⟨Nat.zero_le ceiling, hquiet⟩)
      · cases upper with
        | nil =>
            cases hframes
            exact Handed.faulty (Or.inr ⟨Nat.zero_le ceiling, hquiet.tail⟩)
        | cons g upper =>
            obtain ⟨rfl, hrest⟩ := List.cons.inj hframes
            have hnil : upper = [] :=
              List.eq_nil_of_length_eq_zero
                (Nat.le_zero.mp (Nat.le_of_succ_le_succ hlength))
            rw [hnil] at hrest
            have hlower : path ++ f :: rest = lower := hrest
            rw [hlower]
            exact Handed.faulty (Or.inr ⟨Nat.zero_le ceiling, hquiet⟩)

/-! ## Outcomes -/

/-- Where a loop stands with its operands before it handles the outcome. -/
def Outcome.Under (ceiling height : Nat) (frames : List Frame) : Outcome → Prop
  | .proceed => Scripted ceiling frames
  | .finish _ _ => Handed ceiling height frames
  | .invoke _ _ => Hosted ceiling height frames
  | .recover _ _ _ _ _ => Handed ceiling height frames
  | .tailCall _ flags _ =>
      flags.awaiting = false ∧ Handed ceiling height frames
  | .yield _ => Faulty ceiling frames
  | .forceYield => True
  | .return _ => height ≤ ceiling

namespace Exec

variable {c : Core H} {above below : List Frame}

def ResultUnder (ceiling : Nat) (below : List Frame) :
    EStateM.Result RuntimeError (Core H) Outcome → Prop
  | .ok o c =>
      ∃ above, c.proc.frames.items = above ++ below ∧
        o.Under ceiling c.proc.stack.height above
  | .error _ c =>
      ∃ above, c.proc.frames.items = above ++ below ∧ Faulty ceiling above

theorem Called.under {flags : FrameFlags} {returnAddress : Nat}
    {handlers : Handlers} {r : EStateM.Result RuntimeError (Core H) Outcome}
    (h : Called c flags returnAddress handlers r)
    (hframes : c.proc.frames.items = above ++ below)
    (hhanded : Handed ceiling c.proc.stack.height above)
    (hflags : flags.awaiting = false ∨ Scripted ceiling above) :
    ResultUnder ceiling below r := by
  cases h with
  | failed e h => exact ⟨above, hframes, hhanded.faulty⟩
  | recovered e handler h => exact ⟨above, hframes, hhanded⟩
  | entered f args hdepth =>
      refine ⟨_ :: above, congrArg (_ :: ·) hframes, ?_⟩
      rcases hhanded with hscripted | ⟨hheight, hquiet⟩
      · exact hscripted.cons _
      · rcases hflags with hflags | hscripted
        · exact ⟨[], _, above, rfl, hquiet, rfl, hflags, hheight⟩
        · exact hscripted.cons _
  | invoked f args hdepth =>
      refine ⟨_ :: above, congrArg (_ :: ·) hframes, _, above, rfl, ?_⟩
      exact hhanded.imp id fun h => ⟨h.1, h.1, h.2⟩

theorem Delivered.under {flags : FrameFlags} {returnAddress : Nat}
    {v? : Option Value} {r : EStateM.Result RuntimeError (Core H) Outcome}
    (h : Delivered c flags returnAddress v? r)
    (hframes : c.proc.frames.items = above ++ below)
    (hfits : (LoopPhase.handing flags.entryPoint).Fits above)
    (hhanded : Handed ceiling c.proc.stack.height above) :
    ResultUnder ceiling below r := by
  have hrooted : Rooted (flags.entryPoint :: entries above) := hfits
  have hinner (hentry : flags.entryPoint = false) : above ≠ [] := by
    rintro rfl
    rw [hentry] at hrooted
    exact hrooted.of_false.ne_nil rfl
  cases h with
  | returned hentry =>
      rw [hentry] at hrooted
      have hnil : above = [] := List.map_eq_nil_iff.mp hrooted.nil_of_true
      rcases hhanded with hscripted | ⟨hheight, -⟩
      · exact absurd hnil hscripted.ne_nil
      · exact ⟨above, hframes, hheight⟩
  | awaited hentry top rest hpush hawaiting =>
      rw [hpush, Stack.items_push] at hframes
      cases above with
      | nil => exact absurd rfl (hinner hentry)
      | cons f above =>
          obtain ⟨rfl, hrest⟩ := List.cons.inj hframes
          refine ⟨above, hrest, ?_⟩
          rcases hhanded with hscripted | ⟨hheight, hquiet⟩
          · rcases hscripted.cases with hscripted | ⟨-, -, hnot, -⟩
            · exact Or.inl hscripted
            · rw [hawaiting] at hnot
              cases hnot
          · exact Or.inr ⟨hheight, hquiet.tail⟩
  | bottom hentry hempty =>
      rw [hframes, List.append_eq_nil_iff] at hempty
      exact absurd hempty.1 (hinner hentry)
  | resumed hentry top htop hawaiting =>
      refine ⟨above, hframes, ?_⟩
      rcases hhanded with hscripted | ⟨-, hquiet⟩
      · exact hscripted
      · cases above with
        | nil => exact absurd rfl (hinner hentry)
        | cons f above =>
            unfold Stack.top? at htop
            rw [hframes] at htop
            cases htop
            have hwaits := (hquiet top List.mem_cons_self).1
            rw [hawaiting] at hwaits
            cases hwaits

theorem Finished.under {frame : Frame} {v : Value}
    {r : EStateM.Result RuntimeError (Core H) Outcome} (h : Finished c frame v r)
    (hframes : c.proc.frames.items = above ++ below)
    (hfits : (LoopPhase.handing frame.flags.entryPoint).Fits above)
    (hhanded : Handed ceiling c.proc.stack.height above) :
    ResultUnder ceiling below r := by
  cases h with
  | delivered v? hpost h => exact h.under hframes hfits hhanded
  | continued f h => exact ⟨above, hframes, rfl, hhanded⟩
  | notNumber h hv => exact ⟨above, hframes, hhanded.faulty⟩

theorem Carried.under {r : EStateM.Result RuntimeError (Core H) Outcome}
    (h : Carried c r) (hframes : c.proc.frames.items = above ++ below)
    (hfits : LoopPhase.working.Fits above) (hscripted : Scripted ceiling above) :
    ResultUnder ceiling below r := by
  cases h with
  | stepMatches => exact ⟨above, hframes, hscripted⟩
  | calls flags hentry handlers hhandlers h =>
      exact h.under hframes (Or.inl hscripted) (Or.inr hscripted)
  | replaces caller rest hpush hcan flags hentry h hawaiting =>
      obtain ⟨above', rfl, hrest, -⟩ := pop_stands hpush hframes hfits
      exact h.under hrest (hscripted.handed _) (Or.inl hawaiting)
  | returns frame rest hpush v h =>
      obtain ⟨above', rfl, hrest, hhanding⟩ := pop_stands hpush hframes hfits
      exact h.under hrest hhanding (hscripted.handed _)
  | lost reason => exact ⟨above, hframes, Or.inl hscripted⟩

theorem Completed.under {outcome : NativeOutcome}
    {r : EStateM.Result RuntimeError (Core H) Outcome}
    (h : Completed c outcome r) (hframes : c.proc.frames.items = above ++ below)
    (hfits : LoopPhase.working.Fits above)
    (hhosted : Hosted ceiling c.proc.stack.height above) :
    ResultUnder ceiling below r := by
  have hpopped {frame : Frame} {rest : Stack Frame}
      (hpush : c.proc.frames = rest.push frame) :
      ∃ above', above = frame :: above' ∧ rest.items = above' ++ below ∧
        (LoopPhase.handing frame.flags.entryPoint).Fits above' ∧
        (Scripted ceiling above' ∨ c.proc.stack.height ≤ ceiling ∧
          frame.base ≤ ceiling ∧ Quiet ceiling above') := by
    obtain ⟨above', rfl, hrest, hhanding⟩ := pop_stands hpush hframes hfits
    obtain ⟨top, rest', htop, h⟩ := hhosted
    cases htop
    exact ⟨above', rfl, hrest, hhanding, h⟩
  cases h with
  | lost outcome h => exact ⟨above, hframes, hhosted.faulty⟩
  | returns frame rest hpush v h =>
      obtain ⟨above', -, hrest, hhanding, hunder⟩ := hpopped hpush
      exact h.under hrest hhanding (hunder.imp id fun h => ⟨h.1, h.2.2⟩)
  | yields frame rest hpush v =>
      obtain ⟨above', -, hrest, -, hunder⟩ := hpopped hpush
      have hhanded : Handed ceiling c.proc.stack.height above' :=
        hunder.imp id fun h => ⟨h.1, h.2.2⟩
      exact ⟨above', hrest, hhanded.faulty⟩
  | replaced frame rest hpush hhandlers request =>
      obtain ⟨above', -, hrest, -, hunder⟩ := hpopped hpush
      exact ⟨above', hrest, rfl, hunder.imp id fun h => ⟨h.1, h.2.2⟩⟩
  | waits frame rest hpush hhandlers request =>
      obtain ⟨above', -, hrest, -, hunder⟩ := hpopped hpush
      refine ⟨_ :: above', congrArg (_ :: ·) hrest, rfl, ?_⟩
      rcases hunder with hscripted | ⟨hheight, hbase, hquiet⟩
      · exact Or.inl (hscripted.cons _)
      · exact Or.inr ⟨hheight, Quiet.cons rfl hbase hquiet⟩

theorem step_under [HostObjects H] (hframes : c.proc.frames.items = above ++ below)
    (hfits : LoopPhase.working.Fits above) (hscripted : Scripted ceiling above) :
    ResultUnder ceiling below (step c) := by
  rcases step_cases c with ⟨e, c', hrun, hplain⟩ | ⟨c', hplain, hcarried⟩
  · obtain ⟨above', hframes', halike, -⟩ := plain_stands hplain hframes hfits
    rw [hrun]
    exact ⟨above', hframes', Or.inl (hscripted.of_alike halike)⟩
  · obtain ⟨above', hframes', halike, hfits'⟩ := plain_stands hplain hframes hfits
    exact hcarried.under hframes' hfits' (hscripted.of_alike halike)

end Exec

end ScriptEngine
