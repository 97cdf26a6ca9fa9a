import ScriptEngine.Proofs.Frame.Enclosure

/-!
# Where a call returns to

A function that makes a call has a frame, operands and an instruction to go on
with.  While the call lasts its frames are above that one, and the lowest of them
has the address of the instruction; it may be off the frames, as long as a result
or a call in its place is being handed on.  What happens above the caller leads
from one such `Stage` to another, or back to the caller.
-/

namespace ScriptEngine

variable {H : HostTypes}

/-- The last of the addresses is this one. -/
def LastIs (address : Nat) (addresses : List Nat) : Prop :=
  addresses.getLast? = some address

theorem lastIs_cons {address a : Nat} {rest : List Nat} :
    LastIs address (a :: rest) ↔ (rest = [] ∧ a = address) ∨ LastIs address rest := by
  unfold LastIs
  cases rest with
  | nil => simp
  | cons b rest => simp

theorem LastIs.cons {address : Nat} {rest : List Nat} (h : LastIs address rest) (a : Nat) :
    LastIs address (a :: rest) := by
  rw [lastIs_cons]
  exact Or.inr h

theorem LastIs.of_append {address : Nat} {upper rest : List Nat}
    (h : LastIs address (upper ++ rest)) (hrest : rest ≠ []) : LastIs address rest := by
  induction upper with
  | nil => exact h
  | cons a upper ih =>
      rcases lastIs_cons.mp h with ⟨hnil, -⟩ | htail
      · exact absurd (List.append_eq_nil_iff.mp hnil).2 hrest
      · exact ih htail

/-- Where the callers of some frames go on. -/
def addresses (frames : List Frame) : List Nat :=
  frames.map (·.returnAddress)

/-- What is going on above a caller. -/
inductive Stage where
  /-- The topmost frame is at work. -/
  | working
  /-- A frame, or a call that would have had one, is being dealt with. -/
  | handing (returnAddress : Nat)
  /-- A host function has yielded; its frame is set aside. -/
  | aside (frame? : Option Frame)
  | failing
  /-- The loop ends for good. -/
  | over

/-- The lowest of the call's frames goes on at the address. -/
def Stage.Fits (address : Nat) (above : List Frame) : Stage → Prop
  | .working => LastIs address (addresses above)
  | .handing returnAddress => LastIs address (returnAddress :: addresses above)
  | .aside frame? =>
      ∃ f, frame? = some f ∧ LastIs address (f.returnAddress :: addresses above)
  | .failing => above = [] ∨ LastIs address (addresses above)
  | .over => False

theorem failing_of_handing {address returnAddress : Nat} {above : List Frame}
    (h : LastIs address (returnAddress :: addresses above)) :
    Stage.failing.Fits address above := by
  rcases lastIs_cons.mp h with ⟨hnil, -⟩ | hrest
  · exact Or.inl (List.map_eq_nil_iff.mp hnil)
  · exact Or.inr hrest

/-- An error can come at any time. -/
theorem Stage.Fits.failing {address : Nat} {above : List Frame} {stage : Stage}
    (h : stage.Fits address above) : Stage.failing.Fits address above := by
  cases stage with
  | working => exact Or.inr h
  | handing returnAddress => exact failing_of_handing h
  | aside frame? =>
      obtain ⟨f, -, h⟩ := h
      exact failing_of_handing h
  | failing => exact h
  | «over» => exact h.elim

theorem ne_nil_of_working {address : Nat} {above : List Frame}
    (h : Stage.working.Fits address above) : above ≠ [] := by
  rintro rfl
  cases h

def Outcome.stage (p : Processor) : Outcome → Stage
  | .proceed => .working
  | .finish frame _ => .handing frame.returnAddress
  | .invoke _ _ => .working
  | .recover _ _ _ _ returnAddress => .handing returnAddress
  | .tailCall _ _ returnAddress => .handing returnAddress
  | .yield _ => .aside p.yielded?
  | .forceYield => .working
  | .return _ => .over

/-- What a loop is in the middle of while a nested call runs. -/
def Waiter.stage : Waiter H → Stage
  | .action _ => .working
  | .decorated _ _ => .failing
  | .refused _ _ _ returnAddress => .handing returnAddress
  | .recovered _ returnAddress => .handing returnAddress
  | .caught _ returnAddress => .handing returnAddress
  | .processor => .over

def LoopExit.stage (p : Processor) : Except RuntimeError LoopExit → Stage
  | .ok (.yielded _) => .aside p.yielded?
  | .ok .forceYielded => .working
  | _ => .over

def Control.stage (p : Processor) : Control H → Stage
  | .loop o => o.stage p
  | .failed _ => .failing
  | .unwinding _ _ => .failing
  | .calling _ _ waiter => waiter.stage
  | .leaving exit => LoopExit.stage p exit
  | .answering waiter _ => waiter.stage
  | .switching _ => .over
  | .running _ => .working
  | .settling o => o.stage p
  | .finished _ => .over

/-- A frame that makes a call, what is below it, the operands there and the
instruction that the frame goes on with. -/
structure CallSite (H : HostTypes) where
  loop : Loop H
  caller : Frame
  lower : List Frame
  operands : List Value
  address : Nat
  floor : loop.floor ≤ lower.length

namespace CallSite

def below (s : CallSite H) : List Frame := s.caller :: s.lower

/-- The caller and the operands are there, and what is above them is the call. -/
def Holds (s : CallSite H) (stage : Stage) (p : Processor) : Prop :=
  ∃ above, p.Over s.operands above s.below ∧ stage.Fits s.address above

/-- The caller has the result: a function goes on with its next instruction, and
a host function that waits for the result is through with waiting. -/
inductive Returned (s : CallSite H) : Outcome → Core H → Prop where
  | resumed {c : Core H} (hawaiting : s.caller.flags.awaiting = false)
      (hframes : c.proc.frames.items = s.below) (hip : c.proc.ip = s.address)
      (hchunk : ∀ f, s.caller.callee = .function f →
        c.proc.chunk? = some (c.world.closure f).chunk)
      (hoperands : s.operands <:+ c.proc.stack.items) : Returned s .proceed c
  | awaited (v : Value) {c : Core H} (hawaiting : s.caller.flags.awaiting = true)
      (hframes : c.proc.frames.items = s.lower)
      (hoperands : s.operands <:+ c.proc.stack.items) : Returned s (.finish s.caller v) c

theorem Holds.of_same {s : CallSite H} {stage : Stage} {p p' : Processor}
    (h : s.Holds stage p) (hframes : p'.frames = p.frames) (hstack : p'.stack = p.stack) :
    s.Holds stage p' := by
  obtain ⟨above, hover, hfits⟩ := h
  exact ⟨above, hover.of_same hframes hstack, hfits⟩

theorem Holds.failing {s : CallSite H} {stage : Stage} {p : Processor}
    (h : s.Holds stage p) : s.Holds .failing p := by
  obtain ⟨above, hover, hfits⟩ := h
  exact ⟨above, hover, hfits.failing⟩

theorem Holds.operands {s : CallSite H} {stage : Stage} {p : Processor}
    (h : s.Holds stage p) : s.operands <:+ p.stack.items := by
  obtain ⟨above, hover, -⟩ := h
  exact hover.operands

theorem Returned.operands {s : CallSite H} {o : Outcome} {c : Core H}
    (h : s.Returned o c) : s.operands <:+ c.proc.stack.items := by
  cases h with
  | resumed hawaiting hframes hip hchunk hoperands => exact hoperands
  | awaited v hawaiting hframes hoperands => exact hoperands

end CallSite

namespace Exec

variable {c : Core H} {s : CallSite H} {above : List Frame}

/-- The call goes on, or the caller has its result. -/
def ResultCalled (s : CallSite H) :
    EStateM.Result RuntimeError (Core H) Outcome → Prop
  | .ok o c => s.Holds (o.stage c.proc) c.proc ∨ s.Returned o c
  | .error _ c => s.Holds .failing c.proc

theorem over_pushFrame {p : Processor} {operands : List Value} {below : List Frame}
    {f : Frame} (hover : p.Over operands above below) (hbase : f.base = p.stack.height) :
    (p.pushFrame f).Over operands (f :: above) below := by
  refine ⟨congrArg (f :: ·) hover.frames, ?_, hover.operands⟩
  intro g hg
  rcases List.mem_cons.mp hg with rfl | hg
  · rw [hbase, p.stack.height_eq]
    exact hover.operands.length_le
  · exact hover.bases g hg

/-- A call in place of what is being dealt with. -/
theorem Called.site {flags : FrameFlags} {returnAddress : Nat} {handlers : Handlers}
    {r : EStateM.Result RuntimeError (Core H) Outcome}
    (h : Called c flags returnAddress handlers r)
    (hover : c.proc.Over s.operands above s.below)
    (hfits : LastIs s.address (returnAddress :: addresses above)) : ResultCalled s r := by
  cases h with
  | failed e h => exact ⟨above, hover, failing_of_handing hfits⟩
  | recovered e handler h => exact Or.inl ⟨above, hover, hfits⟩
  | entered f args hdepth =>
      exact Or.inl ⟨_, (over_pushFrame hover rfl).of_same rfl rfl, hfits⟩
  | invoked f args hdepth => exact Or.inl ⟨_, over_pushFrame hover rfl, hfits⟩

theorem Delivered.site {flags : FrameFlags} {returnAddress : Nat} {v? : Option Value}
    {r : EStateM.Result RuntimeError (Core H) Outcome}
    (h : Delivered c flags returnAddress v? r) (hinner : flags.entryPoint = false)
    (hover : c.proc.Over s.operands above s.below)
    (hfits : LastIs s.address (returnAddress :: addresses above)) : ResultCalled s r := by
  cases h with
  | returned hentry =>
      rw [hentry] at hinner
      cases hinner
  | awaited hentry top rest hpush hawaiting =>
      have hframes := hover.frames
      rw [hpush, Stack.items_push] at hframes
      cases above with
      | nil =>
          obtain ⟨rfl, hrest⟩ := List.cons.inj hframes
          exact Or.inr (.awaited _ hawaiting hrest hover.operands)
      | cons f above =>
          obtain ⟨rfl, hrest⟩ := List.cons.inj hframes
          have hlast : LastIs s.address (top.returnAddress :: addresses above) :=
            (lastIs_cons.mp hfits).resolve_left fun h => List.cons_ne_nil _ _ h.1
          exact Or.inl ⟨above, ⟨hrest, fun d hd => hover.bases d (List.mem_cons_of_mem _ hd),
            hover.operands⟩, hlast⟩
  | bottom hentry hempty =>
      rw [hover.frames] at hempty
      exact absurd (List.append_eq_nil_iff.mp hempty).2 (List.cons_ne_nil _ _)
  | resumed hentry top htop hawaiting =>
      have hoperands := suffix_pushAll v?.toList hover.operands
      rcases lastIs_cons.mp hfits with ⟨hnil, haddress⟩ | hlast
      · obtain rfl : above = [] := List.map_eq_nil_iff.mp hnil
        have htopmost : c.proc.frames.top? = some s.caller := by
          unfold Stack.top?
          rw [hover.frames]
          rfl
        rw [htop] at htopmost
        obtain rfl := Option.some.inj htopmost
        refine Or.inr (.resumed hawaiting hover.frames haddress ?_ hoperands)
        intro f hf
        dsimp only
        rw [hf]
      · exact Or.inl ⟨above, ⟨hover.frames, hover.bases, hoperands⟩, hlast⟩

theorem Finished.site {frame : Frame} {v : Value}
    {r : EStateM.Result RuntimeError (Core H) Outcome} (h : Finished c frame v r)
    (hinner : frame.flags.entryPoint = false)
    (hover : c.proc.Over s.operands above s.below)
    (hfits : LastIs s.address (frame.returnAddress :: addresses above)) :
    ResultCalled s r := by
  cases h with
  | delivered v? hpost h => exact h.site hinner hover hfits
  | continued f h => exact Or.inl ⟨above, hover, hfits⟩
  | notNumber h hv => exact ⟨above, hover, failing_of_handing hfits⟩

/-- The topmost frame of the call is taken off. -/
theorem site_of_push {p : Processor} {frame : Frame} {rest : Stack Frame}
    (hover : p.Over s.operands above s.below)
    (hfits : LastIs s.address (addresses above)) (hpush : p.frames = rest.push frame) :
    ∃ above', above = frame :: above' ∧ rest.items = above' ++ s.below ∧
      (∀ f ∈ above', s.operands.length ≤ f.base) ∧
      LastIs s.address (frame.returnAddress :: addresses above') := by
  obtain ⟨above', rfl, hrest, hbases⟩ :=
    over_of_push hover hpush (ne_nil_of_working hfits)
  exact ⟨above', rfl, hrest, hbases, hfits⟩

theorem Carried.site {r : EStateM.Result RuntimeError (Core H) Outcome}
    (h : Carried c r) (hover : c.proc.Over s.operands above s.below)
    (hfits : LastIs s.address (addresses above))
    (hinner : ∀ f ∈ above, f.flags.entryPoint = false) : ResultCalled s r := by
  cases h with
  | stepMatches => exact Or.inl ⟨above, hover, hfits⟩
  | calls flags hentry handlers hhandlers h => exact h.site hover (hfits.cons _)
  | replaces caller rest hpush hcan flags hentry h =>
      obtain ⟨above', rfl, hrest, hbases, hlast⟩ := site_of_push hover hfits hpush
      have hbase := hover.bases caller List.mem_cons_self
      exact h.site ⟨hrest, hbases, suffix_truncate hover.operands hbase⟩ hlast
  | returns frame rest hpush v h =>
      obtain ⟨above', rfl, hrest, hbases, hlast⟩ := site_of_push hover hfits hpush
      have hbase := hover.bases frame List.mem_cons_self
      exact h.site (hinner frame List.mem_cons_self)
        ⟨hrest, hbases, suffix_truncate hover.operands hbase⟩ hlast
  | lost reason => exact ⟨above, hover, Or.inr hfits⟩

theorem Completed.site {outcome : NativeOutcome}
    {r : EStateM.Result RuntimeError (Core H) Outcome} (h : Completed c outcome r)
    (hover : c.proc.Over s.operands above s.below)
    (hfits : LastIs s.address (addresses above))
    (hinner : ∀ f ∈ above, f.flags.entryPoint = false) : ResultCalled s r := by
  cases h with
  | lost outcome h => exact ⟨above, hover, Or.inr hfits⟩
  | returns frame rest hpush v h =>
      obtain ⟨above', rfl, hrest, hbases, hlast⟩ := site_of_push hover hfits hpush
      exact h.site (hinner frame List.mem_cons_self) ⟨hrest, hbases, hover.operands⟩ hlast
  | yields frame rest hpush v =>
      obtain ⟨above', rfl, hrest, hbases, hlast⟩ := site_of_push hover hfits hpush
      exact Or.inl ⟨above', ⟨hrest, hbases, hover.operands⟩, frame, rfl, hlast⟩
  | replaced frame rest hpush hhandlers request =>
      obtain ⟨above', rfl, hrest, hbases, hlast⟩ := site_of_push hover hfits hpush
      exact Or.inl ⟨above', ⟨hrest, hbases, hover.operands⟩, hlast⟩
  | waits frame rest hpush hhandlers request =>
      obtain ⟨above', rfl, hrest, hbases, hlast⟩ := site_of_push hover hfits hpush
      refine Or.inl ⟨_ :: above', ⟨congrArg (_ :: ·) hrest, ?_, hover.operands⟩,
        hlast.cons frame.returnAddress⟩
      intro f hf
      rcases List.mem_cons.mp hf with rfl | hf
      · exact hover.bases frame List.mem_cons_self
      · exact hbases f hf

theorem addresses_of_alike {frames frames' : List Frame} (h : FramesAlike frames frames') :
    addresses frames' = addresses frames := by
  cases h with
  | nil => rfl
  | cons hsame rest =>
      unfold addresses
      rw [List.map_cons, List.map_cons, hsame.returnAddress]

/-- An instruction above the caller. -/
theorem step_site [HostObjects H] (hover : c.proc.Over s.operands above s.below)
    (hfits : LastIs s.address (addresses above))
    (hinner : ∀ f ∈ above, f.flags.entryPoint = false)
    (hsparing : s.operands = [] ∨ c.Sparing) : ResultCalled s (step c) := by
  have hsome := ne_nil_of_working hfits
  have hstack : s.operands <:+ (resultCore (stepIntent c)).proc.stack.items := by
    rcases hsparing with hnil | hsparing
    · rw [hnil]
      exact List.nil_suffix
    · obtain ⟨top, rest, rfl⟩ := List.exists_cons_of_ne_nil hsome
      have htop : c.proc.frames.top? = some top := by
        unfold Stack.top?
        rw [hover.frames]
        rfl
      exact hsparing top htop _ hover.operands (hover.bases top List.mem_cons_self)
  obtain ⟨above', halike, hover'⟩ :=
    over_of_alike hover (simple_stepIntent.plain c).frames hstack hsome
  have hfits' : LastIs s.address (addresses above') := by
    rw [addresses_of_alike halike]
    exact hfits
  have hinner' : ∀ f ∈ above', f.flags.entryPoint = false := by
    intro f hf
    have hmem : f.flags.entryPoint ∈ entries above' := List.mem_map_of_mem hf
    rw [entries_eq_of_alike halike] at hmem
    obtain ⟨g, hg, hsame⟩ := List.mem_map.mp hmem
    rw [← hsame]
    exact hinner g hg
  rcases step_intent_cases c with ⟨e, hrun⟩ | hcarried
  · rw [hrun]
    exact ⟨above', hover', Or.inr hfits'⟩
  · exact hcarried.site hover' hfits' hinner'

end Exec

end ScriptEngine
