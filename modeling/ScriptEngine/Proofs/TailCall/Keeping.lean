import ScriptEngine.Proofs.Budget.Metered
import ScriptEngine.Proofs.Frame.Containment

/-!
# Calls that keep their frame

A call whose result is returned at once takes the place of the frame that makes it.  The machine
that never does so, but keeps the frame of every call below the call, is `Machine.keepingNext`.
What taking the place is good for is counted here: it needs no frame and no operand, and so a
chain of such calls has no more frames than it began with.
-/

namespace ScriptEngine

variable {H : HostTypes}

namespace Exec

section

variable [HostObjects H]

/-- A call above the frame that makes it. -/
def keepingCall (i : Instruction) (methodCall : Bool) : Exec H Outcome := do
  let args ← popMany i.num
  let function ← pop
  let ip ← askProc (·.ip)
  call function args { methodCall } ip {}

def keepingExecute (chunk : Chunk) (i : Instruction) : Exec H Outcome :=
  match i.op with
  | .call => keepingCall i false
  | .methodCall => keepingCall i true
  | _ => execute chunk i

def keepingStep : Exec H Outcome := do
  let (chunk, i) ← fetch
  keepingExecute chunk i

/-- The intents of instructions, carried out with calls that keep their frame. -/
def keepingCarryOut : Intent → Exec H Outcome
  | .call function args methodCall => do
    let ip ← askProc (·.ip)
    call function args { methodCall } ip {}
  | intent => carryOut intent

theorem carriesOut_keepingCarryOut : CarriesOut (H := H) keepingCarryOut := by
  refine ⟨rfl, ?_, ?_⟩
  · intro _
    rfl
  · intro _
    rfl

theorem keepingCall_eq (i : Instruction) (methodCall : Bool) :
    (keepingCall i methodCall : Exec H Outcome) =
      intendCall i methodCall >>= keepingCarryOut := by
  simp only [keepingCall, intendCall, bind_assoc, pure_bind]
  rfl

theorem keepingExecute_eq (chunk : Chunk) (i : Instruction) :
    (keepingExecute chunk i : Exec H Outcome) = intent chunk i >>= keepingCarryOut := by
  by_cases hcall : i.op = .call
  · simp only [keepingExecute, intent, hcall, keepingCall_eq]
  · by_cases hmethod : i.op = .methodCall
    · simp only [keepingExecute, intent, hmethod, keepingCall_eq]
    · rw [← execute_eq_of_ne_call carriesOut_keepingCarryOut chunk hcall hmethod]
      unfold keepingExecute
      split
      · next h => exact absurd h hcall
      · next h => exact absurd h hmethod
      · rfl

theorem keepingStep_eq : (keepingStep : Exec H Outcome) = stepIntent >>= keepingCarryOut := by
  simp only [keepingStep, stepIntent, bind_assoc, keepingExecute_eq]

end

/-- The next instruction, unless the host asked to stop or the budget is used up. -/
def keepingPoll [Host H] : Exec H Outcome := do
  if ← ask (·.cancelled) then throw .terminated
  else
    let due ← modifyGet fun c =>
      let (due, proc) := c.proc.countInstruction
      (due, { c with proc })
    if due then pure .forceYield else keepingStep

end Exec

namespace Machine

variable [Host H]

theorem keepingPoll_run (core : Core H) :
    Exec.keepingPoll core =
      if core.world.cancelled = true then .error .terminated core
      else if core.proc.countInstruction.1 = true then .ok .forceYield (counted core)
      else Exec.keepingStep (counted core) := by
  exact pollBefore_run Exec.keepingStep core

/-- One small step of the machine whose calls keep their frame. -/
def keepingNext (m : Machine H) : Machine H :=
  match m.control with
  | .loop .proceed => exec .loop Exec.keepingPoll m.core m.activations
  | _ => m.next

/-- That machine some steps later. -/
def keepingAfter (m : Machine H) : Nat → Machine H
  | 0 => m
  | n + 1 => (m.keepingAfter n).keepingNext

/-- Only instructions are executed in another way. -/
theorem keepingNext_eq {m : Machine H} (h : m.control ≠ .loop .proceed) :
    m.keepingNext = m.next := by
  unfold keepingNext
  split
  · next hcontrol => exact absurd hcontrol h
  · rfl

/-! ## What a call in place of its frame needs -/

/-- The next step is a call that takes the place of the frame that makes it. -/
structure Replaces (m : Machine H) (caller : Frame) : Prop where
  control : m.control = .loop .proceed
  polls : Exec.poll m.core = Exec.step (counted m.core)
  calls : ∃ function args methodCall c,
    Exec.stepIntent (counted m.core) = .ok (.call function args methodCall) c ∧
      Exec.canTailCall c.proc = true ∧ c.proc.frames.top? = some caller

/-- The next step is an instruction that neither calls nor returns. -/
structure Advances (m : Machine H) : Prop where
  control : m.control = .loop .proceed
  polls : Exec.poll m.core = Exec.step (counted m.core)
  stepMatches : ∃ c, Exec.stepIntent (counted m.core) = .ok .proceed c

omit [Host H] in
theorem counted_height (core : Core H) :
    (counted core).proc.frames.height = core.proc.frames.height ∧
      (counted core).proc.peakFrames = core.proc.peakFrames := by
  unfold counted
  rw [countInstruction_eq]
  exact ⟨rfl, rfl⟩

end Machine

namespace Exec

theorem Simple.peakFrames {α : Type} {x : Exec H α} (hx : Simple x) (c : Core H) :
    (resultCore (x c)).proc.peakFrames = c.proc.peakFrames := by
  induction hx generalizing c with
  | pure a => rfl
  | throw e => rfl
  | @bind α β x f hx hf ihx ihf =>
    have hfirst := ihx c
    cases hrun : x c with
    | ok a c' =>
      rw [hrun] at hfirst
      rw [run_bind_of_ok hrun]
      exact (ihf a c').trans hfirst
    | error e c' =>
      rw [hrun] at hfirst
      rw [run_bind_of_error hrun]
      exact hfirst
  | ask hf => rfl
  | modifyWorld hf => rfl
  | changeWorld hf => rfl
  | push v => rfl
  | pushAll vs => rfl
  | pop =>
    rw [pop_run]
    cases c.proc.stack.pop? <;> rfl
  | popMany n =>
    rw [popMany_run]
    cases c.proc.stack.popMany? n <;> rfl
  | peek offset =>
    rw [peek_run]
    split
    · cases c.proc.stack.get? offset <;> rfl
    · rfl
  | swap i =>
    rw [swap_run]
    split
    · cases c.proc.stack.swap? i.num i.num2 <;> rfl
    · rfl
  | forStep =>
    rcases forStep_run c with ⟨var, limit, step, -, -, -, hrun⟩ | ⟨e, hrun⟩ <;> rw [hrun] <;> rfl
  | jumpTo ip => rfl
  | viewTop =>
    cases htop : c.proc.frames.top? with
    | none =>
      rw [viewTop_run_none htop]
      rfl
    | some f =>
      rw [viewTop_run htop]
      rfl
  | updateTop locals pendingArgs =>
    cases htop : c.proc.frames.top? with
    | none =>
      rw [updateTop_run_none htop]
      rfl
    | some f =>
      rw [updateTop_run htop]
      rfl
  | fetch =>
    rw [fetch_run]
    cases c.proc.chunk? with
    | none => rfl
    | some chunk =>
      dsimp only
      cases chunk.code[c.proc.ip]? <;> rfl

/-- A call adds one frame at most and no operand. -/
theorem Called.height {c : Core H} {flags : FrameFlags} {address : Nat} {handlers : Handlers}
    {r : EStateM.Result RuntimeError (Core H) Outcome} (h : Called c flags address handlers r) :
    (resultCore r).proc.frames.height ≤ c.proc.frames.height + 1 ∧
      (resultCore r).proc.stack = c.proc.stack ∧
      (resultCore r).proc.peakFrames ≤ max c.proc.peakFrames (c.proc.frames.height + 1) := by
  cases h with
  | failed e h => exact ⟨Nat.le_succ _, rfl, Nat.le_max_left _ _⟩
  | recovered e handler h => exact ⟨Nat.le_succ _, rfl, Nat.le_max_left _ _⟩
  | entered f args hdepth => exact ⟨Nat.le_refl _, rfl, Nat.le_refl _⟩
  | invoked f args hdepth => exact ⟨Nat.le_refl _, rfl, Nat.le_refl _⟩

end Exec

namespace Machine

variable [Host H] {m : Machine H} {caller : Frame}

theorem next_of_polls (hcontrol : m.control = .loop .proceed)
    (hpolls : Exec.poll m.core = Exec.step (counted m.core)) :
    m.next.core = Exec.resultCore (Exec.step (counted m.core)) := by
  obtain ⟨core, activations, control⟩ := m
  obtain rfl : control = .loop .proceed := hcontrol
  change (exec .loop Exec.poll core activations).core = _
  unfold exec
  rw [hpolls]
  cases Exec.step (counted core) <;> rfl

/-- A call in place of its frame leaves as many frames as there were at most, and no operands
above the base of the frame that is gone. -/
theorem Replaces.next (h : m.Replaces caller) :
    m.next.core.proc.frames.height ≤ m.core.proc.frames.height ∧
      m.next.core.proc.stack.height ≤ caller.base ∧
      m.next.core.proc.peakFrames ≤ max m.core.proc.peakFrames m.core.proc.frames.height := by
  obtain ⟨function, args, methodCall, c, hintent, hcan, htop⟩ := h.calls
  obtain ⟨rest, hframes⟩ : ∃ rest : Stack Frame, c.proc.frames = rest.push caller := by
    rcases Exec.frames_cases c with hempty | ⟨f, rest, hframes⟩
    · unfold Stack.top? at htop
      rw [hempty] at htop
      cases htop
    · rw [hframes] at htop
      obtain rfl := Option.some.inj htop
      exact ⟨rest, hframes⟩
  have hplain := Exec.simple_stepIntent.plain (counted m.core)
  have hpeak := Exec.simple_stepIntent.peakFrames (counted m.core)
  obtain ⟨hheight, hcounted⟩ := counted_height m.core
  rw [hintent] at hplain hpeak
  have hsame : rest.height + 1 = m.core.proc.frames.height := by
    rw [← hheight, ← hplain.height]
    change rest.height + 1 = c.proc.frames.height
    rw [hframes]
    rfl
  have hbase : (c.proc.stack.truncate caller.base).height ≤ caller.base := by
    change c.proc.stack.height - (c.proc.stack.height - caller.base) ≤ caller.base
    omega
  have hcalled := (Exec.called_placeCall function args methodCall hcan hframes).height
  rw [next_of_polls h.control h.polls, Exec.step_eq, Exec.run_bind_of_ok hintent]
  obtain ⟨hframes', hstack', hpeak'⟩ := hcalled
  refine ⟨Nat.le_trans hframes' (Nat.le_of_eq hsame), ?_, ?_⟩
  · rw [Exec.carryOut, hstack']
    exact hbase
  · refine Nat.le_trans hpeak' ?_
    change max c.proc.peakFrames (rest.height + 1) ≤ _
    rw [hsame, ← hcounted, ← hpeak]
    exact Nat.le_refl _

theorem Advances.next (h : m.Advances) :
    m.next.core.proc.frames.height = m.core.proc.frames.height ∧
      m.next.core.proc.peakFrames = m.core.proc.peakFrames := by
  obtain ⟨c, hintent⟩ := h.stepMatches
  have hplain := Exec.simple_stepIntent.plain (counted m.core)
  have hpeak := Exec.simple_stepIntent.peakFrames (counted m.core)
  obtain ⟨hheight, hcounted⟩ := counted_height m.core
  rw [hintent] at hplain hpeak
  rw [next_of_polls h.control h.polls, Exec.step_eq, Exec.run_bind_of_ok hintent]
  exact ⟨hplain.height.trans hheight, hpeak.trans hcounted⟩

/-- However many calls follow one another, each in place of the frame that makes it, they need no
more frames than the first one found. -/
theorem height_le_of_replaces (m : Machine H) (n : Nat)
    (h : ∀ i < n, (∃ caller, (m.after i).Replaces caller) ∨ (m.after i).Advances) :
    (m.after n).core.proc.frames.height ≤ m.core.proc.frames.height ∧
      (m.after n).core.proc.peakFrames ≤
        max m.core.proc.peakFrames m.core.proc.frames.height := by
  induction n with
  | zero => exact ⟨Nat.le_refl _, Nat.le_max_left _ _⟩
  | succ n ih =>
    obtain ⟨hheight, hpeak⟩ := ih fun i hi => h i (by omega)
    change (m.after n).next.core.proc.frames.height ≤ _ ∧ (m.after n).next.core.proc.peakFrames ≤ _
    rcases h n (Nat.lt_succ_self n) with ⟨caller, hreplaces⟩ | hadvances
    · obtain ⟨hframes, -, hframes'⟩ := hreplaces.next
      exact ⟨Nat.le_trans hframes hheight, by omega⟩
    · obtain ⟨hframes, hframes'⟩ := hadvances.next
      rw [hframes, hframes']
      exact ⟨hheight, hpeak⟩

end Machine

/-! ## Where a kept frame makes a difference -/

namespace ProtectedCall

/-- A function that returns at once what a protected call comes to, whose function raises an
error. -/
def answerOf : Closure where
  chunk :=
    { name := "answer"
      code :=
        #[{ op := .beginFunction, num := 0 },
          { op := .load, symbol? := some (.captured 0 "pcall") },
          { op := .load, symbol? := some (.captured 1 "error") },
          { op := .literal, value? := some (.string "x") },
          { op := .call, num := 2 },
          { op := .ret, num := 1 }] }
  entry := 0
  upvalues := #[⟨0⟩, ⟨1⟩]
  upvalueNames := ["pcall", "error"]
  name? := none

/-- The host protects the call of a function that takes the length of a point.  The length is up to
`pairs`, which asks for the call of that function in its own place. -/
def pairing : Machine Workbench.types :=
  .start (.start { modules := ⟨false, false, false⟩ }
      { pointHooks := [("__len", .native ⟨8⟩), ("__pairs", .function ⟨11⟩)] })
    (withProtection
      (.write (fun w => (w.addLibrary "next" .next).2)
        (.write (fun w => (w.addLibrary "pairs" (.pairs ⟨7⟩)).2)
          (.write (fun w => (w.addUserData (.point 0 0)).2)
            (.write (fun w => (w.addClosure lengthOf).2)
              (.write (fun w => (w.newCell (.native ⟨5⟩)).2)
                (.write (fun w => (w.newCell (.native ⟨6⟩)).2)
                  (.write (fun w => (w.addClosure answerOf).2)
                    (protectedly [.function ⟨10⟩, .userData ⟨9⟩])))))))))

end ProtectedCall

namespace Machine

/-- What the host has got in the end. -/
def result? (m : Machine H) : Option (RuntimeError ⊕ Value) :=
  match m.control with
  | .finished (.error e) => some (.inl e)
  | .finished (.ok v) => some (.inr v)
  | _ => none

/-- The answer to the error is no length.  With the frame of the call kept, the error of that is
answered by the protected call around all this.  Where the call has taken the place of its frame,
the error passes the protected call. -/
theorem results_differ_pairing :
    ProtectedCall.lengthOf.chunk.IsSound ∧ ProtectedCall.answerOf.chunk.IsSound ∧
      (ProtectedCall.pairing.after 46).result? = some (.inl (.script .lengthNotNumber)) ∧
      (ProtectedCall.pairing.keepingAfter 58).result? =
        some (.inr (.tuple [.boolean false, .string "length is not a number"])) := by
  refine ⟨by decide, by decide, ?_, ?_⟩
  · decide +kernel
  · decide +kernel

end Machine

end ScriptEngine
