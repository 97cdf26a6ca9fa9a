import ScriptEngine.Proofs.Frame.Calls
import ScriptEngine.Proofs.Machine.Isolation

/-!
# Temporaries of callers

What a function has on the operand stack while it calls another one is below the
base of that one's frame.  The base itself protects nothing: it is the number of
operands that an instruction reaches that decides whether those of a caller are
out of it.
-/

namespace ScriptEngine

variable {H : HostTypes}

namespace Machine

/-- The next step executes the instruction, in the frame. -/
structure Executes [Host H] (m : Machine H) (f : Frame) (i : Instruction) : Prop where
  control : m.control = .loop .proceed
  /-- Neither the host's request to stop nor the budget is in the way. -/
  polls : Exec.poll m.core = Exec.step (counted m.core)
  fetches : (counted m.core).Fetches f i

/-- If the next step executes an instruction, that finds all it reaches in its own
frame. -/
def WithinReach (m : Machine H) : Prop :=
  m.control = .loop .proceed → (counted m.core).WithinReach

theorem WithinReach.sparing [HostObjects H] {m : Machine H} (h : m.WithinReach) :
    m.Sparing := by
  intro hcontrol
  exact (h hcontrol).sparing

end Machine

/-- Operands above a height. -/
def Processor.above (p : Processor) (height : Nat) : List Value :=
  p.stack.items.take (p.stack.height - height)

theorem Processor.length_above (p : Processor) (height : Nat) :
    (p.above height).length = p.stack.height - height := by
  unfold Processor.above
  rw [List.length_take, ← p.stack.height_eq]
  omega

/-- Operands that are below the frame of an instruction and out of its reach make no
difference to it, and it leaves them as they are; on a stack with fewer operands
than it reaches it fails.  A call in which every instruction finds what it reaches
in its own frame lasts, or has ended, with its caller's operands as they were. -/
theorem Machine.Reachable.sparesOperands [Host H] [LawfulHost H] {m : Machine H}
    (h : m.Reachable) :
    (∀ f i, m.Executes f i →
      (∀ height ≤ f.base, height + i.reach ≤ m.core.proc.stack.height →
        Exec.Isolated Exec.step (counted m.core) (m.core.proc.above height) height) ∧
      (m.core.proc.stack.height < i.reach → Exec.Starves (Exec.step (counted m.core)))) ∧
    ∀ s : CallSite H, s.Begins m → (∀ m', s.During m m' → m'.WithinReach) →
      ∀ m', s.During m m' →
        s.InForce m' ∨ s.Ends m' ∧ s.operands <:+ m'.core.proc.stack.items := by
  have hstack := stack_counted m.core
  refine ⟨fun f i hexecutes => ⟨fun height hbase hreach => ?_, fun hfew => ?_⟩, ?_⟩
  · refine Exec.isolated_step hexecutes.fetches hbase ?_
    rw [Processor.length_above]
    omega
  · refine Exec.starves_step hexecutes.fetches ?_
    rw [hstack]
    exact hfew
  · intro s hm hreach m' hduring
    have hsparing : ∀ m', s.During m m' → m'.Sparing := fun m' h => (hreach m' h).sparing
    exact (hduring.lasts h hm (Or.inr hsparing)).imp_right fun hends =>
      ⟨hends, hends.operands⟩

/-! ## The workbench -/

namespace CallSite

/-- A function with 7 and 8 on the stack calls another one and returns what is on
top after that.  The other one has a single instruction. -/
def lending (op : Op) : Chunk where
  name := "lending"
  code :=
    #[{ op := .beginFunction },
      { op := .literal, value? := some (.number 7) },
      { op := .literal, value? := some (.number 8) },
      { op := .closure, num := 7, symbols? := some [] },
      { op := .call },
      { op := .pop, num := 1 },
      { op := .ret, num := 1 },
      { op := .beginFunction },
      { op, num := 1 },
      { op := .ret }]

/-- The host calls that function. -/
def lendingBy (op : Op) : Machine Workbench.types :=
  .start (.start { modules := ⟨false, false, false⟩ } {})
    (.write (fun w => (w.addClosure
        { chunk := lending op, entry := 0, upvalues := #[], upvalueNames := [],
          name? := none }).2)
      (.call (.function ⟨3⟩) [] fun r => (Action.ofResult r).bind Library.one))

theorem reachable_lendingBy (op : Op) (n : Nat) : ((lendingBy op).after n).Reachable := by
  refine (Machine.leads_after _ n).reachable (.start _ _ ?_)
  refine .write (fun w => .addClosure w _) (.call _ _ fun r => ?_)
  exact Action.lawful_bind (Action.lawful_ofResult r) Library.lawful_one

/-- The call that it makes. -/
def lent : CallSite Workbench.types where
  loop := .nested ⟨0, none, 0, 0⟩
    (.action fun r => (Action.ofResult r).bind Library.one) []
  caller :=
    { callee := .function ⟨3⟩, base := 0, returnAddress := 0
      flags := { entryPoint := true } }
  lower := []
  operands := [.number 8, .number 7]
  address := 5
  floor := Nat.le_refl 0

theorem begins_lent : lent.Begins ((lendingBy .nop).after 7) where
  loop := .nested _ _ _
  control := rfl
  polls := rfl
  calls :=
    ⟨.call (.function ⟨4⟩) [] false, _, rfl, rfl, rfl, by decide +kernel, rfl⟩

theorem during_lent {m : Machine Workbench.types}
    (h : lent.During ((lendingBy .nop).after 7) m) :
    m = (lendingBy .nop).after 8 ∨ m = (lendingBy .nop).after 9 ∨
      m = (lendingBy .nop).after 10 ∨ m = (lendingBy .nop).after 11 := by
  induction h with
  | start => exact Or.inl rfl
  | next h hends ih =>
      rcases ih with rfl | rfl | rfl | rfl
      · exact Or.inr (Or.inl rfl)
      · exact Or.inr (Or.inr (Or.inl rfl))
      · exact Or.inr (Or.inr (Or.inr rfl))
      · refine absurd (.returned .proceed (.nested _ _ _) (Or.inl rfl) ?_) hends
        refine .resumed rfl (by decide +kernel) rfl (fun f hf => ?_) (List.suffix_cons _ _)
        cases hf
        rfl
  | again h hends hfinished hw ha ih =>
      rcases ih with rfl | rfl | rfl | rfl <;> cases hfinished

theorem withinReach_lent {m : Machine Workbench.types}
    (h : lent.During ((lendingBy .nop).after 7) m) : m.WithinReach := by
  intro _
  rcases during_lent h with rfl | rfl | rfl | rfl
  all_goals exact Core.withinReach_of_fetches ⟨rfl, _, rfl, rfl⟩ (by decide)

end CallSite

/-- The one instruction of the function that is called is none that takes operands,
and the caller has its own when it goes on. -/
theorem Machine.sparesOperands_lent :
    ((CallSite.lendingBy .nop).after 7).Reachable ∧
      CallSite.lent.Begins ((CallSite.lendingBy .nop).after 7) ∧
      ∀ m, CallSite.lent.During ((CallSite.lendingBy .nop).after 7) m →
        CallSite.lent.InForce m ∨
          CallSite.lent.Ends m ∧ CallSite.lent.operands <:+ m.core.proc.stack.items :=
  have hreach := CallSite.reachable_lendingBy .nop 7
  ⟨hreach, CallSite.begins_lent, hreach.sparesOperands.2 CallSite.lent CallSite.begins_lent
    fun _ h => CallSite.withinReach_lent h⟩

/-- A function without operands of its own takes one of its caller's. -/
theorem Machine.takes_lending :
    (CallSite.lending .pop).IsSound ∧
      ((CallSite.lendingBy .pop).after 9).Reachable ∧
      ∃ f i, ((CallSite.lendingBy .pop).after 9).Executes f i ∧
        ((CallSite.lendingBy .pop).after 9).core.proc.stack.height < f.base + i.reach ∧
        ((CallSite.lendingBy .pop).after 10).control = .loop .proceed ∧
        ((CallSite.lendingBy .pop).after 10).core.proc.stack.height < f.base := by
  refine ⟨?_, CallSite.reachable_lendingBy .pop 9, _, _, ⟨rfl, rfl, rfl, _, rfl, rfl⟩, ?_, rfl, ?_⟩
  · decide
  · decide
  · decide

end ScriptEngine
