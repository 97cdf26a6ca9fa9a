import ScriptEngine.Proofs.Frame.Return

/-!
# Calls that instructions make

A call begins with an instruction of a script function: a call that leaves the
function's frame where it is, or an operator that comes to the call of a
metamethod.  From there the call is in force until it ends.
-/

namespace ScriptEngine

variable {H : HostTypes}

/-- The instruction makes a call and leaves its own frame where it is. -/
def Intent.Calls (p : Processor) : Intent → Prop
  | .proceed => False
  | .pending _ => True
  | .call _ _ _ => Exec.canTailCall p = false
  | .return _ => False

namespace Machine

variable [Host H] {m : Machine H} {intent : Intent} {c : Core H}

/-- The next step executes an instruction, which comes to this. -/
structure Intends (m : Machine H) (intent : Intent) (c : Core H) : Prop where
  control : m.control = .loop .proceed
  /-- Neither the host's request to stop nor the budget is in the way. -/
  polls : Exec.poll m.core = Exec.step (counted m.core)
  run : Exec.stepIntent (counted m.core) = .ok intent c

theorem next_of_proceed (h : m.control = .loop .proceed) :
    m.next = exec .loop Exec.poll m.core m.activations :=
  next_of_loop h

theorem Intends.next_eq (h : m.Intends intent c) :
    m.next = exec .loop Exec.poll m.core m.activations :=
  next_of_proceed h.control

end Machine

namespace CallSite

variable [Host H] {s : CallSite H} {m m₀ : Machine H}

/-- The instruction to come makes the call. -/
structure Begins (s : CallSite H) (m : Machine H) : Prop where
  loop : s.loop.At m.activations
  control : m.control = .loop .proceed
  /-- Neither the host's request to stop nor the budget is in the way. -/
  polls : Exec.poll m.core = Exec.step (Machine.counted m.core)
  calls : ∃ intent c, Exec.stepIntent (Machine.counted m.core) = .ok intent c ∧
    intent.Calls c.proc ∧ c.proc.ip = s.address ∧ c.proc.frames.items = s.below ∧
    c.proc.stack.items = s.operands

/-- The call has its frame, or what stands for it is being dealt with. -/
theorem lasts_called {intent : Intent} {c : Core H} (hm : m.Intends intent c)
    (hcalls : intent.Calls c.proc) (hloop : s.loop.At m.activations)
    (hip : c.proc.ip = s.address) (hframes : c.proc.frames.items = s.below)
    (hoperands : s.operands <:+ c.proc.stack.items) : s.Lasts m.next := by
  have hover : c.proc.Over s.operands [] s.below := ⟨hframes, by simp, hoperands⟩
  have hlast : LastIs s.address (c.proc.ip :: addresses []) := by
    rw [hip]
    rfl
  rw [hm.next_eq]
  refine lasts_exec hloop ?_ (Or.inl rfl)
  rw [hm.polls, Exec.step_eq, Exec.run_bind_of_ok hm.run]
  cases intent with
  | proceed => exact hcalls.elim
  | pending p => exact (Exec.called_call _ _ _ _ _ c).site hover hlast
  | call function args methodCall =>
      have hask : Exec.askProc Exec.canTailCall c = .ok false c := by
        rw [← show Exec.canTailCall c.proc = false from hcalls]
        rfl
      have hplace : Exec.placeCall function args methodCall c = _ :=
        Exec.run_bind_of_ok hask
      change Exec.ResultCalled s (Exec.placeCall function args methodCall c)
      rw [hplace, if_neg Bool.false_ne_true]
      exact (Exec.called_call _ _ _ _ _ c).site hover hlast
  | «return» v => exact hcalls.elim

theorem Begins.lasts (h : s.Begins m) : s.Lasts m.next := by
  obtain ⟨intent, c, hrun, hcalls, hip, hframes, hstack⟩ := h.calls
  exact lasts_called ⟨h.control, h.polls, hrun⟩ hcalls h.loop hip hframes
    (hstack ▸ List.suffix_refl _)

/-- What the call comes through until it ends. -/
def During (s : CallSite H) (m₀ m : Machine H) : Prop :=
  Machine.Until s.Ends m₀.next m

theorem During.leads (h : s.During m₀ m) : m₀.Leads m := by
  have hbegins := Machine.leads_after m₀ 1
  exact hbegins.trans (Machine.Until.leads h)

/-- All the while the call is in force, or it has ended. -/
theorem During.lasts_of [LawfulHost H] (h₀ : m₀.Reachable) (hstart : s.Lasts m₀.next)
    (hsparing : s.operands = [] ∨ ∀ m, s.During m₀ m → m.Sparing) (h : s.During m₀ m) :
    s.Lasts m := by
  refine LoopInvariant.lasts_until s.persists (h₀.after 1) hstart ?_ h
  intro m hreach hduring hactive hends
  exact lasts_active_next hreach.wellNested hreach.wellFramed hreach.bounded
    (hsparing.imp_right fun hall => hall m hduring) hactive hends

theorem During.lasts [LawfulHost H] (h₀ : m₀.Reachable) (hm : s.Begins m₀)
    (hsparing : s.operands = [] ∨ ∀ m, s.During m₀ m → m.Sparing) (h : s.During m₀ m) :
    s.Lasts m :=
  h.lasts_of h₀ hm.lasts hsparing

end CallSite

end ScriptEngine
