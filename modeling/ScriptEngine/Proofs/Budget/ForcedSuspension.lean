import ScriptEngine.Proofs.Budget.Metered

/-!
# Suspensions by force

A coroutine is suspended by force when an instruction comes up that its budget does not
allow, and at no other time.  A function that yields leads on to a suspension of another
kind, and every other step to none.
-/

namespace ScriptEngine

variable {H : HostTypes} {r : CoroutineRef}

/-! ## Suspending -/

/-- On the way of a forced suspension. -/
def Control.IsForced : Control H → Prop
  | .loop .forceYield => True
  | .settling .forceYield => True
  | .leaving (.ok .forceYielded) => True
  | .switching (.ok .forceYielded) => True
  | _ => False

/-- On the way of a suspension by a function that has yielded. -/
def Control.IsYielding : Control H → Prop
  | .loop (.yield _) => True
  | .settling (.yield _) => True
  | .leaving (.ok (.yielded _)) => True
  | .switching (.ok (.yielded _)) => True
  | _ => False

/-- The budget allows an instruction, if the host has not asked to stop. -/
def Core.Affords (core : Core H) : Prop :=
  core.world.cancelled = false → core.proc.countInstruction.1 = false

/-- On the way of no suspension. -/
def Control.Steady (control : Control H) : Prop :=
  ¬control.IsForced ∧ ¬control.IsYielding

namespace Exec

/-- The program does not suspend its coroutine. -/
def Steady : EStateM.Result RuntimeError (Core H) Outcome → Prop
  | .ok .forceYield _ => False
  | .ok (.yield _) _ => False
  | _ => True

variable {c : Core H} {result : EStateM.Result RuntimeError (Core H) Outcome}

theorem Called.steady {flags : FrameFlags} {returnAddress : Nat} {handlers : Handlers}
    (h : Called c flags returnAddress handlers result) : Steady result := by
  cases h <;> trivial

theorem Delivered.steady {flags : FrameFlags} {returnAddress : Nat}
    {v? : Option Value} (h : Delivered c flags returnAddress v? result) :
    Steady result := by
  cases h <;> trivial

theorem Finished.steady {frame : Frame} {v : Value} (h : Finished c frame v result) :
    Steady result := by
  cases h with
  | delivered v? hpost h => exact h.steady
  | continued f h => trivial
  | notNumber h hv => trivial

theorem Carried.steady (h : Carried c result) : Steady result := by
  cases h with
  | stepMatches => trivial
  | calls flags hentry handlers hhandlers h => exact h.steady
  | replaces caller rest hframes hcan flags hentry h => exact h.steady
  | returns frame rest hframes v h => exact h.steady
  | lost reason => trivial

theorem Completed.steady {outcome : NativeOutcome} (h : Completed c outcome result)
    (hyields : ∀ v, outcome ≠ .yield v) : Steady result := by
  cases h with
  | returns frame rest hframes v h => exact h.steady
  | yields frame rest hframes v => exact absurd rfl (hyields v)
  | _ => trivial

theorem step_steady [HostObjects H] (c : Core H) : Steady (step c) := by
  rcases step_cases c with ⟨e, c', hrun, -⟩ | ⟨c', -, hcarried⟩
  · rw [hrun]
    trivial
  · exact hcarried.steady

end Exec

namespace Machine

variable {core : Core H} {activations : List (Activation H)}

theorem steady_exec {route : Route} {x : Exec H Outcome} (hx : Exec.Steady (x core)) :
    (exec route x core activations).control.Steady := by
  unfold exec
  cases hrun : x core with
  | error e c' => cases route <;> exact ⟨id, id⟩
  | ok o c' =>
      rw [hrun] at hx
      cases o with
      | forceYield => exact hx.elim
      | yield v => exact hx.elim
      | _ => cases route <;> exact ⟨id, id⟩

variable [Host H]

omit [Host H] in
theorem affords_of_free (h : core.proc.autoYield? = none) : core.Affords := by
  intro _
  rw [countInstruction_of_idle (Or.inl h)]

theorem steady_poll (haffords : core.Affords) : Exec.Steady (Exec.poll core) := by
  rw [poll_run]
  split
  · trivial
  · next hgoing =>
      rw [if_neg (by simp [haffords (by simpa using hgoing)])]
      exact Exec.step_steady (counted core)

/-- Only a yield leads on to a suspension. -/
theorem steady_afterOutcome {o : Outcome} (haffords : o = .proceed → core.Affords)
    (ho : o ≠ .forceYield) (hyields : ∀ v, o ≠ .yield v) :
    (afterOutcome core activations o).control.Steady := by
  cases o with
  | proceed => exact steady_exec (steady_poll (haffords rfl))
  | finish frame v => exact steady_exec (Exec.finished_finish frame v core).steady
  | invoke f args => exact ⟨id, id⟩
  | recover e decorator? handler flags returnAddress => cases decorator? <;> exact ⟨id, id⟩
  | tailCall request flags returnAddress =>
      exact steady_exec (Exec.called_call _ _ _ _ _ core).steady
  | yield v => exact absurd rfl (hyields v)
  | forceYield => exact absurd rfl ho
  | «return» v => exact ⟨id, id⟩

omit [Host H] in
/-- The end of a loop is that of its coroutine, or a nested call's. -/
theorem control_leave (core : Core H) (activations : List (Activation H))
    (exit : Except RuntimeError LoopExit) :
    (∃ rest, activations = .body :: rest ∧
      (leave core activations exit).control = .switching exit) ∨
      (leave core activations exit).control.Steady := by
  cases activations with
  | nil => exact Or.inr ⟨id, id⟩
  | cons a rest =>
      cases a with
      | call mark waiter =>
          right
          rcases exit with e | exit
          · exact ⟨id, id⟩
          · cases exit <;> exact ⟨id, id⟩
      | body =>
          left
          refine ⟨rest, rfl, ?_⟩
          cases exit <;> rfl
      | switch c outer next => exact Or.inr ⟨id, id⟩

omit [Host H] in
theorem steady_answer (result : Except RuntimeError Value) (waiter : Waiter H) :
    (answer core activations result waiter).control.Steady := by
  cases waiter with
  | recovered flags returnAddress =>
      cases result with
      | error e => exact ⟨id, id⟩
      | ok v => exact steady_exec (Exec.delivered_deliver _ _ _ core).steady
  | caught flags returnAddress =>
      cases result with
      | error e => exact ⟨id, id⟩
      | ok v =>
          exact steady_exec (Exec.delivered_deliver _ _ _ core).steady
  | processor => cases result <;> exact ⟨id, id⟩
  | _ => exact ⟨id, id⟩

omit [Host H] in
theorem steady_settle {o : Outcome} (ho : o ≠ .forceYield) (hyields : ∀ v, o ≠ .yield v) :
    (settle core activations o).control.Steady := by
  cases o with
  | finish frame v =>
      exact steady_exec (Exec.finished_finish frame v core).steady
  | forceYield => exact absurd rfl ho
  | yield v => exact absurd rfl (hyields v)
  | _ => exact ⟨id, id⟩

theorem steady_runCoroutine (w : World H) (c : Coroutine) (p : Processor)
    (args : List Value) : (runCoroutine w activations c p args).control.Steady := by
  have hroused := roused_runCoroutine w activations c p args
  generalize runCoroutine w activations c p args = m at hroused ⊢
  cases hroused with
  | first hkind hstate => exact steady_exec (Exec.called_call _ _ _ _ _ _).steady
  | _ => exact ⟨id, id⟩

theorem steady_act (a : Action H NativeOutcome) (hyields : ∀ v, a ≠ .done (.yield v)) :
    (act core activations a).control.Steady := by
  cases a with
  | done outcome =>
      cases activations with
      | nil => exact ⟨id, id⟩
      | cons top rest =>
          refine steady_exec
            ((Exec.completed_completeNative outcome core).steady fun v h => ?_)
          exact hyields v (congrArg Action.done h)
  | fail e => cases activations <;> exact ⟨id, id⟩
  | read next => exact ⟨id, id⟩
  | write change next => exact ⟨id, id⟩
  | call function args next => exact ⟨id, id⟩
  | resume c args next =>
      change (resume core activations c args next).control.Steady
      rcases resume_cases core activations c args next with
        ⟨e, -, hresume⟩ | ⟨co, p, -, -, -, -, hresume⟩
      all_goals rw [hresume]
      · exact ⟨id, id⟩
      · exact steady_runCoroutine _ co p args
  | enterMain function args next =>
      change (enterMain core activations function args next).control.Steady
      rcases enterMain_cases core activations function args next with
        henter | ⟨c, p, -, -, henter⟩
      all_goals
        rw [henter]
        exact ⟨id, id⟩

theorem activations_afterOutcome (core : Core H) (activations : List (Activation H))
    (o : Outcome) :
    (afterOutcome core activations o).activations = activations := by
  cases o with
  | proceed => exact exec_activations _ _ _
  | finish frame v => exact exec_activations _ _ _
  | invoke f args => rfl
  | recover e decorator? handler flags returnAddress => cases decorator? <;> rfl
  | tailCall request flags returnAddress => exact exec_activations _ _ _
  | yield v =>
      unfold afterOutcome
      rcases checkYield_cases core with hrun | ⟨violation, hrun⟩ <;> rw [hrun]
  | forceYield => rfl
  | «return» v => rfl

omit [Host H] in
theorem activations_settle (core : Core H) (activations : List (Activation H))
    (o : Outcome) :
    (settle core activations o).activations = activations := by
  cases o with
  | finish frame v =>
      exact exec_activations (Exec.finish frame v) core activations
  | _ => rfl

variable {m : Machine H}

omit [Host H] in
theorem control_switchBack (core : Core H) (activations : List (Activation H))
    (exit : Except RuntimeError LoopExit) :
    (switchBack core activations exit).control.Steady := by
  cases activations with
  | nil => exact ⟨id, id⟩
  | cons a rest => cases a <;> exact ⟨id, id⟩

/-- A suspension begins with a function that yields or with an instruction that the budget
does not allow. -/
theorem steady_next (haffords : m.control = .loop .proceed → m.core.Affords)
    (hsteady : m.control.Steady) (hyields : ∀ v, m.control ≠ .running (.done (.yield v))) :
    m.next.control.Steady := by
  obtain ⟨core, activations, control⟩ := m
  cases control with
  | loop o =>
      refine steady_afterOutcome (fun h => haffords (congrArg Control.loop h)) ?_ ?_
      · rintro rfl
        exact hsteady.1 trivial
      · rintro v rfl
        exact hsteady.2 trivial
  | failed e => cases e <;> exact ⟨id, id⟩
  | unwinding e decorators =>
      cases decorators with
      | nil =>
          change (catchError core activations e).control.Steady
          rcases catchError_cases core activations e with
            ⟨frame, handler, n, -, hcaught⟩ | ⟨n, -, hcaught⟩
          all_goals rw [hcaught]; exact ⟨id, id⟩
      | cons d rest => exact ⟨id, id⟩
  | calling function args waiter =>
      change (beginCall core activations function args waiter).control.Steady
      rcases beginCall_cases core activations function args waiter with hbegin | ⟨-, hbegin⟩
      all_goals rw [hbegin]
      · exact ⟨id, id⟩
      · exact steady_exec (Exec.called_call _ _ _ _ _ _).steady
  | leaving exit =>
      rcases control_leave core activations exit with ⟨rest, -, hcontrol⟩ | hleaves
      · change (leave core activations exit).control.Steady
        rw [hcontrol]
        rcases exit with e | exit
        · exact ⟨id, id⟩
        · cases exit <;> exact hsteady
      · exact hleaves
  | answering waiter result => exact steady_answer result waiter
  | switching exit => exact control_switchBack core activations exit
  | running a => exact steady_act a fun v h => hyields v (congrArg Control.running h)
  | settling o =>
      refine steady_settle ?_ ?_
      · rintro rfl
        exact hsteady.1 trivial
      · rintro v rfl
        exact hsteady.2 trivial
  | finished result => exact ⟨id, id⟩

/-- On the way of a suspension the loops stay, and in the end that of the coroutine goes. -/
theorem next_cases (m : Machine H) :
    m.next.control.Steady ∨ m.next.activations = m.activations ∨
      ∃ rest, m.activations = .body :: rest ∧ m.next.activations = rest := by
  obtain ⟨core, activations, control⟩ := m
  cases control with
  | loop o => exact Or.inr (Or.inl (activations_afterOutcome core activations o))
  | failed e => cases e <;> exact Or.inr (Or.inl rfl)
  | unwinding e decorators => exact Or.inl (steady_next nofun ⟨id, id⟩ nofun)
  | calling function args waiter => exact Or.inl (steady_next nofun ⟨id, id⟩ nofun)
  | leaving exit =>
      rcases control_leave core activations exit with ⟨rest, rfl, -⟩ | hleaves
      · refine Or.inr (Or.inr ⟨rest, rfl, ?_⟩)
        cases exit <;> rfl
      · exact Or.inl hleaves
  | answering waiter result => exact Or.inl (steady_answer result waiter)
  | switching exit => exact Or.inl (control_switchBack core activations exit)
  | running a =>
      cases a with
      | done outcome =>
          cases activations with
          | nil => exact Or.inl ⟨id, id⟩
          | cons top rest => exact Or.inr (Or.inl (exec_activations _ _ _))
      | _ => exact Or.inl (steady_act _ nofun)
  | settling o => exact Or.inr (Or.inl (activations_settle core activations o))
  | finished result => exact Or.inl ⟨id, id⟩

theorem unforced_of_yielding
    (h : m.control.IsYielding ∨ ∃ v, m.control = .running (.done (.yield v))) :
    ¬m.next.control.IsForced := by
  obtain ⟨core, activations, control⟩ := m
  rcases h with h | ⟨v, h⟩
  · cases control with
    | loop o =>
        cases o with
        | yield v =>
            change ¬(afterOutcome core activations (.yield v)).control.IsForced
            unfold afterOutcome
            rcases checkYield_cases core with hrun | ⟨violation, hrun⟩ <;> rw [hrun] <;>
              exact id
        | _ => exact h.elim
    | settling o =>
        cases o with
        | yield v => exact id
        | _ => exact h.elim
    | leaving exit =>
        rcases control_leave core activations exit with ⟨rest, -, hcontrol⟩ | hleaves
        · change ¬(leave core activations exit).control.IsForced
          rw [hcontrol]
          rcases exit with e | exit
          · exact id
          · cases exit with
            | forceYielded => exact h.elim
            | _ => exact id
        · exact hleaves.1
    | switching exit => exact (control_switchBack core activations exit).1
    | _ => exact h.elim
  · obtain rfl : control = _ := h
    cases activations with
    | nil => exact id
    | cons top rest =>
        change ¬(exec .loop (Exec.completeNative (.yield v)) core (top :: rest)).control.IsForced
        unfold exec
        have hcompleted := Exec.completed_completeNative (.yield v) core
        cases hrun : Exec.completeNative (.yield v) core with
        | error e c' => exact id
        | ok o c' =>
            rw [hrun] at hcompleted
            cases hcompleted
            exact id

theorem unforced_next
    (haffords : IsWorking r m.activations → m.control = .loop .proceed → m.core.Affords)
    (h : IsWorking r m.activations → ¬m.control.IsForced)
    (hworking : IsWorking r m.next.activations) : ¬m.next.control.IsForced := by
  have hcases (hbefore : IsWorking r m.activations) : ¬m.next.control.IsForced := by
    by_cases hyields : m.control.IsYielding ∨ ∃ v, m.control = .running (.done (.yield v))
    · exact unforced_of_yielding hyields
    · exact (steady_next (haffords hbefore)
        ⟨h hbefore, fun hyielding => hyields (Or.inl hyielding)⟩
        fun v hdone => hyields (Or.inr ⟨v, hdone⟩)).1
  rcases next_cases m with hsteady | hsame | ⟨rest, hbody, hrest⟩
  · exact hsteady.1
  · exact hcases (hsame ▸ hworking)
  · refine hcases ?_
    rw [hrest] at hworking
    rw [hbody]
    exact hworking

end Machine

end ScriptEngine
