import ScriptEngine.Proofs.Frame.Return
import ScriptEngine.Proofs.Machine.JumpTargets

/-!
# Where a loop is in the code

A loop that has fetched an instruction is right behind it until it fetches another
one.  Frames may go in the meantime, also that of the function the instruction is
in, nested calls and other coroutines may run, and the loop's own coroutine may be
suspended: the processor keeps the address and the chunk.
-/

namespace ScriptEngine

variable {H : HostTypes}

/-- A loop and an instruction that it has fetched. -/
structure Position (H : HostTypes) where
  loop : Loop H
  chunk : Chunk
  ip : Nat

namespace Position

/-- The processor is right behind the instruction. -/
structure Holds (s : Position H) (p : Processor) : Prop where
  chunk : p.chunk? = some s.chunk
  ip : p.ip = s.ip + 1

/-- The loop or a nested call is the innermost one. -/
inductive Active (s : Position H) (m : Machine H) : Prop where
  | executing (hloop : s.loop.At m.activations) (hholds : s.Holds m.core.proc)
  | nested (k : Enclosure H) (hloop : s.loop.At k.outer) (hoperands : k.operands = [])
      (hchunk : k.mark.chunk? = some s.chunk) (hip : k.mark.ip = s.ip + 1)
      (hlasts : k.Lasts m)

/-- The instruction on the processor of the loop. -/
def invariant (s : Position H) : LoopInvariant H where
  loop := s.loop
  Active := s.Active
  Waits activations p := s.loop.At activations ∧ s.Holds p
  Parked p state := (state = .suspended ∨ state = .forceSuspended) ∧ s.Holds p

/-- The instruction is the last one that the loop has fetched. -/
def InForce (s : Position H) (m : Machine H) : Prop :=
  s.invariant.InForce m

/-- The loop goes on with another instruction, or it ends. -/
inductive Moves (s : Position H) (m : Machine H) : Prop where
  | fetches (hloop : s.loop.At m.activations)
      (hcontrol : m.control = .loop .proceed ∨ m.control = .settling .proceed)
  | leaves (exit : Except RuntimeError LoopExit) (hloop : s.loop.At m.activations)
      (hcontrol : m.control = .leaving exit)
      (hexit : LoopExit.IsFinal exit ∨
        ∃ mark waiter rest, s.loop = .nested mark waiter rest)

def Lasts (s : Position H) (m : Machine H) : Prop :=
  s.InForce m ∨ s.Moves m

variable {s : Position H} {p p' : Processor} {core : Core H}
  {activations : List (Activation H)}

theorem Holds.of_same (h : s.Holds p) (hchunk : p'.chunk? = p.chunk?)
    (hip : p'.ip = p.ip) : s.Holds p' := by
  constructor
  · rw [hchunk, h.chunk]
  · rw [hip, h.ip]

theorem Holds.of_alike (h : s.Holds p) (halike : p.Alike p') : s.Holds p' :=
  h.of_same halike.chunk halike.ip

theorem Holds.location?_eq (h : s.Holds p) : p.location? = s.chunk.location? s.ip := by
  unfold Processor.location?
  rw [h.chunk, h.ip]

end Position

/-! ## Programs -/

namespace Exec

variable {s : Position H} {c : Core H}

/-- The processor stays where it is, unless an instruction comes next. -/
def ResultStays (s : Position H) :
    EStateM.Result RuntimeError (Core H) Outcome → Prop
  | .ok o c => o = .proceed ∨ s.Holds c.proc
  | .error _ c => s.Holds c.proc

theorem Called.stays {flags : FrameFlags} {returnAddress : Nat} {handlers : Handlers}
    {r : EStateM.Result RuntimeError (Core H) Outcome}
    (h : Called c flags returnAddress handlers r) (hholds : s.Holds c.proc) :
    ResultStays s r := by
  cases h with
  | failed e h => exact hholds
  | recovered e handler h => exact Or.inr hholds
  | entered f args hdepth => exact Or.inl rfl
  | invoked f args hdepth => exact Or.inr (hholds.of_same rfl rfl)

theorem Delivered.stays {flags : FrameFlags} {returnAddress : Nat} {v? : Option Value}
    {r : EStateM.Result RuntimeError (Core H) Outcome}
    (h : Delivered c flags returnAddress v? r) (hholds : s.Holds c.proc) :
    ResultStays s r := by
  cases h with
  | returned hentry => exact Or.inr hholds
  | awaited hentry top rest hframes hawaiting => exact Or.inr (hholds.of_same rfl rfl)
  | bottom hentry hframes => exact Or.inl rfl
  | resumed hentry top htop hawaiting => exact Or.inl rfl

theorem Finished.stays {frame : Frame} {v : Value}
    {r : EStateM.Result RuntimeError (Core H) Outcome} (h : Finished c frame v r)
    (hholds : s.Holds c.proc) : ResultStays s r := by
  cases h with
  | delivered v? hpost h => exact h.stays hholds
  | continued f h => exact Or.inr hholds
  | notNumber h hv => exact hholds

theorem Carried.stays {r : EStateM.Result RuntimeError (Core H) Outcome} (h : Carried c r)
    (hholds : s.Holds c.proc) : ResultStays s r := by
  cases h with
  | stepMatches => exact Or.inl rfl
  | calls flags hentry handlers hhandlers h => exact h.stays hholds
  | replaces caller rest hframes hcan flags hentry h => exact h.stays (hholds.of_same rfl rfl)
  | returns frame rest hframes v h => exact h.stays (hholds.of_same rfl rfl)
  | lost reason => exact hholds

theorem Completed.stays {outcome : NativeOutcome}
    {r : EStateM.Result RuntimeError (Core H) Outcome} (h : Completed c outcome r)
    (hholds : s.Holds c.proc) : ResultStays s r := by
  have hsame {p : Processor} (hchunk : p.chunk? = c.proc.chunk?) (hip : p.ip = c.proc.ip) :
      s.Holds p := hholds.of_same hchunk hip
  cases h with
  | lost outcome h => exact hholds
  | returns frame rest hframes v h => exact h.stays (hsame rfl rfl)
  | yields frame rest hframes v => exact Or.inr (hsame rfl rfl)
  | replaced frame rest hframes hhandlers request => exact Or.inr (hsame rfl rfl)
  | waits frame rest hframes hhandlers request => exact Or.inr (hsame rfl rfl)

section

variable [HostObjects H] {i : Instruction}

theorem stays_step (hchunk : c.proc.chunk? = some s.chunk) (hip : c.proc.ip = s.ip)
    (hcode : s.chunk.code[s.ip]? = some i) (hsound : s.chunk.IsSound) :
    ResultStays s (step c) := by
  rw [← hip] at hcode
  have hplain := (simple_stepIntent.plain c).chunk
  have hplace := ip_of_stepIntent hchunk hcode hsound
  rw [step_eq]
  cases hintent : stepIntent c with
  | error e c' =>
      rw [hintent] at hplain hplace
      rw [run_bind_of_error hintent]
      exact ⟨hplain.trans hchunk, (hplace (by simp)).trans (by rw [hip])⟩
  | ok next c' =>
      rw [hintent] at hplain hplace
      rw [run_bind_of_ok hintent]
      by_cases hnext : next = .proceed
      · rw [hnext]
        exact Or.inl rfl
      · have hnever : ∀ c'' : Core H,
            (EStateM.Result.ok next c' : EStateM.Result RuntimeError (Core H) Intent) ≠
              .ok .proceed c'' := by
          intro c'' h
          cases h
          exact hnext rfl
        exact (carried_carryOut next c').stays
          ⟨hplain.trans hchunk, (hplace hnever).trans (by rw [hip])⟩

end

end Exec

namespace Position

variable {s : Position H} {p p' : Processor} {core : Core H}
  {activations : List (Activation H)}

theorem lasts_executing {control : Control H} (hloop : s.loop.At activations)
    (hholds : s.Holds core.proc) : s.Lasts ⟨core, activations, control⟩ := by
  refine Or.inl (.active ?_)
  exact .executing hloop hholds

theorem lasts_exec {route : Machine.Route} {x : Exec H Outcome} (hloop : s.loop.At activations)
    (hstays : Exec.ResultStays s (x core)) : s.Lasts (Machine.exec route x core activations) := by
  unfold Machine.exec
  cases hx : x core with
  | ok o c =>
      rw [hx] at hstays
      rcases hstays with rfl | hholds
      · exact Or.inr (.fetches hloop (route.done_cases .proceed))
      · exact lasts_executing hloop hholds
  | error e c =>
      rw [hx] at hstays
      exact lasts_executing hloop hstays

/-! ## Steps in the loop -/

section

variable [Host H] {m : Machine H}

theorem lasts_afterOutcome {o : Outcome} (hloop : s.loop.At activations)
    (hholds : s.Holds core.proc) (hne : o ≠ .proceed) :
    s.Lasts (Machine.afterOutcome core activations o) := by
  cases o with
  | proceed => exact absurd rfl hne
  | finish frame v =>
      exact lasts_exec hloop ((Exec.finished_finish frame v core).stays hholds)
  | tailCall request flags returnAddress =>
      exact lasts_exec hloop ((Exec.called_call _ _ _ _ _ core).stays hholds)
  | recover e decorator? handler flags returnAddress =>
      cases decorator? <;> exact lasts_executing hloop hholds
  | yield v =>
      unfold Machine.afterOutcome
      rcases Machine.checkYield_cases core with hrun | ⟨violation, hrun⟩
      · rw [hrun]
        exact lasts_executing hloop hholds
      · rw [hrun]
        exact lasts_executing hloop (hholds.of_same rfl rfl)
  | _ => exact lasts_executing hloop hholds

omit [Host H] in
theorem lasts_answer {waiter : Waiter H} (result : Except RuntimeError Value)
    (hloop : s.loop.At activations) (hholds : s.Holds core.proc) :
    s.Lasts (Machine.answer core activations result waiter) := by
  cases waiter with
  | recovered flags returnAddress =>
      cases result with
      | ok v =>
          exact lasts_exec hloop
            ((Exec.delivered_deliver flags returnAddress (some v) core).stays hholds)
      | error e => exact lasts_executing hloop hholds
  | caught flags returnAddress =>
      cases result with
      | ok v =>
          exact lasts_exec hloop
            ((Exec.delivered_deliver flags returnAddress (some v) core).stays hholds)
      | error e => exact lasts_executing hloop hholds
  | _ => exact lasts_executing hloop hholds

omit [Host H] in
theorem lasts_settle {o : Outcome} (hloop : s.loop.At activations)
    (hholds : s.Holds core.proc) : s.Lasts (Machine.settle core activations o) := by
  cases o with
  | finish frame v =>
      exact lasts_exec hloop ((Exec.finished_finish frame v core).stays hholds)
  | _ => exact lasts_executing hloop hholds

omit [Host H] in
theorem lasts_failed (e : RuntimeError) (hloop : s.loop.At activations)
    (hholds : s.Holds core.proc) : s.Lasts (Machine.afterFailure core activations e) := by
  cases e with
  | script e => exact lasts_executing hloop hholds
  | _ => exact lasts_executing hloop (hholds.of_same rfl rfl)

omit [Host H] in
theorem lasts_catchError (e : ScriptError) (hloop : s.loop.At activations)
    (hholds : s.Holds core.proc) : s.Lasts (Machine.catchError core activations e) := by
  rcases Machine.catchError_cases core activations e with
    ⟨frame, handler, n, -, hcaught⟩ | ⟨n, -, hcaught⟩
  all_goals
    rw [hcaught]
    exact lasts_executing hloop (hholds.of_same rfl rfl)

theorem lasts_calling {function : Value} {args : List Value} {waiter : Waiter H}
    (hcontrol : m.control = .calling function args waiter)
    (hloop : s.loop.At m.activations) (hholds : s.Holds m.core.proc) : s.Lasts m.next := by
  rcases Machine.begins_calling hcontrol List.nil_suffix with hrefused | hbegins
  · rw [hrefused]
    exact lasts_executing hloop hholds
  · exact Or.inl (.active (.nested _ hloop rfl hholds.chunk hholds.ip hbegins))

omit [Host H] in
theorem lasts_leave (exit : Except RuntimeError LoopExit) (hloop : s.loop.At activations)
    (hholds : s.Holds core.proc) (hmoves : ¬s.Moves ⟨core, activations, .leaving exit⟩) :
    s.Lasts (Machine.leave core activations exit) := by
  generalize hown : s.loop = loop at hloop
  cases hloop with
  | nested mark waiter rest =>
      refine absurd (.leaves exit ?_ rfl (Or.inr ⟨mark, waiter, rest, hown⟩)) hmoves
      rw [hown]
      exact .nested mark waiter rest
  | body r outer next rest =>
      have hexit : ¬LoopExit.IsFinal exit := by
        intro hfinal
        refine hmoves (.leaves exit ?_ rfl (Or.inl hfinal))
        rw [hown]
        exact .body r outer next rest
      cases exit with
      | error e => exact absurd trivial hexit
      | ok exit =>
          refine Or.inl (.departing r outer next rest exit hown rfl rfl
            ⟨?_, hholds.of_same rfl rfl⟩)
          cases exit with
          | returned v => exact absurd trivial hexit
          | yielded v => exact Or.inl rfl
          | forceYielded => exact Or.inr rfl

theorem lasts_act (a : Action H NativeOutcome) (hloop : s.loop.At activations)
    (hholds : s.Holds core.proc) : s.Lasts (Machine.act core activations a) := by
  have hin := hloop.inLoop
  have hactive (a : Action H NativeOutcome) :
      s.invariant.Active ⟨core, activations, .running a⟩ := .executing hloop hholds
  cases a with
  | done outcome =>
      rw [Machine.act_done hin]
      exact lasts_exec hloop ((Exec.completed_completeNative outcome core).stays hholds)
  | fail e =>
      rw [Machine.act_fail hin]
      exact lasts_executing hloop hholds
  | write change next => exact lasts_executing hloop (hholds.of_same rfl rfl)
  | resume r args next =>
      exact Or.inl (LoopInvariant.inForce_resume r args hactive ⟨hloop, hholds⟩)
  | enterMain function args next =>
      exact Or.inl (LoopInvariant.inForce_enterMain function args hactive ⟨hloop, hholds⟩)
  | _ => exact lasts_executing hloop hholds

theorem lasts_executing_next (hm : m.WellNested) (hloop : s.loop.At m.activations)
    (hholds : s.Holds m.core.proc) (hmoves : ¬s.Moves m) : s.Lasts m.next := by
  obtain ⟨core, activations, control⟩ := m
  have hcontrol := hm.control
  have hin := hloop.inLoop
  cases control with
  | loop o =>
      refine lasts_afterOutcome hloop hholds ?_
      rintro rfl
      exact hmoves (.fetches hloop (Or.inl rfl))
  | failed e => exact lasts_failed e hloop hholds
  | unwinding e decorators =>
      cases decorators with
      | nil => exact lasts_catchError e hloop hholds
      | cons d rest => exact lasts_executing hloop hholds
  | calling function args waiter => exact lasts_calling rfl hloop hholds
  | leaving exit => exact lasts_leave exit hloop hholds hmoves
  | answering waiter result => exact lasts_answer result hloop hholds
  | switching exit =>
      obtain ⟨r, outer, next, rest, hswitch, -⟩ := hcontrol
      dsimp only at hswitch hin
      rw [hswitch] at hin
      exact absurd hin InLoop.ne_switch
  | running a => exact lasts_act a hloop hholds
  | settling o => exact lasts_settle hloop hholds
  | finished result =>
      have hnil : activations = [] := hcontrol
      dsimp only at hin
      rw [hnil] at hin
      exact absurd hin not_inLoop_nil

/-! ## Nested calls and other coroutines -/

theorem lasts_nested_next (hm : m.WellNested) (hg : m.WellFramed) (hb : m.Bounded)
    {k : Enclosure H} (hloop : s.loop.At k.outer) (hoperands : k.operands = [])
    (hchunk : k.mark.chunk? = some s.chunk) (hip : k.mark.ip = s.ip + 1)
    (hlasts : k.Lasts m) : s.Lasts m.next := by
  rcases hlasts.next hm hg hb (Or.inl hoperands) with hstill | hleft
  · exact Or.inl (.active (.nested k hloop hoperands hchunk hip hstill))
  · refine Or.inl (.active (.executing ?_ ⟨hleft.chunk.trans hchunk, hleft.ip.trans hip⟩))
    rw [hleft.activations]
    exact hloop

/-- The coroutine is back in the loop, which is where it was. -/
theorem lasts_resumed {r : CoroutineRef} {c : Coroutine} {world : World H}
    {outer : Processor} {next : Except RuntimeError Value → Action H NativeOutcome}
    (args : List Value) (hloop : s.loop = .body r) (hkind : c.kind = .script)
    (hstate : c.state = .suspended ∨ c.state = .forceSuspended) (hrests : c.state.Rests p)
    (hholds : s.Holds p) :
    s.Lasts (Machine.runCoroutine world (.switch r outer next :: activations) c p args) := by
  have hat : s.loop.At (.body :: .switch r outer next :: activations) := by
    rw [hloop]
    exact .body r outer next activations
  rcases hstate with hstate | hstate
  · rw [hstate] at hrests
    obtain ⟨f, hyielded, -⟩ := hrests
    rw [Machine.runCoroutine_of_yielded hkind hstate hyielded]
    exact lasts_executing hat (hholds.of_same rfl rfl)
  · rw [Machine.runCoroutine_of_forced hkind hstate]
    exact lasts_executing hat (hholds.of_same rfl rfl)

theorem persists (s : Position H) : s.invariant.Persists s.Moves where
  ne_nil := by
    rintro m (⟨hloop, -⟩ | ⟨k, -, -, -, -, hlasts⟩) hnil
    · have hin := hloop.inLoop
      rw [hnil] at hin
      exact not_inLoop_nil hin
    · have hlong := Machine.length_of_lasts hlasts
      rw [hnil] at hlong
      exact absurd hlong (Nat.not_lt_zero _)
  back := by
    rintro activations p ⟨hloop, hholds⟩ w a
    exact .executing hloop hholds
  of_alike := fun hparked halike => ⟨hparked.1, hparked.2.of_alike halike⟩
  suspended := fun hparked => hparked.1
  resumed := fun _ args hloop hkind hparked hrests =>
    lasts_resumed args hloop hkind hparked.1 hrests hparked.2

theorem lasts_active_next (hm : m.WellNested) (hg : m.WellFramed) (hb : m.Bounded)
    (h : s.Active m) (hmoves : ¬s.Moves m) : s.Lasts m.next := by
  cases h with
  | executing hloop hholds => exact lasts_executing_next hm hloop hholds hmoves
  | nested k hloop hoperands hchunk hip hlasts =>
      exact lasts_nested_next hm hg hb hloop hoperands hchunk hip hlasts

/-! ## Histories -/

/-- What the loop comes through until it moves. -/
def During (s : Position H) (m₀ m : Machine H) : Prop :=
  Machine.Until s.Moves m₀.next m

variable {m₀ : Machine H}

theorem During.leads (h : s.During m₀ m) : m₀.Leads m := by
  have hfetches := Machine.leads_after m₀ 1
  exact hfetches.trans (Machine.Until.leads h)

/-- All the while the loop is where it was, until it moves. -/
theorem During.lasts [LawfulHost H] (h₀ : m₀.Reachable) (hstart : s.Lasts m₀.next)
    (h : s.During m₀ m) : s.Lasts m := by
  refine LoopInvariant.lasts_until s.persists (h₀.after 1) hstart ?_ h
  intro m hreach _ hactive hmoves
  exact lasts_active_next hreach.wellNested hreach.wellFramed hreach.bounded hactive hmoves

end

end Position

/-! ## The innermost loop -/

namespace Machine

theorem Loop.At.not_of_lasts {loop : Loop H} {m : Machine H} {k : Enclosure H}
    (h : loop.At k.outer) (hm : m.WellNested)
    (hlasts : k.Lasts m) : ¬loop.At m.activations := by
  cases hlasts with
  | executing calls hcalls hk hholds =>
      refine Loop.At.not_above h hm (calls ++ [.call k.mark k.waiter]) ?_ (by simp)
      rw [hk, List.append_assoc]
      rfl
  | waiting inner r outer next calls hcalls hk hholds =>
      refine Loop.At.not_above h hm
        (inner ++ .switch r outer next :: (calls ++ [.call k.mark k.waiter])) ?_ (by simp)
      rw [hk]
      simp [Enclosure.loop]

end Machine

theorem Position.InForce.holds {s : Position H} {m : Machine H} (h : s.InForce m)
    (hm : m.WellNested) (hloop : s.loop.At m.activations) : s.Holds m.core.proc := by
  rcases h.active_of_at (fun h => h.1) hm hloop with
    ⟨-, hholds⟩ | ⟨k, hat, -, -, -, hlasts⟩
  · exact hholds
  · exact absurd hloop (Machine.Loop.At.not_of_lasts hat hm hlasts)

end ScriptEngine
