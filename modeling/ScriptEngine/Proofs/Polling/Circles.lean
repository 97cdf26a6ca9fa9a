import ScriptEngine.Proofs.Coroutine.History
import ScriptEngine.Proofs.Frame.Protection
import ScriptEngine.Proofs.Native.Simple

/-!
# Going round without an instruction

A loop looks at the host's request to stop before every instruction, and only
then.  The library's `pairs` asks for the call of its argument's own definition
of it in its own place; where the frame of `pairs` has nothing left to do it
goes, and the next call is made on as many frames as this one.  A definition
that is `pairs` itself is then called again and again, and no instruction comes
in between.
-/

namespace ScriptEngine

/-- A stack that something is pushed on has kept what was below and what is on
top. -/
theorem Stack.eq_of_push_eq {α : Type} {s t : Stack α} {a b : α}
    (h : s.push a = t.push b) : a = b ∧ s = t := by
  have hitems : a :: s.items = b :: t.items := congrArg Stack.items h
  obtain ⟨htop, hrest⟩ := List.cons.inj hitems
  exact ⟨htop, Stack.ext hrest⟩

variable {H : HostTypes} [Host H]

namespace Machine

/-- `pairs` is about to redirect its call to the definition that the argument
has, and its frame has nothing else to do. -/
structure Redirects (m : Machine H) (definition subject : Value) (frame : Frame)
    (rest : Stack Frame) : Prop where
  loop : InLoop m.activations
  control : ∃ f args native nextEntry, m.control = .loop (.invoke f args) ∧
    m.core.world.native? f = some native ∧
    native.body = .library (.pairs nextEntry) ∧ args.get 0 = subject
  definition : m.core.world.hook? subject .pairs = some definition
  frames : m.core.proc.frames = rest.push frame
  idle : frame.handlers.isEmpty = true

/-- Every fourth step `pairs` redirects its call again. -/
def Circles (m : Machine H) : Prop :=
  ∀ k, ∃ definition subject frame rest,
    (m.after (4 * k)).Redirects definition subject frame rest

section

variable {m : Machine H} {definition subject : Value} {frame : Frame}
  {rest : Stack Frame}

/-- A function with nothing left to do asks for a call in its own place. -/
theorem next_replaced {core : Core H} {activations : List (Activation H)}
    (hloop : InLoop activations) (hframes : core.proc.frames = rest.push frame)
    (hidle : frame.handlers.isEmpty = true) (request : TailCallRequest) :
    (⟨core, activations, .running (.done (.tailCall request))⟩ : Machine H).next =
      ⟨{ core with proc := { core.proc with frames := rest } }, activations,
        .loop (.tailCall request
          { entryPoint := frame.flags.entryPoint, tailCall := true }
          frame.returnAddress)⟩ := by
  have hcompleted := Exec.completed_completeNative (.tailCall request) core
  change act core activations (.done (.tailCall request)) = _
  rw [act_done hloop]
  unfold exec
  generalize Exec.completeNative _ core = r at hcompleted
  cases hcompleted with
  | lost outcome hempty =>
      rw [hframes] at hempty
      cases hempty
  | replaced frame' rest' hpush hempty =>
      obtain ⟨rfl, rfl⟩ := Stack.eq_of_push_eq (hframes.symm.trans hpush)
      rfl
  | waits frame' rest' hpush hbusy =>
      obtain ⟨rfl, rfl⟩ := Stack.eq_of_push_eq (hframes.symm.trans hpush)
      rw [hidle] at hbusy
      cases hbusy

/-- The steps in which `pairs` redirects its call. -/
theorem Redirects.steps (h : m.Redirects definition subject frame rest) :
    (∃ a, m.after 1 = ⟨m.core, m.activations, .running a⟩) ∧
      (∃ a, m.after 2 = ⟨m.core, m.activations, .running a⟩) ∧
      m.after 3 = ⟨{ m.core with proc := { m.core.proc with frames := rest } },
        m.activations,
        .loop (.tailCall { function := definition, args := [subject] }
          { entryPoint := frame.flags.entryPoint, tailCall := true }
          frame.returnAddress)⟩ := by
  obtain ⟨core, activations, control⟩ := m
  obtain ⟨f, args, native, nextEntry, rfl, hnative, hbody, rfl⟩ := h.control
  have hfirst : (⟨core, activations, .loop (.invoke f args)⟩ : Machine H).next =
      ⟨core, activations, .running (Library.pairs nextEntry args)⟩ :=
    next_invoke (Core.invoke_of_library args hnative hbody)
  have hsecond : (⟨core, activations, .running (Library.pairs nextEntry args)⟩ :
      Machine H).next = ⟨core, activations,
        .running (.done (.tailCall { function := definition, args := [args.get 0] }))⟩ := by
    have hdefinition := h.definition
    change (⟨core, activations, .running (Action.bind
      (.done (core.world.hook? (args.get 0) .pairs)) _)⟩ : Machine H) = _
    dsimp only at hdefinition
    rw [hdefinition]
    rfl
  have hthird := next_replaced h.loop h.frames h.idle
    { function := definition, args := [args.get 0] }
  simp only [after]
  rw [hfirst, hsecond, hthird]
  exact ⟨⟨_, rfl⟩, ⟨_, rfl⟩, rfl⟩

/-- What is called in its place is called on the frames below. -/
theorem Redirects.after_four (h : m.Redirects definition subject frame rest) :
    m.after 4 =
      exec .loop (Exec.call definition [subject]
          { entryPoint := frame.flags.entryPoint, tailCall := true }
          frame.returnAddress {})
        { m.core with proc := { m.core.proc with frames := rest } }
        m.activations := by
  change (m.after 3).next = _
  rw [h.steps.2.2]
  rfl

/-- No instruction is looked at in the meantime. -/
theorem Redirects.quiet (h : m.Redirects definition subject frame rest) :
    ∀ i < 4, (m.after i).activations = m.activations ∧
      (m.after i).control ≠ .loop .proceed := by
  obtain ⟨⟨a, hfirst⟩, ⟨b, hsecond⟩, hthird⟩ := h.steps
  intro i hi
  match i, hi with
  | 0, _ =>
      obtain ⟨f, args, native, nextEntry, hcontrol, -⟩ := h.control
      refine ⟨rfl, ?_⟩
      change m.control ≠ _
      rw [hcontrol]
      nofun
  | 1, _ =>
      rw [hfirst]
      exact ⟨rfl, nofun⟩
  | 2, _ =>
      rw [hsecond]
      exact ⟨rfl, nofun⟩
  | 3, _ =>
      rw [hthird]
      exact ⟨rfl, nofun⟩

theorem Circles.activations (h : m.Circles) (k : Nat) :
    (m.after (4 * k)).activations = m.activations := by
  induction k with
  | zero => rfl
  | succ k ih =>
      obtain ⟨definition, subject, frame, rest, hredirects⟩ := h k
      have hround : m.after (4 * (k + 1)) = (m.after (4 * k)).after 4 := after_add m _ 4
      rw [hround, hredirects.after_four, exec_activations]
      exact ih

/-- A loop that goes round never looks at an instruction and never ends. -/
theorem Circles.quiet (h : m.Circles) (n : Nat) :
    (m.after n).activations = m.activations ∧
      (m.after n).control ≠ .loop .proceed := by
  obtain ⟨definition, subject, frame, rest, hredirects⟩ := h (n / 4)
  have hquiet := hredirects.quiet (n % 4) (Nat.mod_lt n (by decide))
  rw [← after_add, Nat.div_add_mod] at hquiet
  exact ⟨hquiet.1.trans (h.activations _), hquiet.2⟩

/-- A state that comes again after one round goes round for ever. -/
theorem circles_of_after_four (h : m.Redirects definition subject frame rest)
    (hround : m.after 4 = m) : m.Circles := by
  have hsame (k : Nat) : m.after (4 * k) = m := by
    induction k with
    | zero => rfl
    | succ k ih =>
        have hnext : m.after (4 * (k + 1)) = (m.after (4 * k)).after 4 :=
          after_add m _ 4
        rw [hnext, ih, hround]
  intro k
  rw [hsame]
  exact ⟨definition, subject, frame, rest, h⟩

end

/-! ## `pairs` as the definition of `pairs` -/

/-- The host asks for the end of all execution and then calls `pairs`, the fourth
object, on a table whose definition of it is `pairs`. -/
def calling : Machine HostTypes.alone :=
  .start (.start { modules := ⟨false, false, false⟩ } ())
    (.write (fun w => (w.addLibrary "next" .next).2)
      (.write (fun w => (w.addLibrary "pairs" (.pairs ⟨3⟩)).2)
        (.write (fun w => (w.addTable {}).2)
          (.write (fun w => w.setNamed ⟨5⟩ Operator.pairs.field (.native ⟨4⟩))
            (.write (fun w => (w.addTable { metatable? := some ⟨5⟩ }).2)
              (.write World.cancel
                (.enterMain (.native ⟨4⟩) [.table ⟨6⟩] fun r =>
                  (Action.ofResult r).bind Library.one)))))))

theorem reachable_calling (n : Nat) : (calling.after n).Reachable := by
  refine (leads_after _ n).reachable (.start _ _ ?_)
  have hadd (name : String) (f : LibraryFunction) (w : World HostTypes.alone) :
      w.Extends (w.addLibrary name f).2 := .addNative w _
  refine .write (hadd _ _) (.write (hadd _ _) (.write (fun w => .addTable w _)
    (.write (fun w => .setNamed w _ _ _) (.write (fun w => .addTable w _)
      (.write World.Extends.cancel ?_)))))
  exact .enterMain _ _ fun r =>
    Action.lawful_bind (Action.lawful_ofResult r) Library.lawful_one

theorem circles_calling : (calling.after 12).Circles := by
  have hredirects : ∃ frame rest, (calling.after 12).Redirects (.native ⟨4⟩)
      (.table ⟨6⟩) frame rest :=
    ⟨_, _,
      { loop := .call _ _ _
        control := ⟨_, _, _, _, rfl, rfl, rfl, rfl⟩
        definition := rfl
        frames := Stack.pop?_eq_some_iff.mp rfl
        idle := rfl }⟩
  obtain ⟨frame, rest, h⟩ := hredirects
  exact circles_of_after_four h rfl

/-- The host has asked for the end of all execution, and a loop that runs nothing
but the library neither looks at that again nor ends. -/
theorem never_polls :
    (calling.after 12).Reachable ∧
      (calling.after 12).core.world.cancelled = true ∧
      ∀ n, ((calling.after 12).after n).activations ≠ [] ∧
        ((calling.after 12).after n).control ≠ .loop .proceed := by
  refine ⟨reachable_calling 12, rfl, fun n => ?_⟩
  have hquiet := circles_calling.quiet n
  rw [hquiet.1]
  exact ⟨List.cons_ne_nil _ _, hquiet.2⟩

end Machine

end ScriptEngine
