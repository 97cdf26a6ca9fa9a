import ScriptEngine.Proofs.Frame.Answer

/-!
# Script errors in protected calls

A script error in a protected call that nothing in the call handles becomes the
result of the call: false and the value of the error.  The call's coroutine may
be suspended and resumed in between.  There is one exception, an answer on its
way that is no length where one is due.
-/

namespace ScriptEngine

variable {H : HostTypes}

namespace ProtectedCall

section

variable [Host H] {s : ProtectedCall H} {m m₀ : Machine H}

/-- The call has begun and has come to one of its ends. -/
def Ended (s : ProtectedCall H) (m : Machine H) : Prop :=
  Machine.Ends s.guard s.loop m ∨ ∃ e, s.Uncallable e m

/-- What a protected call comes to. -/
inductive Concludes (s : ProtectedCall H) (m : Machine H) : Prop where
  /-- The function has returned, and the library's other function gets that. -/
  | returned (v : Value) (o : Outcome) (ho : s.guard.Returns v o)
      (hcontrol : m.control = .loop o ∨ m.control = .settling o)
      (hframes : m.core.proc.frames.items = s.guard.below)
      (hoperands : s.operands <:+ m.core.proc.stack.items)
  /-- A script error that nothing in the call has handled becomes the result. -/
  | answered (e : ScriptError)
      (hcontrol : m.control = .unwinding e [] ∨
        ∃ flags, m.control =
          .loop (.recover e none s.failed flags s.frame.returnAddress))
      (n : Nat) (hn : n ≤ 8)
      (h : s.Gives (.tupled [.boolean false, e.value.toStorable]) (m.after n))
  /-- An error that scripts cannot handle. -/
  | stopped (e : RuntimeError) (he : ∀ s, e ≠ .script s)
      (hcontrol : m.control = .failed e)
  /-- A suspension where none is allowed. -/
  | refused (exit : LoopExit) (hexit : ∀ v, exit ≠ .returned v)
      (hcontrol : m.control = .leaving (.ok exit))
      (h : ∃ waiter, m.next.control =
        .answering waiter (.error (.contract .cannotYield)))
  /-- An answer to an error within the call is no length where one is due. -/
  | escaped (frame : Frame) (v : Value)
      (hcontrol : m.control = .settling (.finish frame v))
      (hpost : frame.handlers.continuation? = some (.post .length))
      (hv : v.toNumber? = none)
      (h : m.next.control = .leaving (.error (.script .lengthNotNumber)))

theorem concludes_of_uncallable {e : ScriptError} (hm : s.Begins m₀)
    (hretains : m₀.core.world.Retains m.core.world)
    (hnesting : m.core.proc.nesting = m₀.core.proc.nesting)
    (h : s.Uncallable e m) : s.Concludes m := by
  obtain ⟨hloop, ⟨flags, hentry, hcontrol⟩, hframes, hoperands⟩ := h
  have hnext : m.next = ⟨m.core, m.activations,
      .calling (.native s.failed) [e.value]
        (.recovered flags s.frame.returnAddress)⟩ :=
    Machine.next_of_loop hcontrol
  obtain ⟨n, hn, hgives⟩ := gives_of_calling (v := e.value) hm hretains hnesting
    hloop hentry hframes hoperands (Or.inr rfl)
  refine .answered e (Or.inr ⟨flags, hcontrol⟩) (1 + n) (by omega) ?_
  rw [Machine.after_add]
  simp only [Machine.after]
  rw [hnext]
  exact hgives

theorem concludes_of_caught {e : ScriptError} {above : List Frame}
    (hm : s.Begins m₀) (hretains : m₀.core.world.Retains m.core.world)
    (hfloor : s.loop.floor ≤ s.guard.below.length)
    (hnesting : m.core.proc.nesting = m₀.core.proc.nesting)
    (hg : m.WellFramed) (hloop : s.loop.At m.activations)
    (hcontrol : m.control = .unwinding e [])
    (hunder : s.guard.Under above m.core.proc)
    (hnone : ∀ f ∈ above, f.handlers.errorHandler? = none) :
    s.Concludes m := by
  obtain ⟨f, hf, hover⟩ := id hunder
  have hseated := hg.seated
  unfold Machine.Seated at hseated
  rw [hcontrol] at hseated
  have hplaced : Machine.Placed s.guard s.loop [] m.activations .failing m.core :=
    ⟨hfloor, by simp [Guard.Spans], hloop, ⟨above, hunder⟩, hseated⟩
  obtain ⟨between, below, hbelow, hlength, hfits⟩ := hplaced.own hover
  have hinner := Machine.inner_of_failing hfits
  have hhandler : f.handlers.errorHandler? = some s.failed := by
    rw [hf.handlers]
    rfl
  have hpath : errorPath (above ++ f :: between) = above ++ [f] := by
    refine Machine.errorPath_eq (fun d hd => ⟨hnone d hd, hinner d hd⟩) ?_
    rw [hhandler]
    rfl
  have hframes : m.core.proc.frames.items = above ++ f :: between ++ below := by
    rw [hover.frames, hbelow, List.append_assoc]
    rfl
  obtain ⟨frames, hitems, hcaught⟩ :=
    Machine.catchError_eq e hframes hlength hpath hhandler
  let caught : Core H := ⟨m.core.world, { m.core.proc with
    frames, stack := m.core.proc.stack.truncate f.base }⟩
  have hstack : caught.proc.stack.items = s.operands := by
    have hbase : f.base = s.operands.length := hf.base
    obtain ⟨temporaries, htemporaries⟩ := hover.operands
    change (m.core.proc.stack.truncate f.base).items = _
    rw [hbase]
    exact items_truncate_append htemporaries.symm
  have hreturn : f.returnAddress = s.frame.returnAddress := hf.returnAddress
  have hnext : m.next = ⟨caught, m.activations,
      .calling (.native s.failed) [e.value]
        (.caught f.flags s.frame.returnAddress)⟩ := by
    rw [Machine.next_of_caught hcontrol, ← hreturn, hcaught]
  have hbeneath : caught.proc.frames.items = s.guard.below :=
    hitems.trans hbelow.symm
  have hworld : m₀.core.world.Retains caught.world := hretains
  obtain ⟨n, hn, hgives⟩ := gives_of_calling (v := e.value) hm hworld hnesting
    hloop hf.entryPoint hbeneath hstack (Or.inl rfl)
  refine .answered e (Or.inl hcontrol) (1 + n) (by omega) ?_
  rw [Machine.after_add]
  simp only [Machine.after]
  rw [hnext]
  exact hgives

theorem next_of_refused {mark : LoopMark} {waiter : Waiter H}
    {rest : List (Activation H)} {exit : LoopExit}
    (h : m.activations = .call mark waiter :: rest)
    (hcontrol : m.control = .leaving (.ok exit))
    (hexit : ∀ v, exit ≠ .returned v) :
    m.next.control = .answering waiter (.error (.contract .cannotYield)) := by
  rw [Machine.next_of_leaving hcontrol, h]
  cases exit with
  | returned v => exact absurd rfl (hexit v)
  | yielded v => rfl
  | forceYielded => rfl

theorem next_of_escaped {frame : Frame} {v : Value}
    (hcontrol : m.control = .settling (.finish frame v))
    (hpost : frame.handlers.continuation? = some (.post .length))
    (hv : v.toNumber? = none) :
    m.next.control = .leaving (.error (.script .lengthNotNumber)) := by
  have hrun : Exec.finish frame v m.core =
      .error (.script .lengthNotNumber) m.core := by
    unfold Exec.finish
    rw [hpost]
    dsimp only
    rw [PostReturn.apply, hv]
    rfl
  rw [Machine.next_of_settling hcontrol]
  exact congrArg Machine.control (Machine.exec_error hrun m.activations)

theorem Ended.concludes (hm : s.Begins m₀)
    (hretains : m₀.core.world.Retains m.core.world)
    (hfloor : s.loop.floor ≤ s.guard.below.length)
    (hg₀ : m₀.WellFramed) (hg : m.WellFramed) (h : s.Ended m) : s.Concludes m := by
  have hstands₀ := hg₀.seated
  unfold Machine.Seated at hstands₀
  obtain ⟨f, native, args, hcontrol₀, -⟩ := hm.invoke
  rw [hcontrol₀] at hstands₀
  have hstands := hg.seated
  unfold Machine.Seated at hstands
  rcases h with h | ⟨e, h⟩
  · cases h with
    | returned v o ho hloop hcontrol hover =>
        exact .returned v o ho hcontrol hover.frames hover.operands
    | caught e above hloop hcontrol hunder hnone =>
        rw [hcontrol] at hstands
        exact concludes_of_caught hm hretains hfloor
          (Machine.Loop.At.nesting_eq hloop hm.loop hstands hstands₀) hg hloop
          hcontrol hunder hnone
    | stopped e he hloop hcontrol => exact .stopped e he hcontrol
    | refused exit mark waiter rest hexit hloop h hcontrol =>
        exact .refused exit hexit hcontrol
          ⟨waiter, next_of_refused h hcontrol hexit⟩
    | escaped frame v hloop hcontrol hpost hv hholds =>
        exact .escaped frame v hcontrol hpost hv
          (next_of_escaped hcontrol hpost hv)
  · obtain ⟨hloop, ⟨flags, hentry, hcontrol⟩, -⟩ := id h
    rw [hcontrol] at hstands
    exact concludes_of_uncallable hm hretains
      (Machine.Loop.At.nesting_eq hloop hm.loop hstands hstands₀) h

/-- What the call comes through until it ends. -/
def During (s : ProtectedCall H) (m₀ m : Machine H) : Prop :=
  Machine.Until s.Ended (m₀.after 3) m

theorem During.leads (h : s.During m₀ m) : m₀.Leads m := by
  have hbegins := Machine.leads_after m₀ 3
  exact hbegins.trans (Machine.Until.leads h)

theorem floor_le (hm : s.Begins m₀) (hg : m₀.WellFramed) :
    s.loop.floor ≤ s.guard.below.length := by
  have hstands := hg.seated
  unfold Machine.Seated at hstands
  obtain ⟨f, native, args, hcontrol, -⟩ := hm.invoke
  rw [hcontrol] at hstands
  obtain ⟨above, below, hitems, hfits, hbase⟩ :=
    (standsOn_iff hm.loop.inLoop).mp hstands
  rw [← hm.loop.frameFloor, hbase.floor]
  have hrooted : Rooted (entries above) := hfits
  have hlength := congrArg List.length (hm.frames.symm.trans hitems)
  have hbelow := s.below_suffix.length_le
  rw [List.length_cons, List.length_append] at hlength
  have hsome : 0 < above.length := by
    rw [List.length_pos_iff]
    rintro rfl
    exact hrooted.ne_nil rfl
  omega

theorem During.lasts [LawfulHost H] (h₀ : m₀.Reachable) (hm : s.Begins m₀)
    (hcontained : ∀ m, s.During m₀ m → m.SelfContained) (h : s.During m₀ m) :
    Machine.InForce s.guard s.loop m ∨ s.Ended m := by
  have hpersists : (s.guard.invariant s.loop).Persists s.Ended :=
    (Machine.persists_over s.guard s.loop).mono fun m h => Or.inl h
  refine LoopInvariant.lasts_until hpersists (h₀.after 3) (hm.after.imp_right Or.inr) ?_ h
  intro m hreach hduring hactive hends
  have hnext := Machine.lasts_active_next hreach.wellNested hreach.wellFramed
    (hcontained m hduring) (floor_le hm h₀.wellFramed) hactive fun hended => hends (Or.inl hended)
  exact hnext.imp_right Or.inl

end

end ProtectedCall

/-- A protected call is in force, its guard on the frames of its processor,
until it concludes: with its function's result, with the value of a script error
that nothing in the call has handled, or by what is no script error.  The one
way out for a script error is an answer that is no length. -/
theorem Machine.Reachable.protects [Host H] [LawfulHost H] {m₀ : Machine H}
    (h₀ : m₀.Reachable) {s : ProtectedCall H} (hm : s.Begins m₀)
    (hcontained : ∀ m, s.During m₀ m → m.SelfContained) {m : Machine H}
    (h : (m₀.after 3).Leads m) :
    Machine.InForce s.guard s.loop m ∧ ¬s.Ended m ∨
      ∃ m₁, s.During m₀ m₁ ∧ s.Concludes m₁ ∧ m₁.Leads m := by
  rcases Machine.Until.cases s.Ended h with
    ⟨huntil, hends⟩ | ⟨m₁, huntil, hended, hleads⟩
  · have hduring : s.During m₀ m := huntil
    exact Or.inl
      ⟨(hduring.lasts h₀ hm hcontained).resolve_right hends, hends⟩
  · have hduring : s.During m₀ m₁ := huntil
    have hreach := hduring.leads.reachable h₀
    exact Or.inr ⟨m₁, hduring,
      hended.concludes hm (hduring.leads.retains h₀)
        (ProtectedCall.floor_le hm h₀.wellFramed) h₀.wellFramed hreach.wellFramed,
      hleads⟩

/-! ## The workbench -/

namespace ProtectedCall

/-- A host with protected calls and errors only, and what it does with them. -/
def withProtection (a : Action Workbench.types NativeOutcome) :
    Action Workbench.types NativeOutcome :=
  .write (fun w => (w.addLibrary "pcall_ok" .protectedOk).2)
    (.write (fun w => (w.addLibrary "pcall_failed" .protectedFailed).2)
      (.write (fun w => (w.addLibrary "pcall" (.pcall ⟨3⟩ ⟨4⟩)).2)
        (.write (fun w => (w.addLibrary "error" .error).2) a)))

/-- The host makes a protected call. -/
def protectedly (args : List Value) : Action Workbench.types NativeOutcome :=
  .call (.native ⟨5⟩) args fun r => (Action.ofResult r).bind Library.one

theorem lawful_protectedly (args : List Value) :
    (withProtection (protectedly args)).Lawful := by
  refine .write (fun w => .addLibrary w _ _) ?_
  refine .write (fun w => .addLibrary w _ _) ?_
  refine .write (fun w => .addLibrary w _ _) ?_
  refine .write (fun w => .addLibrary w _ _) ?_
  refine .call _ _ fun r => ?_
  exact Action.lawful_bind (Action.lawful_ofResult r) Library.lawful_one

def ofHost : ProtectedCall Workbench.types where
  frame :=
    { callee := .native ⟨5⟩, base := 0, returnAddress := 0
      flags := { entryPoint := true } }
  below := []
  operands := []
  ok := ⟨3⟩
  failed := ⟨4⟩
  loop := .nested ⟨0, none, 0, 0⟩
    (.action fun r => (Action.ofResult r).bind Library.one) []

/-- The host protects the call of a function that raises an error. -/
def raising : Machine Workbench.types :=
  Machine.after (.start (.start { modules := ⟨false, false, false⟩ } {})
    (withProtection (protectedly [.native ⟨6⟩, .string "x"]))) 6

theorem begins_raising : ofHost.Begins raising where
  invoke := ⟨⟨5⟩, _, _, rfl, rfl, rfl, rfl⟩
  failed := ⟨_, rfl, rfl⟩
  frames := rfl
  operands := rfl
  loop := .nested _ _ _
  nesting := by decide
  depth := by decide

theorem during_raising {m : Machine Workbench.types}
    (h : ofHost.During raising m) :
    m = raising.after 3 ∨ m = raising.after 4 ∨ m = raising.after 5 ∨
      m = raising.after 6 := by
  unfold During at h
  induction h with
  | start => exact Or.inl rfl
  | next h hends ih =>
      rcases ih with rfl | rfl | rfl | rfl
      · exact Or.inr (Or.inl rfl)
      · exact Or.inr (Or.inr (Or.inl rfl))
      · exact Or.inr (Or.inr (Or.inr rfl))
      · refine absurd (Or.inl ?_) hends
        refine .caught _ [] (.nested _ _ _) rfl ?_ ?_
        · refine ⟨_, ?_, rfl, by simp, List.nil_suffix⟩
          exact ⟨rfl, rfl, rfl, rfl⟩
        · simp
  | again h hends hfinished hw ha ih =>
      rcases ih with rfl | rfl | rfl | rfl <;> cases hfinished

end ProtectedCall

/-- A function raises an error, and that is what its protected call comes to. -/
theorem Machine.protects_raising :
    Machine.InForce ProtectedCall.ofHost.guard ProtectedCall.ofHost.loop
        (ProtectedCall.raising.after 17) ∧
        ¬ProtectedCall.ofHost.Ended (ProtectedCall.raising.after 17) ∨
      ∃ m₁, ProtectedCall.ofHost.During ProtectedCall.raising m₁ ∧
        ProtectedCall.ofHost.Concludes m₁ ∧
        m₁.Leads (ProtectedCall.raising.after 17) := by
  have hreach : ProtectedCall.raising.Reachable :=
    (Machine.leads_after _ 6).reachable
      (.start _ _ (ProtectedCall.lawful_protectedly _))
  refine hreach.protects ProtectedCall.begins_raising (fun m h => ?_)
    (Machine.leads_after (ProtectedCall.raising.after 3) 14)
  intro hcontrol
  rcases ProtectedCall.during_raising h with rfl | rfl | rfl | rfl <;>
    cases hcontrol

namespace ProtectedCall

/-- A function that returns the length of its argument. -/
def lengthOf : Closure where
  chunk :=
    { name := "length"
      code :=
        #[{ op := .beginFunction, num := 1 },
          { op := .bindArgs, symbols? := some [.slot 0 "v"] },
          { op := .load, symbol? := some (.slot 0 "v") },
          { op := .length },
          { op := .ret, num := 1 }] }
  entry := 0
  upvalues := #[]
  upvalueNames := []
  name? := none

/-- The host protects the call of that function on a point whose length is
protected too, and whose call raises an error. -/
def measuring : Machine Workbench.types :=
  .start (.start { modules := ⟨false, false, false⟩ }
      { pointHooks := [("__len", .native ⟨5⟩), ("__call", .native ⟨6⟩)] })
    (withProtection
      (.write (fun w => (w.addUserData (.point 0 0)).2)
        (.write (fun w => (w.addClosure lengthOf).2)
          (protectedly [.function ⟨8⟩, .userData ⟨7⟩]))))

/-- The inner protected call answers false, which is no length, and the error of
that passes the outer one. -/
theorem escapes_measuring :
    ofHost.Begins (measuring.after 8) ∧
      ((Machine.run 33 measuring).bind fun
        | (.ok _, _) => none
        | (.error e, _) => some e) = some (.script .lengthNotNumber) := by
  constructor
  · exact
      { invoke := ⟨⟨5⟩, _, _, rfl, rfl, rfl, rfl⟩
        failed := ⟨_, rfl, rfl⟩
        frames := rfl
        operands := rfl
        loop := .nested _ _ _
        nesting := by decide
        depth := by decide }
  · decide +kernel

end ProtectedCall

end ScriptEngine
