import ScriptEngine.Proofs.Error.Passage
import ScriptEngine.Proofs.Frame.Limits

/-!
# Attempts

A script attempts a call through one of the library's functions for protected
calls, with or without a function that sees an error first.  An error that the call
fails with is shown to that function once, while all frames of the call are still
there, and what it returns takes the place of the error's value.  A number does not
come through that unchanged: it leaves its text.
-/

namespace ScriptEngine

variable {H : HostTypes}

/-! ## Values in the place of an error's value -/

/-- What an error keeps of a value that is put in the place of its own. -/
def Value.asMessage : Value → Value
  | .number n => .string (Numeral.render n)
  | v => v

theorem ScriptError.toStorable_value_replaceValue (e : ScriptError) (v : Value) :
    (e.replaceValue v.toStorable).value.toStorable = v.toStorable.asMessage := by
  have hsingle := v.toStorable_ne_tuple
  have hstorable := v.toStorable_toStorable
  generalize v.toStorable = w at hsingle hstorable
  cases w with
  | tuple items => exact absurd rfl (hsingle items)
  | void => cases hstorable
  | _ => rfl

/-! ## Ends of calls -/

/-- The frame has been taken off, and this result goes to whoever waits for it. -/
def Machine.Finishes [Host H] (loop : Loop H) (f : Frame) (below : List Frame)
    (v : Value) (m : Machine H) : Prop :=
  ∃ core activations route, loop.At activations ∧ core.proc.frames.items = below ∧
    m = Machine.exec route (Exec.finish f v) core activations

/-- A call that a script attempts. -/
structure Attempt (H : HostTypes) where
  function : Value
  args : List Value
  /-- Sees an error of the call first. -/
  observer? : Option Value
  /-- The frame of the library's function. -/
  frame : Frame
  below : List Frame
  ok : NativeRef
  failed : NativeRef
  loop : Loop H

namespace Attempt

/-- The attempt as a protected call above these operands. -/
def call (s : Attempt H) (operands : List Value) : ProtectedCall H where
  frame := s.frame
  below := s.below
  operands := operands
  ok := s.ok
  failed := s.failed
  loop := s.loop

/-- The frames that the function is called on. -/
def under (s : Attempt H) : List Frame := (s.call []).guard.below

/-- Whether the function's result ends the loop. -/
def entryPoint (s : Attempt H) : Bool := (s.call []).guard.frame.flags.entryPoint

def request (s : Attempt H) : TailCallRequest where
  function := s.function
  args := s.args
  continuation? := some s.ok
  errorHandler? := some s.failed
  beforeUnwind? := s.observer?

/-- The functions of the library that make the attempt, given these arguments. -/
inductive MadeBy (s : Attempt H) (args : Arguments) : LibraryFunction → Prop where
  | pcall (hvalue : (args.get 0).isVoid = false) (hfunction : args.get 0 = s.function)
      (hargs : args.rest 1 = s.args) (hobserver : s.observer? = none) :
      MadeBy s args (.pcall s.ok s.failed)
  | xpcall (observer : Value)
      (htype : args.asType 1 "xpcall" .function false = .ok observer)
      (hfunction : args.get 0 = s.function) (hargs : args.rest 2 = s.args)
      (hobserver : s.observer? = some observer) : MadeBy s args (.xpcall s.ok s.failed)

/-- The library's function is about to be run. -/
structure Begins [Host H] (s : Attempt H) (m : Machine H) : Prop where
  invoke : ∃ f native library args, m.control = .loop (.invoke f args) ∧
    m.core.world.native? f = some native ∧ native.body = .library library ∧
    s.MadeBy args library
  ok : ∃ native, m.core.world.native? s.ok = some native ∧
    native.body = .library .protectedOk
  failed : ∃ native, m.core.world.native? s.failed = some native ∧
    native.body = .library .protectedFailed
  frames : m.core.proc.frames.items = s.frame :: s.below
  loop : s.loop.At m.activations

/-- The frame that the function runs in. -/
structure Runs (s : Attempt H) (f : Frame) : Prop where
  handlers : f.handlers =
    { continuation? := some (.native s.ok), errorHandler? := some s.failed
      beforeUnwind? := s.observer? }
  returnAddress : f.returnAddress = s.frame.returnAddress
  entryPoint : f.flags.entryPoint = s.entryPoint

/-- The call fails with an error, and no frame of it is gone yet. -/
inductive Fails (s : Attempt H) (e : ScriptError) (m : Machine H) : Prop where
  /-- The error was raised, and from there on no frame deals with it or looks at it
  before the function's own. -/
  | raised (raised : ScriptError) (above : List Frame) (f : Frame)
      (hloop : s.loop.At m.activations)
      (hcontrol : m.control = .failed (.script raised))
      (herror : e = m.core.proc.located m.core.world (frameFloor m.activations) raised)
      (hframes : m.core.proc.frames.items = above ++ f :: s.under)
      (hpath : errorPath (m.core.proc.frames.above (frameFloor m.activations)) =
        above ++ [f])
      (hunseen : ∀ d ∈ above, d.handlers.beforeUnwind? = none) (hf : s.Runs f)
  /-- The function could not be called at all. -/
  | refused (flags : FrameFlags) (hloop : s.loop.At m.activations)
      (hcontrol : m.control =
        .loop (.recover e s.observer? s.failed flags s.frame.returnAddress))
      (hframes : m.core.proc.frames.items = s.under)
      (hentry : flags.entryPoint = s.entryPoint)

/-- The function has returned. -/
def Returns [Host H] (s : Attempt H) (v : Value) (m : Machine H) : Prop :=
  ∃ f, s.Runs f ∧ Machine.Finishes s.loop f s.under v m

/-- The attempt has this result. -/
def Gives [Host H] (s : Attempt H) (v : Value) (m : Machine H) : Prop :=
  Machine.Finishes s.loop s.frame s.below v m

/-- Without any other call of a function but the library's own the attempt comes to
this result. -/
def Settles [Host H] (s : Attempt H) (v : Value) (m : Machine H) : Prop :=
  ∃ n ≤ 9, m.CallsOnly s.failed n ∧ s.Gives v (m.after n)

/-- What a protected call is to recover from when the attempt fails. -/
def recovery (s : Attempt H) (e : ScriptError) (flags : FrameFlags) : Recovery where
  error := e
  decorator? := s.observer?
  handler := s.failed
  flags := flags
  returnAddress := s.frame.returnAddress
  below := s.under

section

variable {s : Attempt H} {e : ScriptError} {m m' : Machine H}

theorem gives_of_call [Host H] {operands : List Value} {v : Value}
    (h : (s.call operands).Gives v m) : s.Gives v m := by
  obtain ⟨core, activations, route, hloop, hframes, -, hm⟩ := h
  exact ⟨core, activations, route, hloop, hframes, hm⟩

/-! ## The function is called -/

theorem MadeBy.action [HostObjects H] {args : Arguments} {library : LibraryFunction}
    (h : s.MadeBy args library) (info : CallInfo) :
    (library.action info args : Action H NativeOutcome) =
      .done (.tailCall s.request) := by
  cases h with
  | pcall hvalue hfunction hargs hobserver =>
      change Library.pcall s.ok s.failed args = _
      unfold Library.pcall request
      rw [hvalue, hfunction, hargs, hobserver]
      rfl
  | xpcall observer htype hfunction hargs hobserver =>
      change Library.xpcall s.ok s.failed args = _
      unfold Library.xpcall request
      rw [htype, hfunction, hargs, hobserver]
      rfl

/-- After three steps the function has a frame of its own, for which there was room,
or the attempt has failed. -/
theorem Begins.starts [Host H] (h : s.Begins m) :
    (∃ f, s.Runs f ∧ s.loop.At (m.after 3).activations ∧
      (m.after 3).core.proc.frames.items = f :: s.under ∧
      s.under.length < m.core.world.settings.maxCallDepth) ∨
        ∃ e, s.Fails e (m.after 3) := by
  obtain ⟨f, native, library, args, hcontrol, hnative, hbody, hmade⟩ := h.invoke
  have hframes := h.frames
  have hloop := h.loop
  obtain ⟨core, activations, control⟩ := m
  dsimp only at hcontrol hnative hframes hloop
  subst hcontrol
  have haction : core.invoke f args = .done (.tailCall s.request) :=
    (Core.invoke_of_library args hnative hbody).trans (hmade.action _)
  obtain ⟨flags, frames, hentry, hitems, hafter⟩ :=
    ProtectedCall.after_invoke (s := s.call []) haction hloop hframes
  rw [hafter]
  have hpushed {p : Processor} {o : Outcome} {f : Frame} (hf : s.Runs f)
      (hp : p.frames.items = f :: frames.items)
      (hdepth : frames.height < core.world.settings.maxCallDepth) :
      (∃ f, s.Runs f ∧ s.loop.At activations ∧ p.frames.items = f :: s.under ∧
        s.under.length < core.world.settings.maxCallDepth) ∨
          ∃ e, s.Fails e ⟨⟨core.world, p⟩, activations, .loop o⟩ := by
    rw [frames.height_eq, hitems] at hdepth
    exact Or.inl ⟨f, hf, hloop, hp.trans (congrArg (f :: ·) hitems), hdepth⟩
  have hcalled := Exec.called_call s.function s.args flags s.frame.returnAddress
    { continuation? := some (.native s.ok), errorHandler? := some s.failed
      beforeUnwind? := s.observer? }
    (⟨core.world, { core.proc with frames }⟩ : Core H)
  unfold Machine.exec
  change Exec.Called _ _ _ _ (Exec.callRequest s.request flags _ _) at hcalled
  dsimp only [call]
  generalize Exec.callRequest s.request flags s.frame.returnAddress
    (⟨core.world, { core.proc with frames }⟩ : Core H) = r at hcalled ⊢
  cases hcalled with
  | failed e hnone => cases hnone
  | recovered e handler hhandler =>
      cases hhandler
      exact Or.inr ⟨e, .refused flags hloop rfl hitems hentry⟩
  | entered d dargs hdepth =>
      refine hpushed ?_ rfl hdepth
      exact ⟨rfl, rfl, hentry⟩
  | invoked d dargs hdepth =>
      refine hpushed ?_ rfl hdepth
      exact ⟨rfl, rfl, hentry⟩

/-! ## The function fails -/

theorem Fails.atLoop (h : s.Fails e m) : s.loop.At m.activations := by
  cases h with
  | raised _ _ _ hloop => exact hloop
  | refused _ hloop => exact hloop

/-- The error is there for the handlers of the attempt to deal with. -/
theorem Fails.due (h : s.Fails e m) :
    ∃ flags, flags.entryPoint = s.entryPoint ∧ (s.recovery e flags).Due m := by
  cases h with
  | raised raised above f hloop hcontrol herror hframes hpath hunseen hf =>
      refine ⟨f.flags, hf.entryPoint, .raised raised f hcontrol herror ?_ ?_ rfl
        hf.returnAddress ?_⟩
      · have habove : above.filterMap (·.handlers.beforeUnwind?) = [] :=
          List.filterMap_eq_nil_iff.mpr hunseen
        unfold Processor.decorators
        rw [hpath, List.filterMap_append, habove, List.nil_append]
        have hobserver : f.handlers.beforeUnwind? = s.observer? := by
          rw [hf.handlers]
        simp only [List.filterMap_cons, hobserver, List.filterMap_nil]
        change _ = s.observer?.toList
        cases s.observer? <;> rfl
      · have hhandler : f.handlers.errorHandler? = some s.failed := by
          rw [hf.handlers]
        unfold Processor.dropErrorPath
        rw [hpath]
        simp [hhandler, recovery]
      · unfold Processor.dropErrorPath
        have hheight : m.core.proc.frames.height -
            (m.core.proc.frames.height - (above ++ [f]).length) = above.length + 1 := by
          rw [Stack.height_eq, hframes]
          simp only [List.length_append, List.length_cons, List.length_nil]
          omega
        rw [hpath, Stack.items_truncate, hheight, hframes, List.append_cons]
        exact List.drop_left' (by simp)
  | refused flags hloop hcontrol hframes hentry =>
      exact ⟨flags, hentry, .refused hcontrol hframes⟩

/-- The library's handler is called, and its answer becomes the result. -/
theorem settles_of_asks [Host H] {flags : FrameFlags} {v : Value} {native : Native H}
    (hloop : s.loop.At m.activations) (hentry : flags.entryPoint = s.entryPoint)
    (hnative : m.core.world.native? s.failed = some native)
    (hbody : native.body = .library .protectedFailed)
    (hroom : m.HasRoom s.under.length) {k : Nat} (hk : k ≤ 2)
    (hcalls : m'.CallsOnly s.failed k)
    (hasks : (s.recovery e flags).Asks v m (m'.after k)) :
    s.Settles (.tupled [.boolean false, v.toStorable]) m' := by
  obtain ⟨hquiet, hanswers⟩ := hasks.answers hnative hbody hroom
  rw [← Machine.after_add] at hanswers
  have hfive := hcalls.add hquiet
  obtain ⟨waiter, hawaits, hcontrol⟩ := hanswers.control
  have hframes := hanswers.frames
  have hactivations := hanswers.activations
  have hwaiter : waiter = .caught flags s.frame.returnAddress ∨
      waiter = .recovered flags s.frame.returnAddress := by
    cases hawaits
    · exact Or.inl rfl
    · exact Or.inr rfl
  suffices hends : ∃ n ≤ 2, (m'.after (k + 5)).CallsOnly s.failed n ∧
      s.Gives (.tupled [.boolean false, v.toStorable]) ((m'.after (k + 5)).after n) by
    obtain ⟨n, hn, hlast, hgives⟩ := hends
    refine ⟨k + 5 + n, by omega, hfive.add hlast, ?_⟩
    rw [Machine.after_add]
    exact hgives
  generalize m'.after (k + 5) = answering at hcontrol hframes hactivations ⊢
  obtain ⟨core, activations, control⟩ := answering
  dsimp only at hcontrol hactivations
  subst hcontrol hactivations
  obtain ⟨n, hn, hlast, hgives⟩ := ProtectedCall.gives_of_answering
    (s := s.call core.proc.stack.items) (v := .tupled [.boolean false, v.toStorable])
    hloop hentry hframes rfl hwaiter
  exact ⟨n, hn, hlast, gives_of_call hgives⟩

end

end Attempt

/-- When the call of an attempt fails and there is room for one more call above all
frames, the attempt's result is false and the value of the error.  A function that
is to see the error first is called with its value before any frame of the call has
gone.  If it returns then nothing is called any more but the library's handler, and
the first value that it returned takes the place of the error's: the same value
unless that is a number, of which the text is left. -/
theorem Machine.Reachable.showsFailure [Host H] [LawfulHost H] {m₀ m : Machine H}
    (h₀ : m₀.Reachable) {s : Attempt H} (hm : s.Begins m₀) (h : m₀.Leads m)
    {e : ScriptError} (hfails : s.Fails e m)
    (hroom : m.HasRoom m.core.proc.frames.height) :
    (s.observer? = none → s.Settles (.tupled [.boolean false, e.value.toStorable]) m) ∧
      ∀ observer, s.observer? = some observer → ∃ i ≤ 2, ∃ waiter,
        m.after i = ⟨m.core, m.activations, .calling observer [e.value] waiter⟩ ∧
        ∀ n, (∀ j ≤ n, (m.after i).WithinCall waiter ((m.after i).after (j + 1))) ∨
          ∃ j ≤ n, ∃ result,
            ((m.after i).after (j + 1)).control = .answering waiter result ∧
              ∀ v, result = .ok v →
                s.Settles (.tupled [.boolean false, v.toStorable.asMessage])
                  ((m.after i).after (j + 1)) := by
  have hreach := h.reachable h₀
  obtain ⟨flags, hentry, hdue⟩ := hfails.due
  obtain ⟨native, hnative₀, hbody⟩ := hm.failed
  have hnative := (h.retains h₀).native? _ _ hnative₀
  have hbeneath : m.HasRoom s.under.length :=
    ⟨hroom.1, Nat.lt_of_le_of_lt hdue.below_le hroom.2⟩
  refine ⟨fun hnone => ?_, fun observer hsome => ?_⟩
  · obtain ⟨k, hk, hcalls, hasks⟩ := hdue.asks hnone
    exact Attempt.settles_of_asks hfails.atLoop hentry hnative hbody hbeneath hk hcalls
      hasks
  · obtain ⟨i, hi, waiter, hcalling, hback⟩ := hdue.shows hsome
    refine ⟨i, hi, waiter, hcalling, fun n => ?_⟩
    have hcontrol : (m.after i).control = .calling observer [e.value] waiter := by
      rw [hcalling]
      rfl
    have hown : (m.after i).core.proc.canYield = true →
        (m.after i).core.proc.nesting ≠ 0 := by
      have hloop := Machine.nesting_ne_of_due hreach hdue
      rw [hcalling]
      exact fun _ => hloop
    rcases (hreach.after i).regains hcontrol hown n with hwithin | ⟨j, hj, result, hregains⟩
    · exact Or.inl hwithin
    · right
      refine ⟨j, hj, result, hregains.control, ?_⟩
      rintro v rfl
      rw [hcalling] at hregains ⊢
      obtain ⟨k, hk, hcalls, hasks⟩ := hback _ (.ok v) ⟨hregains.activations,
        hregains.world, hregains.nesting, hregains.frames, hregains.control⟩
      have hsettles := Attempt.settles_of_asks hfails.atLoop hentry hnative hbody
        hbeneath hk hcalls hasks
      rw [← e.toStorable_value_replaceValue v]
      exact hsettles

/-! ## Attempts of a host -/

namespace Attempt

/-- A function that calls its first argument with the second. -/
def relay : Closure where
  chunk :=
    { name := "relay"
      code :=
        #[{ op := .beginFunction, num := 2 },
          { op := .bindArgs, symbols? := some [.slot 0 "f", .slot 1 "x"] },
          { op := .load, symbol? := some (.slot 0 "f") },
          { op := .load, symbol? := some (.slot 1 "x") },
          { op := .call, num := 1 },
          { op := .ret, num := 1 }] }
  entry := 0
  upvalues := #[]
  upvalueNames := []
  name? := none

/-- The host attempts a call of that function: `pcall` is the fifth object, `xpcall`
the sixth, `error` the seventh and `assert` the ninth. -/
def attempting (library : NativeRef) (args : List Value) : Machine HostTypes.alone :=
  .start (.start { modules := ⟨false, false, false⟩ } ())
    (Machine.prepared
      (.write (fun w => (w.addLibrary "assert" .assert).2)
        (.write (fun w => (w.addClosure relay).2)
          (.call (.native library) args fun r =>
            (Action.ofResult r).bind Library.one))))

theorem reachable_attempting (library : NativeRef) (args : List Value) (n : Nat) :
    ((attempting library args).after n).Reachable := by
  refine (Machine.leads_after _ n).reachable (.start _ _ ?_)
  have hadd (name : String) (f : LibraryFunction) (w : World HostTypes.alone) :
      w.Extends (w.addLibrary name f).2 := .addNative w _
  refine .write (hadd _ _) (.write (hadd _ _) (.write (hadd _ _) (.write (hadd _ _)
    (.write (hadd _ _) (.write (hadd _ _) (.write (hadd _ _) (.write (fun w => ?_) ?_)))))))
  · exact .addClosure w _
  · exact .call _ _ fun r =>
      Action.lawful_bind (Action.lawful_ofResult r) Library.lawful_one

/-- The function is to raise the number 5, and `assert` returns what it sees. -/
def raisingFive : Attempt HostTypes.alone where
  function := .function ⟨10⟩
  args := [.native ⟨7⟩, .number 5]
  observer? := some (.native ⟨9⟩)
  frame :=
    { callee := .native ⟨6⟩, base := 0, returnAddress := 0
      flags := { entryPoint := true } }
  below := []
  ok := ⟨3⟩
  failed := ⟨4⟩
  loop := .nested ⟨0, none, 0, 0⟩
    (.action fun r => (Action.ofResult r).bind Library.one) []

def raising : Machine HostTypes.alone :=
  attempting ⟨6⟩ [.function ⟨10⟩, .native ⟨9⟩, .native ⟨7⟩, .number 5]

theorem begins_raising : raisingFive.Begins (raising.after 10) where
  invoke := ⟨⟨6⟩, _, _, _, rfl, rfl, rfl, .xpcall _ rfl rfl rfl rfl⟩
  ok := ⟨_, rfl, rfl⟩
  failed := ⟨_, rfl, rfl⟩
  frames := rfl
  loop := .nested _ _ _

-- `relay` has bound its parameters, which no plain `rfl` sees through.
theorem fails_raising :
    ∃ e, raisingFive.Fails e (raising.after 20) ∧ e.value = .number 5 := by
  with_unfolding_all
    refine ⟨_, .raised (.user (.number 5)) [_] _ (.nested _ _ _) rfl rfl rfl rfl ?_ ?_,
      rfl⟩
    · exact List.forall_mem_singleton.mpr rfl
    · exact ⟨rfl, rfl, rfl⟩

end Attempt

/-- `assert` sees the 5 that `error` raises, above the frames of both functions. -/
theorem Machine.showsFailure_raising :
    ∃ e, Attempt.raisingFive.Fails e (Attempt.raising.after 20) ∧ e.value = .number 5 ∧
      ∃ i ≤ 2, ∃ waiter, (Attempt.raising.after 20).after i =
        ⟨(Attempt.raising.after 20).core, (Attempt.raising.after 20).activations,
          .calling (.native ⟨9⟩) [e.value] waiter⟩ := by
  have hreach : (Attempt.raising.after 10).Reachable :=
    Attempt.reachable_attempting _ _ 10
  have hroom : (Attempt.raising.after 20).HasRoom
      (Attempt.raising.after 20).core.proc.frames.height := by
    constructor <;> decide +kernel
  have hleads : (Attempt.raising.after 10).Leads (Attempt.raising.after 20) :=
    Machine.leads_after _ 10
  obtain ⟨e, hfails, hvalue⟩ := Attempt.fails_raising
  obtain ⟨i, hi, waiter, hcalling, -⟩ :=
    (hreach.showsFailure Attempt.begins_raising hleads hfails hroom).2 _ rfl
  exact ⟨e, hfails, hvalue, i, hi, waiter, hcalling⟩

/-- `assert` returns the number that it is shown, and the attempt's result is the
number's text; without `assert` it is the number. -/
theorem Attempt.changes_number :
    ((Machine.run 41 raising).bind fun
        | (.ok v, _) => some v
        | (.error _, _) => none) = some (.tuple [.boolean false, .string "5"]) ∧
      ((Machine.run 41 (attempting ⟨5⟩ [.function ⟨10⟩, .native ⟨7⟩, .number 5])).bind fun
        | (.ok v, _) => some v
        | (.error _, _) => none) = some (.tuple [.boolean false, .number 5]) := by
  constructor <;> decide +kernel

end ScriptEngine
