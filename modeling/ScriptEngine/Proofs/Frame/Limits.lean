import ScriptEngine.Proofs.Frame.Containment
import ScriptEngine.Proofs.Frame.Restoration

/-!
# Protected calls at the limits

What answers an error for a protected call is called like any function, and so is
what sees the error first.  In the innermost loop that the settings allow neither
can be called: a stack overflow takes the place of the error and passes the
protected call.  Above as many frames as the settings allow only the answer can be
called, and the error that it answers is not the one that was raised.
-/

namespace ScriptEngine

variable {H : HostTypes}

/-- One more call may be nested, above this many frames. -/
def Machine.HasRoom (m : Machine H) (height : Nat) : Prop :=
  m.core.proc.nesting < m.core.world.settings.maxNativeNesting ∧
    height < m.core.world.settings.maxCallDepth

theorem Machine.full_of_not_hasRoom {m : Machine H} {height : Nat}
    (h : ¬m.HasRoom height) :
    m.core.world.settings.maxNativeNesting ≤ m.core.proc.nesting ∨
      m.core.world.settings.maxCallDepth ≤ height := by
  unfold HasRoom at h
  omega

/-- A nested call has this result, and the frames of its processor are as before. -/
structure Machine.Regains (m : Machine H) (waiter : Waiter H)
    (result : Except RuntimeError Value) (m' : Machine H) : Prop where
  activations : m'.activations = m.activations
  world : m.core.world.Retains m'.core.world
  nesting : m'.core.proc.nesting = m.core.proc.nesting
  frames : m'.core.proc.frames = m.core.proc.frames
  control : m'.control = .answering waiter result

/-- A script error that a protected call is to recover from. -/
structure Recovery where
  error : ScriptError
  /-- Sees the error first. -/
  decorator? : Option Value
  handler : NativeRef
  flags : FrameFlags
  returnAddress : Nat
  /-- The frames below that of the protected call. -/
  below : List Frame

namespace Recovery

variable {s : Recovery} {v : Value} {m m' : Machine H} {core : Core H}
  {activations : List (Activation H)} {waiter : Waiter H}

/-- The error is there and has not been dealt with. -/
inductive Due (s : Recovery) (m : Machine H) : Prop where
  /-- It was raised in the call, and nothing above the call's frame handles it. -/
  | raised (e : ScriptError) (f : Frame) (hcontrol : m.control = .failed (.script e))
      (herror : s.error =
        m.core.proc.located m.core.world (frameFloor m.activations) e)
      (hdecorators : m.core.proc.decorators (frameFloor m.activations) =
        s.decorator?.toList)
      (hhandler : (m.core.proc.dropErrorPath (frameFloor m.activations)).1 =
        some (f, s.handler))
      (hflags : f.flags = s.flags) (hreturn : f.returnAddress = s.returnAddress)
      (hbelow : (m.core.proc.dropErrorPath
        (frameFloor m.activations)).2.frames.items = s.below)
  /-- The function of the call could not be called at all. -/
  | refused
      (hcontrol : m.control = .loop
        (.recover s.error s.decorator? s.handler s.flags s.returnAddress))
      (hbelow : m.core.proc.frames.items = s.below)

/-- What waits for the handler's answer. -/
inductive Awaits (s : Recovery) : Waiter H → Prop where
  | caught : Awaits s (.caught s.flags s.returnAddress)
  | recovered : Awaits s (.recovered s.flags s.returnAddress)

/-- The handler is called with this value. -/
structure Asks (s : Recovery) (v : Value) (m m' : Machine H) : Prop where
  activations : m'.activations = m.activations
  world : m.core.world.Retains m'.core.world
  nesting : m'.core.proc.nesting = m.core.proc.nesting
  frames : m'.core.proc.frames.items = s.below
  control : ∃ waiter, s.Awaits waiter ∧
    m'.control = .calling (.native s.handler) [v] waiter

/-- The result of the protected call is there: false and this value. -/
structure Answers (s : Recovery) (v : Value) (m m' : Machine H) : Prop where
  activations : m'.activations = m.activations
  frames : m'.core.proc.frames.items = s.below
  control : ∃ waiter, s.Awaits waiter ∧
    m'.control = .answering waiter (.ok (.tupled [.boolean false, v.toStorable]))

/-- A stack overflow has taken the place of the error and has passed the call. -/
structure Overflows (s : Recovery) (m m' : Machine H) : Prop where
  activations : m'.activations = m.activations
  frames : m'.core.proc.frames.items = s.below
  control : ∃ location?, m'.control =
    .failed (.script (ScriptError.stackOverflow.withLocation location?))

end Recovery

/-! ## Calls that are refused -/

section

variable {α : Type}

theorem Stack.truncate_height (s : Stack α) : s.truncate s.height = s :=
  truncate_pushAll s []

theorem Stack.above_height (s : Stack α) : s.above s.height = [] := by
  unfold above
  rw [Nat.sub_self, List.take_zero]

end

namespace Processor

variable (p : Processor)

theorem decorators_height : p.decorators p.frames.height = [] := by
  unfold decorators
  rw [p.frames.above_height]
  rfl

theorem dropErrorPath_height : p.dropErrorPath p.frames.height = (none, p) := by
  unfold dropErrorPath
  rw [p.frames.above_height]
  change (none, { p with frames := p.frames.truncate (p.frames.height - 0) }) = _
  rw [Nat.sub_zero, p.frames.truncate_height]

theorem located_height_stackOverflow (w : World H) :
    p.located w p.frames.height .stackOverflow =
      ScriptError.stackOverflow.withLocation p.location? := by
  unfold located
  rw [p.frames.above_height]
  rfl

end Processor

namespace Machine

section

variable [Host H] {core : Core H} (activations : List (Activation H))
  (waiter : Waiter H)

/-- A loop that has failed before it had a frame ends with the error. -/
theorem after_failed_bare (e : ScriptError) :
    after ⟨core.nested, .call core.proc.mark waiter :: activations, .failed (.script e)⟩ 3 =
      ⟨core, activations, .answering waiter (.error (.script
        (core.nested.proc.located core.world core.nested.proc.frames.height e)))⟩ := by
  let nested := Activation.call core.proc.mark waiter :: activations
  let located := core.nested.proc.located core.world core.nested.proc.frames.height e
  have hfailed : (⟨core.nested, nested, .failed (.script e)⟩ : Machine H).next =
      ⟨core.nested, nested, .unwinding located []⟩ := by
    change (⟨core.nested, nested, .unwinding located
      (core.nested.proc.decorators core.nested.proc.frames.height)⟩ : Machine H) = _
    rw [core.nested.proc.decorators_height]
  have hpassed : (⟨core.nested, nested, .unwinding located []⟩ : Machine H).next =
      ⟨core.nested, nested, .leaving (.error (.script located))⟩ :=
    catchError_of_uncaught core.nested core.nested.proc.dropErrorPath_height
  have hended : (⟨core.nested, nested, .leaving (.error (.script located))⟩ :
      Machine H).next = ⟨core, activations, .answering waiter (.error (.script located))⟩ := by
    change (⟨⟨core.world, { core.proc with
      nesting := core.proc.nesting + 1 - 1
      frames := core.proc.frames.truncate core.proc.frames.height
      stack := core.proc.stack.truncate core.proc.stack.height }⟩,
      activations, .answering waiter (.error (.script located))⟩ : Machine H) = _
    rw [core.proc.frames.truncate_height, core.proc.stack.truncate_height, Nat.add_sub_cancel]
  simp only [after]
  rw [hfailed, hpassed, hended]

/-- Where no frame fits, a call fails, and one of a host function for that reason. -/
theorem exec_call_full {c : Core H} {flags : FrameFlags} (function : Value) (args : List Value)
    (returnAddress : Nat) (hfull : c.world.settings.maxCallDepth ≤ c.proc.frames.height) :
    ∃ e, exec .loop (Exec.call function args flags returnAddress {}) c activations =
        ⟨c, activations, .failed (.script e)⟩ ∧
      ∀ f, function = .native f → e = .stackOverflow := by
  unfold exec
  rw [Exec.call, Exec.run_bind_of_ok (Exec.ask_run _ c)]
  cases hcallee : c.world.callee maxCallHops function.toScalar (flattenArgs args) with
  | error v =>
      refine ⟨_, rfl, ?_⟩
      rintro f rfl
      cases hcallee
  | ok resolved =>
      refine ⟨.stackOverflow, ?_, fun _ _ => rfl⟩
      dsimp only
      rw [Exec.enter, Exec.run_bind_of_ok (Exec.askProc_run _ c),
        Exec.run_bind_of_ok (Exec.ask_run _ c), if_pos hfull]
      rfl

/-- A call that finds no room comes to nothing but an error. -/
theorem after_calling_refused (function : Value) (args : List Value)
    (hfull : core.world.settings.maxNativeNesting ≤ core.proc.nesting ∨
      core.world.settings.maxCallDepth ≤ core.proc.frames.height) :
    ∃ n ≤ 4, ∃ e, after ⟨core, activations, .calling function args waiter⟩ n =
        ⟨core, activations, .answering waiter (.error (.script e))⟩ ∧
      (∀ f, function = .native f →
        ∃ location?, e = ScriptError.stackOverflow.withLocation location?) := by
  by_cases hcrowded : core.world.settings.maxNativeNesting ≤ core.proc.nesting
  · exact ⟨1, by omega, _, next_of_crowded rfl hcrowded,
      fun _ _ => ⟨none, rfl⟩⟩
  · have hdeep := hfull.resolve_left hcrowded
    obtain ⟨e, hrun, hnative⟩ := exec_call_full (c := core.nested)
      (.call core.proc.mark waiter :: activations) function args core.proc.ip hdeep
    have hbegin : (⟨core, activations, .calling function args waiter⟩ :
        Machine H).next = ⟨core.nested, .call core.proc.mark waiter :: activations,
          .failed (.script e)⟩ :=
      (beginCall_of_room core (Nat.lt_of_not_le hcrowded)).trans hrun
    refine ⟨4, Nat.le_refl 4, core.nested.proc.located core.world
      core.nested.proc.frames.height e, ?_, fun f hf => ?_⟩
    · rw [← after_next, hbegin]
      exact after_failed_bare activations waiter e
    · rw [hnative f hf, Processor.located_height_stackOverflow]
      exact ⟨_, rfl⟩

end

end Machine

namespace Recovery

variable [Host H] {s : Recovery} {v : Value} {m m' : Machine H} {native : Native H}

/-- The frames that the error passes go, and the handler is called. -/
theorem asks_of_caught {core : Core H} {e : ScriptError} {f : Frame}
    (hworld : m.core.world.Retains core.world)
    (hnesting : core.proc.nesting = m.core.proc.nesting)
    (hhandler : (core.proc.dropErrorPath (frameFloor m.activations)).1 =
      some (f, s.handler))
    (hflags : f.flags = s.flags) (hreturn : f.returnAddress = s.returnAddress)
    (hbelow : (core.proc.dropErrorPath (frameFloor m.activations)).2.frames.items =
      s.below) :
    s.Asks e.value m
      (⟨core, m.activations, .unwinding e []⟩ : Machine H).next := by
  have hnext := Machine.catchError_of_caught core (e := e) (Prod.ext hhandler rfl)
  change s.Asks _ _ (Machine.catchError core m.activations e)
  rw [hnext]
  refine ⟨rfl, hworld, hnesting, hbelow, _, .caught, ?_⟩
  dsimp only
  rw [hflags, hreturn]

omit [Host H] in
theorem Asks.hasRoom_iff (h : s.Asks v m m') :
    m'.HasRoom m'.core.proc.frames.height ↔ m.HasRoom s.below.length := by
  unfold Machine.HasRoom
  rw [h.nesting, h.world.settings, m'.core.proc.frames.height_eq, h.frames]

/-- With room for one more call the handler answers. -/
theorem Asks.answers (h : s.Asks v m m')
    (hnative : m.core.world.native? s.handler = some native)
    (hbody : native.body = .library .protectedFailed)
    (hroom : m.HasRoom s.below.length) :
    m'.CallsOnly s.handler 5 ∧ s.Answers v m (m'.after 5) := by
  obtain ⟨hnesting, hdepth⟩ := h.hasRoom_iff.mpr hroom
  obtain ⟨waiter, hawaits, hcontrol⟩ := h.control
  obtain ⟨p, hp, -, hcalls, hafter⟩ := Machine.after_calling_failed m'.activations v
    waiter (h.world.native? _ _ hnative) hbody hnesting hdepth
  rw [Machine.eq_of_control hcontrol]
  refine ⟨hcalls, ?_⟩
  rw [hafter]
  exact ⟨h.activations, hp ▸ h.frames, waiter, hawaits, rfl⟩

/-- Without it the error is another one. -/
theorem Asks.overflows (h : s.Asks v m m')
    (hfull : ¬m.HasRoom s.below.length) :
    ∃ n ≤ 5, s.Overflows m (m'.after n) := by
  have hrefused := Machine.full_of_not_hasRoom
    fun hroom => hfull (h.hasRoom_iff.mp hroom)
  obtain ⟨waiter, hawaits, hcontrol⟩ := h.control
  obtain ⟨n, hn, e, hafter, he⟩ := Machine.after_calling_refused m'.activations waiter
    (.native s.handler) [v] hrefused
  obtain ⟨location?, rfl⟩ := he _ rfl
  refine ⟨n + 1, Nat.succ_le_succ hn, ?_⟩
  rw [Machine.eq_of_control hcontrol, Machine.after_add, hafter]
  cases hawaits <;> exact ⟨h.activations, h.frames, location?, rfl⟩

/-- The handler's call comes to an answer or to another error, depending on the
room there is for it. -/
structure Concludes (s : Recovery) (v : Value) (m m' : Machine H) : Prop where
  answers : m.HasRoom s.below.length → ∃ n ≤ 7, s.Answers v m (m'.after n)
  overflows : ¬m.HasRoom s.below.length → ∃ n ≤ 7, s.Overflows m (m'.after n)

theorem Asks.concludes {k : Nat} (h : s.Asks v m (m'.after k)) (hk : k ≤ 2)
    (hnative : m.core.world.native? s.handler = some native)
    (hbody : native.body = .library .protectedFailed) : s.Concludes v m m' where
  answers hroom := by
    refine ⟨k + 5, by omega, ?_⟩
    rw [Machine.after_add]
    exact (h.answers hnative hbody hroom).2
  overflows hfull := by
    obtain ⟨n, hn, hoverflows⟩ := h.overflows hfull
    refine ⟨k + n, by omega, ?_⟩
    rw [Machine.after_add]
    exact hoverflows

/-! ## From the error to the handler -/

/-- Two steps that begin no call. -/
theorem callsOnly_two {f : NativeRef}
    (h : ∀ function args waiter, m.control ≠ .calling function args waiter)
    (hnext : ∀ function args waiter,
      m.next.control ≠ .calling function args waiter) : m.CallsOnly f 2 := by
  have hfirst : m.CallsOnly f 1 := Machine.callsOnly_zero.succ (Control.callsOnly_of_ne h)
  exact hfirst.succ (Control.callsOnly_of_ne hnext)

theorem next_of_raised {e : ScriptError} (hcontrol : m.control = .failed (.script e))
    (herror : s.error = m.core.proc.located m.core.world (frameFloor m.activations) e)
    (hdecorators : m.core.proc.decorators (frameFloor m.activations) = s.decorator?.toList) :
    m.next = ⟨m.core, m.activations, .unwinding s.error s.decorator?.toList⟩ := by
  rw [Machine.next_of_failed hcontrol, herror, ← hdecorators]
  rfl

/-- An error that nothing sees first is given to the handler. -/
theorem Due.asks (h : s.Due m) (hnone : s.decorator? = none) :
    ∃ k ≤ 2, m.CallsOnly s.handler k ∧ s.Asks s.error.value m (m.after k) := by
  cases h with
  | raised e f hcontrol herror hdecorators hhandler hflags hreturn hbelow =>
      have hnext := next_of_raised hcontrol herror hdecorators
      rw [hnone] at hnext
      refine ⟨2, Nat.le_refl 2, callsOnly_two ?_ ?_, ?_⟩
      · simp [hcontrol]
      · simp [hnext]
      · change s.Asks _ _ m.next.next
        rw [hnext]
        exact asks_of_caught (.refl _) rfl hhandler hflags hreturn hbelow
  | refused hcontrol hbelow =>
      rw [hnone] at hcontrol
      have hfirst : m.CallsOnly s.handler 1 :=
        Machine.callsOnly_zero.succ
          (Control.callsOnly_of_ne fun _ _ _ => by simp [Machine.after, hcontrol])
      refine ⟨1, by omega, hfirst, ?_⟩
      change s.Asks _ _ m.next
      rw [Machine.next_of_loop hcontrol]
      exact ⟨rfl, .refl _, rfl, hbelow, _, .recovered, rfl⟩

/-- What saw an error that was raised is done with it. -/
theorem asks_of_decorated {f : Frame} {r : Except RuntimeError Value}
    (h : m.Regains (.decorated s.error []) r m')
    (hhandler : (m.core.proc.dropErrorPath (frameFloor m.activations)).1 =
      some (f, s.handler))
    (hflags : f.flags = s.flags) (hreturn : f.returnAddress = s.returnAddress)
    (hbelow : (m.core.proc.dropErrorPath (frameFloor m.activations)).2.frames.items =
      s.below) :
    m'.CallsOnly s.handler 2 ∧
      s.Asks (Machine.afterDecorator s.error r).value m (m'.after 2) := by
  have hnext : m'.next = ⟨m'.core, m.activations,
      .unwinding (Machine.afterDecorator s.error r) []⟩ := by
    rw [Machine.next_of_answering h.control, ← h.activations]
    rfl
  have hpath : m'.core.proc.dropErrorPath (frameFloor m.activations) =
      ((m.core.proc.dropErrorPath (frameFloor m.activations)).1,
        { m'.core.proc with
          frames := (m.core.proc.dropErrorPath
            (frameFloor m.activations)).2.frames }) := by
    unfold Processor.dropErrorPath
    rw [h.frames]
  refine ⟨callsOnly_two (by simp [h.control]) (by simp [hnext]), ?_⟩
  change s.Asks _ _ m'.next.next
  rw [hnext]
  refine asks_of_caught h.world h.nesting ?_ hflags hreturn ?_
  · rw [hpath]
    exact hhandler
  · rw [hpath]
    exact hbelow

/-- What saw the error of a call that could not begin is done with it. -/
theorem asks_of_refused {r : Except RuntimeError Value}
    (h : m.Regains (.refused s.error s.handler s.flags s.returnAddress) r m')
    (hbelow : m.core.proc.frames.items = s.below) :
    m'.CallsOnly s.handler 1 ∧
      s.Asks (Machine.afterDecorator s.error r).value m (m'.after 1) := by
  have hfirst : m'.CallsOnly s.handler 1 :=
    Machine.callsOnly_zero.succ
      (Control.callsOnly_of_ne fun _ _ _ => by simp [Machine.after, h.control])
  refine ⟨hfirst, ?_⟩
  change s.Asks _ _ m'.next
  rw [Machine.next_of_answering h.control]
  exact ⟨h.activations, h.world, h.nesting, h.frames ▸ hbelow, _, .recovered, rfl⟩

/-- What sees the error first is called with its value, and the handler with what
became of that. -/
theorem Due.shows {d : Value} (h : s.Due m) (hsome : s.decorator? = some d) :
    ∃ i ≤ 2, ∃ waiter,
      m.after i = ⟨m.core, m.activations, .calling d [s.error.value] waiter⟩ ∧
        ∀ (m' : Machine H) r, m.Regains waiter r m' →
          ∃ k ≤ 2, m'.CallsOnly s.handler k ∧
            s.Asks (Machine.afterDecorator s.error r).value m (m'.after k) := by
  cases h with
  | raised e f hcontrol herror hdecorators hhandler hflags hreturn hbelow =>
      have hnext := next_of_raised hcontrol herror hdecorators
      rw [hsome] at hnext
      refine ⟨2, Nat.le_refl 2, .decorated s.error [], congrArg Machine.next hnext,
        fun m' r h => ⟨2, Nat.le_refl 2, ?_⟩⟩
      exact asks_of_decorated h hhandler hflags hreturn hbelow
  | refused hcontrol hbelow =>
      rw [hsome] at hcontrol
      exact ⟨1, by omega, .refused s.error s.handler s.flags s.returnAddress,
        Machine.next_of_loop hcontrol,
        fun m' r h => ⟨1, by omega, asks_of_refused h hbelow⟩⟩

omit [Host H] in
/-- No more frames are left than there were. -/
theorem Due.below_le (h : s.Due m) :
    s.below.length ≤ m.core.proc.frames.height := by
  cases h with
  | raised e f hcontrol herror hdecorators hhandler hflags hreturn hbelow =>
      rw [← hbelow]
      unfold Processor.dropErrorPath
      rw [Stack.items_truncate, List.length_drop, ← Stack.height_eq]
      exact Nat.sub_le _ _
  | refused hcontrol hbelow =>
      rw [← hbelow]
      exact Nat.le_of_eq m.core.proc.frames.height_eq.symm

end Recovery

namespace Machine

variable [Host H] {m : Machine H} {function : Value}
  {args : List Value} {waiter : Waiter H}

/-- A call that finds no room has come back at once. -/
theorem regains_of_refused (hcontrol : m.control = .calling function args waiter)
    (hfull : ¬m.HasRoom m.core.proc.frames.height) :
    ∃ n ≤ 4, ∃ e, m.Regains waiter (.error (.script e)) (m.after n) := by
  obtain ⟨n, hn, e, hafter, -⟩ := after_calling_refused m.activations waiter function args
    (full_of_not_hasRoom hfull)
  refine ⟨n, hn, e, ?_⟩
  rw [eq_of_control hcontrol, hafter]
  exact ⟨rfl, .refl _, rfl, rfl, rfl⟩

variable [LawfulHost H]

/-- A nested call goes on, or it has come back. -/
theorem Reachable.regains (h : m.Reachable)
    (hcontrol : m.control = .calling function args waiter)
    (hown : m.core.proc.canYield = true → m.core.proc.nesting ≠ 0) (n : Nat) :
    (∀ j ≤ n, m.WithinCall waiter (m.after (j + 1))) ∨
      ∃ j ≤ n, ∃ result, m.Regains waiter result (m.after (j + 1)) := by
  rcases begins_calling hcontrol List.nil_suffix with hrefused | hbegins
  · right
    refine ⟨0, Nat.zero_le n, .error (.script .stackOverflow), ?_⟩
    change m.Regains waiter _ m.next
    rw [hrefused]
    exact ⟨rfl, .refl _, rfl, rfl, rfl⟩
  · rcases h.next.encloses hbegins n (Or.inl rfl) with hlasts | ⟨j, hj, hleft, -⟩
    · left
      intro j hj
      have hwithin := hlasts j hj
      rw [after_next] at hwithin
      exact outward_of_lasts (h.after (j + 1)).wellFramed hwithin
    · right
      rw [after_next] at hleft
      have hrestores := restores_of_left h hcontrol hown (h.after _) hleft
      obtain ⟨result, hresult⟩ := hrestores.control
      exact ⟨j + 1, hj, result, hrestores.activations,
        (leads_after m _).retains h, hrestores.nesting, hrestores.frames, hresult⟩

omit [Host H] [LawfulHost H] in
theorem nesting_ne_of_standsOn {st : LoopPhase} {activations : List (Activation H)}
    {nesting : Nat} {frames : List Frame} (hloop : InLoop activations)
    (h : StandsOn st activations nesting frames) : nesting ≠ 0 := by
  obtain ⟨above, below, -, -, hbase⟩ := (standsOn_iff hloop).mp h
  cases hbase <;> exact Nat.succ_ne_zero _

/-- A loop is running where an error is dealt with. -/
theorem nesting_ne_of_due {s : Recovery} (hm : m.Reachable)
    (h : s.Due m) : m.core.proc.nesting ≠ 0 := by
  have hloop := hm.wellNested.control
  have hseated := hm.wellFramed.seated
  unfold Seated at hseated
  cases h with
  | raised e f hcontrol herror hdecorators hhandler hflags hreturn hbelow =>
      rw [hcontrol] at hloop hseated
      exact nesting_ne_of_standsOn hloop hseated
  | refused hcontrol hbelow =>
      rw [hcontrol] at hloop hseated
      exact nesting_ne_of_standsOn hloop hseated

/-- Where a protected call is to recover from a script error and nothing sees the
error first, its result is false and the value of the error if one more call may
be nested, above the frames below it; else a stack overflow takes the place of the
error and passes the protected call.  A function that sees the error first is
called if there is room above all the frames there are, and the result is what
became of the error; without that room the function has failed. -/
theorem Reachable.recoversWithRoom (h : m.Reachable) {s : Recovery} (hs : s.Due m)
    {native : Native H} (hnative : m.core.world.native? s.handler = some native)
    (hbody : native.body = .library .protectedFailed) :
    (s.decorator? = none → s.Concludes s.error.value m m) ∧
      ∀ d, s.decorator? = some d → ∃ i ≤ 2, ∃ waiter,
        m.after i = ⟨m.core, m.activations, .calling d [s.error.value] waiter⟩ ∧
        (¬m.HasRoom m.core.proc.frames.height → ∃ j ≤ 4,
          s.Concludes (decoratorFailure s.error).value m ((m.after i).after j)) ∧
        (m.HasRoom m.core.proc.frames.height → ∀ n,
          (∀ j ≤ n, (m.after i).WithinCall waiter ((m.after i).after (j + 1))) ∨
            ∃ j ≤ n, ∃ result,
              ((m.after i).after (j + 1)).control = .answering waiter result ∧
                ∃ k ≤ 7, s.Answers (afterDecorator s.error result).value m
                  (((m.after i).after (j + 1)).after k)) := by
  refine ⟨fun hnone => ?_, fun d hsome => ?_⟩
  · obtain ⟨k, hk, -, hasks⟩ := hs.asks hnone
    exact hasks.concludes hk hnative hbody
  · obtain ⟨i, hi, waiter, hcalling, hback⟩ := hs.shows hsome
    have hreach := h.after i
    refine ⟨i, hi, waiter, hcalling, fun hfull => ?_, fun hroom n => ?_⟩
    · rw [hcalling]
      obtain ⟨j, hj, e, hregains⟩ := regains_of_refused
        (m := ⟨m.core, m.activations, .calling d [s.error.value] waiter⟩) rfl hfull
      obtain ⟨k, hk, -, hasks⟩ := hback _ _ ⟨hregains.activations, hregains.world,
        hregains.nesting, hregains.frames, hregains.control⟩
      exact ⟨j, hj, hasks.concludes hk hnative hbody⟩
    · have hcontrol : (m.after i).control = .calling d [s.error.value] waiter := by
        rw [hcalling]
      have hown : (m.after i).core.proc.canYield = true →
          (m.after i).core.proc.nesting ≠ 0 := by
        have hloop := nesting_ne_of_due h hs
        rw [hcalling]
        exact fun _ => hloop
      rcases hreach.regains hcontrol hown n with hwithin | ⟨j, hj, result, hregains⟩
      · exact Or.inl hwithin
      · right
        refine ⟨j, hj, result, hregains.control, ?_⟩
        rw [hcalling] at hregains
        obtain ⟨k, hk, -, hasks⟩ := hback _ result ⟨hregains.activations,
          hregains.world, hregains.nesting, hregains.frames, hregains.control⟩
        rw [hcalling]
        refine (hasks.concludes hk hnative hbody).answers ⟨hroom.1, ?_⟩
        exact Nat.lt_of_le_of_lt hs.below_le hroom.2

end Machine

/-! ## The workbench -/

namespace Recovery

/-- The host's protected call of a function that raises the text x. -/
def ofHost (m : Machine Workbench.types) : Recovery where
  error := m.core.proc.located m.core.world (frameFloor m.activations)
    (.user (.string "x"))
  decorator? := none
  handler := ⟨4⟩
  flags := { entryPoint := true, tailCall := true }
  returnAddress := 0
  below := []

/-- The same call where no loop may be nested in that of the call. -/
def crowded : Machine Workbench.types :=
  Machine.after (.start
    (.start { modules := ⟨false, false, false⟩, maxNativeNesting := 1 } {})
    (ProtectedCall.withProtection
      (ProtectedCall.protectedly [.native ⟨6⟩, .string "x"]))) 11

end Recovery

/-- The call has room for its answer. -/
theorem Machine.recovers_raising :
    (Recovery.ofHost (ProtectedCall.raising.after 5)).Due
        (ProtectedCall.raising.after 5) ∧
      ∃ n ≤ 7, (Recovery.ofHost (ProtectedCall.raising.after 5)).Answers
        (.string "x") (ProtectedCall.raising.after 5)
        ((ProtectedCall.raising.after 5).after n) := by
  have hdue : (Recovery.ofHost (ProtectedCall.raising.after 5)).Due
      (ProtectedCall.raising.after 5) :=
    .raised _ _ rfl rfl rfl rfl rfl rfl rfl
  have hreach : ProtectedCall.raising.Reachable :=
    (Machine.leads_after _ 6).reachable
      (.start _ _ (ProtectedCall.lawful_protectedly _))
  refine ⟨hdue, ?_⟩
  exact (((hreach.after 5).recoversWithRoom hdue rfl rfl).1 rfl).answers
    ⟨by decide, by decide⟩

/-- The error that the call was to recover from has become another one, and that
is what the host gets. -/
theorem Recovery.overflows_crowded :
    (Recovery.ofHost Recovery.crowded).Due Recovery.crowded ∧
      ((Machine.run 33 Recovery.crowded).bind fun
        | (.ok _, _) => none
        | (.error e, _) => some e) = some (.script .stackOverflow) := by
  constructor
  · exact .raised _ _ rfl rfl rfl rfl rfl rfl rfl
  · decide +kernel

end ScriptEngine
