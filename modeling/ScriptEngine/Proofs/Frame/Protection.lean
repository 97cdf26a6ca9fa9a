import ScriptEngine.Proofs.Frame.Guard
import ScriptEngine.Proofs.Frame.LoopInvariant

/-!
# Protected calls in every run

While a protected call lasts its guard is on the frames of one processor, be
that processor at work, waiting for another coroutine or at rest.  No step takes
the guard away but those that end the call.
-/

namespace ScriptEngine

variable {H : HostTypes}

namespace Guard

/-- Nested loops that have begun above the guard. -/
def Spans (g : Guard) (calls : List (Activation H)) : Prop :=
  ∀ a ∈ calls, ∃ mark waiter, a = .call mark waiter ∧
    g.below.length < mark.frames ∧ g.operands.length ≤ mark.stack

/-- The guard on the processor of a coroutine at rest. -/
inductive Parked (g : Guard) (p : Processor) : CoroutineState → Prop where
  | suspended (h : g.Holds p) : Parked g p .suspended
  | forced (h : g.Holds p) : Parked g p .forceSuspended
  | aside (h : g.SetAside p) : Parked g p .suspended

end Guard

namespace Guard

/-- The loop of the call, or a nested loop above the guard, is the innermost one. -/
inductive Active (g : Guard) (loop : Loop H) (m : Machine H) : Prop where
  | executing (calls activations : List (Activation H)) (hcalls : g.Spans calls)
      (hloop : loop.At activations) (h : m.activations = calls ++ activations)
      (hholds : g.Holds m.core.proc)
      (hstays : calls = [] → ∀ e, m.control ≠ .leaving (.error e))
  | yielding (activations : List (Activation H)) (v : Value)
      (hloop : loop.At activations) (h : m.activations = activations)
      (hcontrol : m.control = .loop (.yield v) ∨
        m.control = .leaving (.ok (.yielded v)))
      (haside : g.SetAside m.core.proc)

/-- The guard on the frames of a loop's processor. -/
def invariant (g : Guard) (loop : Loop H) : LoopInvariant H where
  loop
  Active := g.Active loop
  Waits above p := ∃ calls activations, above = calls ++ activations ∧ g.Spans calls ∧
    loop.At activations ∧ g.Holds p
  Parked := g.Parked

end Guard

namespace Machine

/-- The protected call has begun and not ended. -/
def InForce (g : Guard) (loop : Loop H) (m : Machine H) : Prop :=
  (g.invariant loop).InForce m

/-- The ways in which a protected call ends. -/
inductive Ends (g : Guard) (loop : Loop H) (m : Machine H) : Prop where
  /-- The function has returned. -/
  | returned (v : Value) (o : Outcome) (ho : g.Returns v o)
      (hloop : loop.At m.activations)
      (hcontrol : m.control = .loop o ∨ m.control = .settling o)
      (hover : m.core.proc.Over g.operands [] g.below)
  /-- A script error has come to the guard. -/
  | caught (e : ScriptError) (above : List Frame)
      (hloop : loop.At m.activations) (hcontrol : m.control = .unwinding e [])
      (hunder : g.Under above m.core.proc)
      (hnone : ∀ f ∈ above, f.handlers.errorHandler? = none)
  /-- An error that scripts cannot handle. -/
  | stopped (e : RuntimeError) (he : ∀ s, e ≠ .script s)
      (hloop : loop.At m.activations) (hcontrol : m.control = .failed e)
  /-- A suspension where none is allowed. -/
  | refused (exit : LoopExit) (mark : LoopMark) (waiter : Waiter H)
      (rest : List (Activation H)) (hexit : ∀ v, exit ≠ .returned v)
      (hloop : loop = .nested mark waiter rest)
      (h : m.activations = .call mark waiter :: rest)
      (hcontrol : m.control = .leaving (.ok exit))
  /-- The answer to a caught error is no length where one is due. -/
  | escaped (frame : Frame) (v : Value)
      (hloop : loop.At m.activations)
      (hcontrol : m.control = .settling (.finish frame v))
      (hpost : frame.handlers.continuation? = some (.post .length))
      (hv : v.toNumber? = none) (hholds : g.Holds m.core.proc)

variable {g : Guard} {loop : Loop H} {calls activations : List (Activation H)}
  {core : Core H}

/-- The guard in the midst of loops, the innermost one in this phase. -/
structure Placed (g : Guard) (loop : Loop H) (calls activations : List (Activation H))
    (s : LoopPhase) (core : Core H) : Prop where
  floor : loop.floor ≤ g.below.length
  spans : g.Spans calls
  atLoop : loop.At activations
  holds : g.Holds core.proc
  stands : StandsOn s (calls ++ activations) core.proc.nesting
    core.proc.frames.items

/-- The guard is still there, or in its own loop it has been taken off. -/
def Kept (g : Guard) (calls : List (Activation H))
    (r : EStateM.Result RuntimeError (Core H) Outcome) : Prop :=
  g.Holds (Exec.resultCore r).proc ∨
    calls = [] ∧ ∃ v o c', r = .ok o c' ∧ g.Returns v o ∧
      c'.proc.Over g.operands [] g.below

theorem inLoop_of_spans (hcalls : g.Spans calls) (hloop : loop.At activations) :
    InLoop (calls ++ activations) := by
  cases calls with
  | nil => exact hloop.inLoop
  | cons a calls =>
      obtain ⟨mark, waiter, rfl, -, -⟩ := hcalls a List.mem_cons_self
      exact .call mark waiter _

/-- In a nested loop the guard is below all the loop has. -/
theorem Placed.inner {a : Activation H} {s : LoopPhase}
    (h : Placed g loop (a :: calls) activations s core) :
    ∃ above below, below.length = frameFloor (a :: calls ++ activations) ∧
      s.Fits above ∧ core.proc.Over g.operands above below ∧
      ∀ p, (∃ above, p.Over g.operands above below) → g.Holds p := by
  obtain ⟨mark, waiter, rfl, hframes, hstack⟩ := h.spans a List.mem_cons_self
  obtain ⟨outer, above, below, -, hitems, hlength, hfits, -⟩ := h.stands
  obtain ⟨above', f, hf, hover⟩ := h.holds
  have hsplit : ∃ between, above' = above ++ between ∧
      below = between ++ f :: g.below := by
    have hsame : above' ++ f :: g.below = above ++ below :=
      hover.frames.symm.trans hitems
    rcases List.append_eq_append_iff.mp hsame with ⟨l, habove, hl⟩ | ⟨l, habove, hl⟩
    · have hnil : l = [] := by
        have hlengths := congrArg List.length hl
        rw [List.length_append, List.length_cons, hlength] at hlengths
        exact List.eq_nil_of_length_eq_zero (by omega)
      refine ⟨[], ?_, ?_⟩
      · rw [habove, hnil, List.append_nil, List.append_nil]
      · rw [hl, hnil]
        rfl
    · exact ⟨l, habove, hl⟩
  obtain ⟨between, rfl, rfl⟩ := hsplit
  refine ⟨above, _, hlength, hfits, ⟨hitems, ?_, hover.operands⟩, ?_⟩
  · exact fun d hd => hover.bases d (List.mem_append_left _ hd)
  · rintro p ⟨above'', hover'⟩
    refine ⟨above'' ++ between, f, hf, ?_, ?_, hover'.operands⟩
    · rw [hover'.frames, List.append_assoc]
    · intro d hd
      rcases List.mem_append.mp hd with hd | hd
      · exact hover'.bases d hd
      · exact hover.bases d (List.mem_append_right _ hd)

theorem kept_of_guarded {r : EStateM.Result RuntimeError (Core H) Outcome}
    (h : Exec.ResultGuarded g r) :
    Kept (H := H) g [] r := by
  refine h.imp_right fun h => ?_
  exact ⟨rfl, h⟩

theorem roomy_of_handing {entryPoint : Bool} {above : List Frame}
    (h : (LoopPhase.handing entryPoint).Fits above) :
    entryPoint = true ∨ above ≠ [] := by
  have hrooted : Rooted (entryPoint :: entries above) := h
  rcases rooted_cons.mp hrooted with ⟨-, hentry⟩ | ⟨-, hrest⟩
  · exact Or.inl hentry
  · right
    rintro rfl
    exact hrest.ne_nil rfl

theorem Placed.called {s : LoopPhase} {flags : FrameFlags} {returnAddress : Nat}
    {handlers : Handlers} {r : EStateM.Result RuntimeError (Core H) Outcome}
    (h : Placed g loop calls activations s core)
    (hcalled : Exec.Called core flags returnAddress handlers r) :
    g.Holds (Exec.resultCore r).proc := by
  obtain ⟨above, f, hf, hover⟩ := h.holds
  obtain ⟨above', hover'⟩ := hcalled.over hover
  exact ⟨above', f, hf, hover'⟩

theorem Placed.delivered {flags : FrameFlags} {returnAddress : Nat}
    {v? : Option Value} {r : EStateM.Result RuntimeError (Core H) Outcome}
    (h : Placed g loop calls activations (.handing flags.entryPoint) core)
    (hdelivered : Exec.Delivered core flags returnAddress v? r) :
    Kept g calls r := by
  cases calls with
  | nil =>
      obtain ⟨above, hunder⟩ := h.holds
      exact kept_of_guarded (hdelivered.guarded hunder)
  | cons a calls =>
      obtain ⟨above, below, -, hfits, hover, hback⟩ := h.inner
      exact Or.inl (hback _ (hdelivered.over hover (roomy_of_handing hfits)))

theorem Placed.finished {frame : Frame} {v : Value}
    {r : EStateM.Result RuntimeError (Core H) Outcome}
    (h : Placed g loop calls activations (.handing frame.flags.entryPoint) core)
    (hfinished : Exec.Finished core frame v r) : Kept g calls r := by
  cases calls with
  | nil =>
      obtain ⟨above, hunder⟩ := h.holds
      exact kept_of_guarded (hfinished.guarded hunder)
  | cons a calls =>
      obtain ⟨above, below, -, hfits, hover, hback⟩ := h.inner
      exact Or.inl (hback _ (hfinished.over hover (roomy_of_handing hfits)))

theorem Placed.completed {outcome : NativeOutcome}
    {r : EStateM.Result RuntimeError (Core H) Outcome}
    (h : Placed g loop calls activations .working core)
    (hcompleted : Exec.Completed core outcome r) :
    Kept g calls r ∨
      calls = [] ∧ ∃ v c', r = .ok (.yield v) c' ∧ g.SetAside c'.proc := by
  cases calls with
  | nil =>
      obtain ⟨above, hunder⟩ := h.holds
      rcases hcompleted.guarded hunder with hguarded | haside
      · exact Or.inl (kept_of_guarded hguarded)
      · exact Or.inr ⟨rfl, haside⟩
  | cons a calls =>
      obtain ⟨above, below, -, hfits, hover, hback⟩ := h.inner
      exact Or.inl (Or.inl
        (hback _ (hcompleted.over hover (Exec.roomy_of_working hfits))))

theorem Placed.stepped [HostObjects H]
    (h : Placed g loop calls activations .working core)
    (hcontained : core.SelfContained) : Kept g calls (Exec.step core) := by
  cases calls with
  | nil =>
      obtain ⟨above, hunder⟩ := h.holds
      exact kept_of_guarded (Exec.step_guarded hunder hcontained)
  | cons a calls =>
      obtain ⟨above, below, -, hfits, hover, hback⟩ := h.inner
      exact Or.inl
        (hback _ (Exec.step_over hover (Exec.roomy_of_working hfits)
          hcontained.sparing))

/-! ## Steps in the midst of loops -/

/-- The call goes on or ends. -/
def Lasts (g : Guard) (loop : Loop H) (m : Machine H) : Prop :=
  InForce g loop m ∨ Ends g loop m

theorem lasts_executing {s : LoopPhase} (h : Placed g loop calls activations s core)
    {core' : Core H} {control : Control H} (hholds : g.Holds core'.proc)
    (hcontrol : ∀ e, control ≠ .leaving (.error e)) :
    Lasts g loop ⟨core', calls ++ activations, control⟩ := by
  refine Or.inl (.active ?_)
  exact .executing calls activations h.spans h.atLoop rfl hholds fun _ => hcontrol

theorem lasts_returned {v : Value} {o : Outcome} {control : Control H}
    (hloop : loop.At activations) (ho : g.Returns v o)
    (hcontrol : control = .loop o ∨ control = .settling o)
    (hover : core.proc.Over g.operands [] g.below) :
    Lasts g loop ⟨core, [] ++ activations, control⟩ :=
  Or.inr (.returned v o ho hloop hcontrol hover)

/-- What hands the answer of a handler on does not fail in the loop of the guard. -/
theorem lasts_exec {s : LoopPhase} (h : Placed g loop calls activations s core)
    {route : Route} {x : Exec H Outcome} {core' : Core H} (hkept : Kept g calls (x core'))
    (hok : route = .loop ∨ (calls = [] → ∀ e c', x core' ≠ .error e c')) :
    Lasts g loop (exec route x core' (calls ++ activations)) := by
  unfold exec
  generalize x core' = r at hkept hok ⊢
  rcases hkept with hholds | ⟨rfl, v, o, c', rfl, ho, hover⟩
  · cases r with
    | ok o c' => exact lasts_executing h hholds (by cases route <;> simp)
    | error e c' =>
        rcases hok with rfl | hok
        · exact lasts_executing h hholds (by simp)
        · refine Or.inl
            (.active (.executing calls activations h.spans h.atLoop rfl hholds ?_))
          exact fun hcalls => absurd rfl (hok hcalls e c')
  · exact lasts_returned h.atLoop ho (route.done_cases o) hover

theorem Placed.of_proc {s : LoopPhase} {core' : Core H}
    (h : Placed g loop calls activations s core)
    (hframes : core'.proc.frames = core.proc.frames)
    (hstack : core'.proc.stack = core.proc.stack)
    (hnesting : core'.proc.nesting = core.proc.nesting) :
    Placed g loop calls activations s core' := by
  refine ⟨h.floor, h.spans, h.atLoop, h.holds.of_same hframes hstack, ?_⟩
  rw [hframes, hnesting]
  exact h.stands

theorem stack_counted (core : Core H) :
    (counted core).proc.stack = core.proc.stack := by
  unfold counted
  rw [countInstruction_eq]

section

variable [Host H]

theorem Placed.polled (h : Placed g loop calls activations .working core)
    (hcontained : (counted core).SelfContained) :
    Kept g calls (Exec.poll core) := by
  have hcounted := h.of_proc (counted_frames core) (stack_counted core)
    (counted_nesting core)
  rcases poll_cases core with hrun | hrun | hrun
  · rw [hrun]
    exact Or.inl h.holds
  · rw [hrun]
    exact Or.inl hcounted.holds
  · rw [hrun]
    exact hcounted.stepped hcontained

theorem lasts_afterOutcome {o : Outcome}
    (h : Placed g loop calls activations (o.phase core.proc) core)
    (hcontained : o = .proceed → (counted core).SelfContained) :
    Lasts g loop (afterOutcome core (calls ++ activations) o) := by
  cases o with
  | proceed => exact lasts_exec h (h.polled (hcontained rfl)) (Or.inl rfl)
  | finish frame v =>
      exact lasts_exec h (h.finished (Exec.finished_finish frame v core)) (Or.inl rfl)
  | invoke f args => exact lasts_executing h h.holds (by simp)
  | recover e decorator? handler flags returnAddress =>
      cases decorator? with
      | none => exact lasts_executing h h.holds (by simp)
      | some decorator => exact lasts_executing h h.holds (by simp)
  | tailCall request flags returnAddress =>
      exact lasts_exec h (Or.inl (h.called (Exec.called_call _ _ _ _ _ core))) (Or.inl rfl)
  | yield v =>
      unfold afterOutcome
      rcases checkYield_cases core with hrun | ⟨violation, hrun⟩
      · rw [hrun]
        exact lasts_executing h h.holds (by simp)
      · rw [hrun]
        exact lasts_executing h (h.holds.of_same rfl rfl) (by simp)
  | forceYield => exact lasts_executing h h.holds (by simp)
  | «return» v => exact lasts_executing h h.holds (by simp)

theorem lasts_beginCall {waiter : Waiter H} (function : Value)
    (args : List Value) (h : Placed g loop calls activations waiter.phase core) :
    Lasts g loop (beginCall core (calls ++ activations) function args waiter) := by
  rcases beginCall_cases core (calls ++ activations) function args waiter with
    hbegin | ⟨-, hbegin⟩
  all_goals rw [hbegin]
  · exact lasts_executing h h.holds (by simp)
  · obtain ⟨above, f, hf, hover⟩ := h.holds
    have hcalled := Exec.called_call function args { entryPoint := true } core.proc.ip {}
      core.nested
    have hspans : g.Spans (.call core.proc.mark waiter :: calls) := by
      intro a ha
      rcases List.mem_cons.mp ha with rfl | ha
      · refine ⟨_, waiter, rfl, ?_, ?_⟩
        · change g.below.length < core.proc.frames.height
          rw [core.proc.frames.height_eq, hover.frames, List.length_append,
            List.length_cons]
          omega
        · change g.operands.length ≤ core.proc.stack.height
          rw [core.proc.stack.height_eq]
          exact hover.operands.length_le
      · exact h.spans a ha
    obtain ⟨above', hover'⟩ := hcalled.over (hover.of_same rfl rfl)
    have hholds : g.Holds (Exec.resultCore (Exec.call function args
        { entryPoint := true } core.proc.ip {} core.nested)).proc := ⟨above', f, hf, hover'⟩
    unfold exec
    split
    · next o c' hrun =>
        rw [hrun] at hholds
        exact Or.inl (.active (.executing _ activations hspans h.atLoop rfl hholds
          (by simp)))
    · next e c' hrun =>
        rw [hrun] at hholds
        exact Or.inl (.active (.executing _ activations hspans h.atLoop rfl hholds
          (by simp)))

omit [Host H] in
theorem lasts_answer {waiter : Waiter H} (result : Except RuntimeError Value)
    (h : Placed g loop calls activations waiter.phase core)
    (hwaiter : waiter.Fits (calls ++ activations)) :
    Lasts g loop (answer core (calls ++ activations) result waiter) := by
  cases waiter with
  | action next => exact lasts_executing h h.holds (by simp)
  | decorated e rest => exact lasts_executing h h.holds (by simp)
  | refused e handler flags returnAddress =>
      exact lasts_executing h h.holds (by simp)
  | recovered flags returnAddress =>
      cases result with
      | ok v =>
          exact lasts_exec h
            (h.delivered (Exec.delivered_deliver flags returnAddress (some v) core)) (Or.inl rfl)
      | error e => exact lasts_executing h h.holds (by simp)
  | caught flags returnAddress =>
      cases result with
      | ok v =>
          have hdelivered :=
            Exec.delivered_deliver flags returnAddress (some v) core
          refine lasts_exec h (h.delivered hdelivered) (Or.inr ?_)
          intro _ e c' herror
          rw [herror] at hdelivered
          cases hdelivered
      | error e => exact lasts_executing h h.holds (by simp)
  | processor =>
      have hloop := inLoop_of_spans h.spans h.atLoop
      generalize calls ++ activations = all at hwaiter hloop
      cases hwaiter
      exact absurd hloop InLoop.ne_switch

omit [Host H] in
theorem lasts_settle {o : Outcome}
    (h : Placed g loop calls activations (o.phase core.proc) core)
    (hends : ¬Ends g loop ⟨core, calls ++ activations, .settling o⟩) :
    Lasts g loop (settle core (calls ++ activations) o) := by
  cases o with
  | finish frame v =>
      have hfinished := Exec.finished_finish frame v core
      refine lasts_exec h (h.finished hfinished) (Or.inr ?_)
      intro hcalls e c' herror
      rw [herror] at hfinished
      cases hfinished with
      | delivered v? hpost hdelivered => cases hdelivered
      | notNumber hpost hv =>
          refine hends (.escaped frame v ?_ rfl hpost hv h.holds)
          rw [hcalls]
          exact h.atLoop
  | _ => exact lasts_executing h h.holds (by simp)

end

/-! ## Errors -/

/-- A frame of a loop is among those the loop has. -/
theorem own_of_stands {s : LoopPhase} {nesting : Nat} {frames above lower : List Frame}
    {f : Frame} (hloop : loop.At activations) (hheight : loop.floor ≤ lower.length)
    (hstands : StandsOn s activations nesting frames) (hframes : frames = above ++ f :: lower) :
    ∃ between below, lower = between ++ below ∧
      below.length = frameFloor activations ∧ s.Fits (above ++ f :: between) := by
  obtain ⟨whole, below, hitems, hfits, hbase⟩ :=
    (standsOn_iff hloop.inLoop).mp hstands
  have hfloor := hbase.floor
  rw [← hloop.frameFloor, hfloor] at hheight
  have hsame : above ++ f :: lower = whole ++ below := hframes.symm.trans hitems
  rcases List.append_eq_append_iff.mp hsame with ⟨l, hwhole, hl⟩ | ⟨l, habove, hl⟩
  · cases l with
    | nil =>
        have hlength := congrArg List.length hl
        rw [List.nil_append, List.length_cons] at hlength
        omega
    | cons d between =>
        obtain ⟨rfl, hbelow⟩ := List.cons.inj hl
        exact ⟨between, below, hbelow, hfloor.symm, hwhole ▸ hfits⟩
  · have hlength := congrArg List.length hl
    rw [List.length_append, List.length_cons] at hlength
    omega

/-- In its own loop the guard is among the frames the loop has. -/
theorem Placed.own {s : LoopPhase} {above : List Frame} {f : Frame}
    (h : Placed g loop [] activations s core)
    (hover : core.proc.Over g.operands above (f :: g.below)) :
    ∃ between below, g.below = between ++ below ∧
      below.length = frameFloor activations ∧ s.Fits (above ++ f :: between) :=
  own_of_stands h.atLoop h.floor h.stands hover.frames

/-- An error goes to the topmost frame with a handler. -/
theorem errorPath_eq {path rest : List Frame} {d : Frame}
    (hpath : ∀ f ∈ path, f.handlers.errorHandler? = none ∧
      f.flags.entryPoint = false)
    (hd : d.handlers.errorHandler?.isSome = true) :
    errorPath (path ++ d :: rest) = path ++ [d] := by
  induction path with
  | nil =>
      rw [List.nil_append, errorPath, hd]
      rfl
  | cons f path ih =>
      obtain ⟨hnone, hinner⟩ := hpath f List.mem_cons_self
      have hrest := ih fun f' hf' => hpath f' (List.mem_cons_of_mem f hf')
      rw [List.cons_append, errorPath, hnone, hinner, hrest]
      rfl

/-- The error is answered by the handler of the frame it has come to. -/
theorem catchError_eq {path rest below : List Frame} {d : Frame}
    {handler : NativeRef} (e : ScriptError)
    (hframes : core.proc.frames.items = path ++ d :: rest ++ below)
    (hfloor : below.length = frameFloor activations)
    (hpath : errorPath (path ++ d :: rest) = path ++ [d])
    (hd : d.handlers.errorHandler? = some handler) :
    ∃ frames : Stack Frame, frames.items = rest ++ below ∧
      catchError core activations e =
        ⟨⟨core.world, { core.proc with
            frames, stack := core.proc.stack.truncate d.base }⟩,
          activations,
          .calling (.native handler) [e.value]
            (.caught d.flags d.returnAddress)⟩ := by
  rcases catchError_split e hframes hfloor.symm with
    ⟨path', d', handler', rest', frames, habove, hpath', hd', hitems, hcaught⟩ |
      ⟨rest', frames, -, hnone, -, -⟩
  · obtain ⟨rfl, hlast⟩ := List.append_inj' (hpath'.symm.trans hpath) rfl
    obtain rfl := List.singleton_inj.mp hlast
    obtain rfl : rest' = rest := (List.cons.inj (List.append_cancel_left habove)).2.symm
    obtain rfl : handler' = handler := Option.some.inj (hd'.symm.trans hd)
    exact ⟨frames, hitems, hcaught⟩
  · rw [hnone d (by rw [hpath, List.getLast?_concat])] at hd
    cases hd

/-- The topmost frame with a handler, if there is one. -/
theorem handler_cases (frames : List Frame) :
    (∀ f ∈ frames, f.handlers.errorHandler? = none) ∨
      ∃ path d rest handler, frames = path ++ d :: rest ∧
        (∀ f ∈ path, f.handlers.errorHandler? = none) ∧
        d.handlers.errorHandler? = some handler := by
  induction frames with
  | nil => exact Or.inl (by simp)
  | cons f frames ih =>
      cases hf : f.handlers.errorHandler? with
      | some handler =>
          exact Or.inr ⟨[], f, frames, handler, rfl, by simp, hf⟩
      | none =>
          rcases ih with hnone | ⟨path, d, rest, handler, hframes, hpath, hd⟩
          · left
            intro d hd
            rcases List.mem_cons.mp hd with rfl | hd
            · exact hf
            · exact hnone d hd
          · refine Or.inr ⟨f :: path, d, rest, handler, ?_, ?_, hd⟩
            · rw [hframes]
              rfl
            · intro d' hd'
              rcases List.mem_cons.mp hd' with rfl | hd'
              · exact hf
              · exact hpath d' hd'

/-- No frame above the guard begins a loop. -/
theorem inner_of_failing {above between : List Frame} {f : Frame}
    (h : LoopPhase.failing.Fits (above ++ f :: between)) :
    ∀ d ∈ above, d.flags.entryPoint = false := by
  have hrooted : Rooted (entries above ++ entries (f :: between)) := by
    rcases h with hnil | hrooted
    · exact absurd (List.append_eq_nil_iff.mp hnil).2 (by simp)
    · unfold entries at hrooted
      rw [List.map_append] at hrooted
      exact hrooted
  intro d hd
  exact hrooted.eq_false (by simp [entries]) _ (List.mem_map_of_mem hd)

theorem lasts_catchError (e : ScriptError)
    (h : Placed g loop calls activations .failing core)
    (hends : ¬Ends g loop ⟨core, calls ++ activations, .unwinding e []⟩) :
    Lasts g loop (catchError core (calls ++ activations) e) := by
  cases calls with
  | nil =>
      obtain ⟨above, f, hf, hover⟩ := h.holds
      obtain ⟨between, below, hbelow, hfloor, hfits⟩ := h.own hover
      have hinner := inner_of_failing hfits
      rcases handler_cases above with
        hnone | ⟨path, d, rest, handler, rfl, hpath, hd⟩
      · exact absurd (.caught e above h.atLoop rfl ⟨f, hf, hover⟩ hnone) hends
      · have herror : errorPath (path ++ d :: (rest ++ f :: between)) =
            path ++ [d] := by
          refine errorPath_eq ?_ (by rw [hd]; rfl)
          intro f' hf'
          exact ⟨hpath f' hf', hinner f' (List.mem_append_left _ hf')⟩
        have hframes : core.proc.frames.items =
            path ++ d :: (rest ++ f :: between) ++ below := by
          rw [hover.frames, hbelow]
          simp
        obtain ⟨frames, hitems, hcaught⟩ :=
          catchError_eq e hframes hfloor herror hd
        rw [List.nil_append, hcaught]
        have hbase : g.operands.length ≤ d.base :=
          hover.bases d (List.mem_append_right path List.mem_cons_self)
        refine lasts_executing h ⟨rest, f, hf, ?_, ?_, ?_⟩ (by simp)
        · rw [hitems, hbelow, List.append_assoc]
          rfl
        · intro d' hd'
          exact hover.bases d' (List.mem_append_right path
            (List.mem_cons_of_mem d hd'))
        · exact suffix_truncate hover.operands hbase
  | cons a calls =>
      obtain ⟨above, below, hfloor, -, hover, hback⟩ := h.inner
      rcases catchError_split e hover.frames hfloor.symm with
        ⟨path, frame, handler, rest, frames, rfl, -, -, hitems, hcaught⟩ |
          ⟨rest, frames, habove, -, hitems, hcaught⟩
      all_goals rw [hcaught]
      · have hbase : g.operands.length ≤ frame.base :=
          hover.bases frame (List.mem_append_right path List.mem_cons_self)
        refine lasts_executing h (hback _
          ⟨rest, hitems, fun d hd => ?_, suffix_truncate hover.operands hbase⟩) (by simp)
        exact hover.bases d (List.mem_append_right path (List.mem_cons_of_mem frame hd))
      · refine Or.inl (.active (.executing _ activations h.spans h.atLoop rfl ?_
          (fun hnil => absurd hnil (List.cons_ne_nil a calls))))
        refine hback _ ⟨rest, hitems, fun d hd => hover.bases d ?_, hover.operands⟩
        rw [habove]
        exact List.mem_append_right _ hd

/-- Errors that scripts cannot handle go to the end of a nested loop. -/
theorem lasts_afterFailure (e : RuntimeError)
    (h : Placed g loop calls activations .failing core)
    (hends : ¬Ends g loop ⟨core, calls ++ activations, .failed e⟩) :
    Lasts g loop (afterFailure core (calls ++ activations) e) := by
  have hstop (he : ∀ s, e ≠ .script s) :
      Lasts g loop ⟨⟨core.world, { core.proc with
          frames := core.proc.frames.truncate
            (frameFloor (calls ++ activations)) }⟩,
        calls ++ activations, .leaving (.error e)⟩ := by
    cases calls with
    | nil => exact absurd (.stopped e he h.atLoop rfl) hends
    | cons a calls =>
        obtain ⟨mark, waiter, rfl, hframes, -⟩ := h.spans a List.mem_cons_self
        refine Or.inl (.active (.executing _ activations h.spans h.atLoop rfl ?_
          (fun hnil => absurd hnil (List.cons_ne_nil _ calls))))
        exact h.holds.truncate hframes rfl h.holds.operands
  cases e with
  | script e => exact lasts_executing h h.holds (by simp)
  | contract v => exact hstop (by simp)
  | internal reason => exact hstop (by simp)
  | terminated => exact hstop (by simp)
  | fault f => exact hstop (by simp)

/-! ## Leaving loops -/

theorem spans_tail {a : Activation H} (h : g.Spans (a :: calls)) :
    g.Spans calls := by
  intro b hb
  exact h b (List.mem_cons_of_mem a hb)

theorem lasts_leave (exit : Except RuntimeError LoopExit)
    (h : Placed g loop calls activations (LoopExit.phase core.proc exit) core)
    (hstays : calls = [] → ∀ e, exit ≠ .error e)
    (hends : ¬Ends g loop ⟨core, calls ++ activations, .leaving exit⟩) :
    Lasts g loop (leave core (calls ++ activations) exit) := by
  cases calls with
  | cons a calls =>
      obtain ⟨mark, waiter, rfl, hframes, hstack⟩ := h.spans a List.mem_cons_self
      have hcut : g.Holds { core.proc with
          nesting := core.proc.nesting - 1, ip := mark.ip, chunk? := mark.chunk?
          frames := core.proc.frames.truncate mark.frames
          stack := core.proc.stack.truncate mark.stack } :=
        h.holds.truncate hframes rfl (suffix_truncate h.holds.operands hstack)
      have hspans := spans_tail h.spans
      change Lasts g loop (endCall core (calls ++ activations) mark waiter exit)
      unfold endCall
      rcases exit with e | exit
      · exact Or.inl (.active (.executing calls activations hspans h.atLoop rfl hcut
          (by simp)))
      · cases exit with
        | returned v =>
            exact Or.inl (.active (.executing calls activations hspans h.atLoop rfl
              (h.holds.of_same rfl rfl) (by simp)))
        | yielded v =>
            exact Or.inl (.active (.executing calls activations hspans h.atLoop rfl hcut
              (by simp)))
        | forceYielded =>
            exact Or.inl (.active (.executing calls activations hspans h.atLoop rfl hcut
              (by simp)))
  | nil =>
      rcases exit with e | exit
      · exact absurd rfl (hstays rfl e)
      · have hexit : ∀ v, exit ≠ .returned v := by
          rintro v rfl
          obtain ⟨above, f, -, hover⟩ := h.holds
          obtain ⟨between, below, -, -, hfits⟩ := h.own hover
          exact List.cons_ne_nil f between (List.append_eq_nil_iff.mp hfits).2
        have hloop := h.atLoop
        cases hloop with
        | nested mark waiter rest =>
            exact absurd (.refused exit mark waiter rest hexit rfl rfl rfl) hends
        | body r outer next rest =>
            have hholds : g.Holds { core.proc with nesting := 0 } :=
              h.holds.of_same rfl rfl
            refine Or.inl (.departing r outer next rest exit rfl rfl rfl ?_)
            cases exit with
            | returned v => exact absurd rfl (hexit v)
            | yielded v => exact .suspended hholds
            | forceYielded => exact .forced hholds

/-! ## Host functions -/

section

variable [Host H]

theorem act_done (hloop : InLoop activations) (outcome : NativeOutcome) :
    act core activations (.done outcome) =
      exec .loop (Exec.completeNative outcome) core activations := by
  cases hloop <;> rfl

theorem act_fail (hloop : InLoop activations) (e : RuntimeError) :
    act core activations (.fail e) = ⟨core, activations, .failed e⟩ := by
  cases hloop <;> rfl

theorem lasts_act (a : Action H NativeOutcome)
    (h : Placed g loop calls activations .working core) :
    Lasts g loop (act core (calls ++ activations) a) := by
  have hloop := inLoop_of_spans h.spans h.atLoop
  have hactive (a : Action H NativeOutcome) :
      (g.invariant loop).Active ⟨core, calls ++ activations, .running a⟩ :=
    .executing calls activations h.spans h.atLoop rfl h.holds (by simp)
  have hwaits : (g.invariant loop).Waits (calls ++ activations) core.proc :=
    ⟨calls, activations, rfl, h.spans, h.atLoop, h.holds⟩
  cases a with
  | done outcome =>
      rw [act_done hloop]
      rcases h.completed (Exec.completed_completeNative outcome core) with
        hkept | ⟨rfl, v, c', hrun, haside⟩
      · exact lasts_exec h hkept (Or.inl rfl)
      · rw [exec_ok hrun]
        exact Or.inl (.active (.yielding activations v h.atLoop rfl (Or.inl rfl) haside))
  | fail e =>
      rw [act_fail hloop]
      exact lasts_executing h h.holds (by simp)
  | read next => exact lasts_executing h h.holds (by simp)
  | write change next =>
      have hholds : g.Holds (⟨change core.world, core.proc⟩ : Core H).proc :=
        h.holds
      exact lasts_executing h hholds (by simp)
  | call function args next => exact lasts_executing h h.holds (by simp)
  | resume r args next =>
      exact Or.inl (LoopInvariant.inForce_resume r args hactive hwaits)
  | enterMain function args next =>
      exact Or.inl (LoopInvariant.inForce_enterMain function args hactive hwaits)

end

/-! ## Steps of the machine -/

/-- An instruction that is about to run uses only the operands of its frame. -/
def SelfContained [HostObjects H] (m : Machine H) : Prop :=
  m.control = .loop .proceed → (counted m.core).SelfContained

/-- An instruction that is about to run leaves the operands of the frames below
alone. -/
def Sparing [HostObjects H] (m : Machine H) : Prop :=
  m.control = .loop .proceed → (counted m.core).Sparing

theorem SelfContained.sparing [HostObjects H] {m : Machine H} (h : m.SelfContained) :
    m.Sparing := by
  intro hcontrol
  exact (h hcontrol).sparing

section

variable [Host H] {m : Machine H}

theorem lasts_executing_next (hm : m.WellNested) (hg : m.WellFramed)
    (hcontained : m.SelfContained) (hfloor : loop.floor ≤ g.below.length)
    (hcalls : g.Spans calls) (hloop : loop.At activations)
    (h : m.activations = calls ++ activations) (hholds : g.Holds m.core.proc)
    (hstays : calls = [] → ∀ e, m.control ≠ .leaving (.error e))
    (hends : ¬Ends g loop m) : Lasts g loop m.next := by
  obtain ⟨core, all, control⟩ := m
  obtain rfl : all = calls ++ activations := h
  have hin := inLoop_of_spans hcalls hloop
  have hplaced {s : LoopPhase} (hstands : StandsOn s (calls ++ activations)
      core.proc.nesting core.proc.frames.items) :
      Placed g loop calls activations s core :=
    ⟨hfloor, hcalls, hloop, hholds, hstands⟩
  have hseated := hg.seated
  have hcontrol := hm.control
  cases control with
  | loop o =>
      refine lasts_afterOutcome (hplaced hseated) ?_
      rintro rfl
      exact hcontained rfl
  | failed e => exact lasts_afterFailure e (hplaced hseated) hends
  | unwinding e decorators =>
      cases decorators with
      | nil => exact lasts_catchError e (hplaced hseated) hends
      | cons d rest => exact lasts_executing (hplaced hseated) hholds (by simp)
  | calling function args waiter =>
      exact lasts_beginCall function args (hplaced hseated)
  | leaving exit =>
      refine lasts_leave exit (hplaced hseated) ?_ hends
      rintro hnil e rfl
      exact hstays hnil e rfl
  | answering waiter result =>
      exact lasts_answer result (hplaced hseated) hcontrol
  | switching exit =>
      obtain ⟨r, outer, next, rest, hswitch, -⟩ := hcontrol
      dsimp only at hswitch
      rw [hswitch] at hin
      exact absurd hin InLoop.ne_switch
  | running a => exact lasts_act a (hplaced hseated)
  | settling o => exact lasts_settle (hplaced hseated) hends
  | finished result =>
      have hnil : calls ++ activations = [] := hcontrol
      rw [hnil] at hin
      exact absurd hin not_inLoop_nil

end

end Machine

end ScriptEngine
