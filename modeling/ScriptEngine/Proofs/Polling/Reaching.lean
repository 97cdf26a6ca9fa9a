import ScriptEngine.Proofs.Frame.Answer
import ScriptEngine.Proofs.Polling.NeverAtRest

/-!
# The loop reaches an instruction or goes round

In a loop that runs nothing but the library every call back and every resume has
an end.  What is left are the calls that host functions ask for in their own
place.  Dealing with an error or a result uses up frames, since the functions
that confirm protected calls ask for nothing more.  A protected call that asks
for a call leaves less room for frames, and so does `pairs` when its own frame
still has something to do.  The one thing that costs nothing is `pairs` in a
frame that has nothing left to do.
-/

namespace ScriptEngine

variable {H : HostTypes} [Host H]

namespace Machine

variable {m : Machine H}

/-! ## Later states of the same loop -/

/-- A later state, with the same activations and frames. -/
structure Onward (m m' : Machine H) : Prop where
  later : ∃ n, m' = m.after n
  activations : m'.activations = m.activations
  frames : m'.core.proc.frames = m.core.proc.frames

theorem Onward.refl (m : Machine H) : m.Onward m :=
  ⟨⟨0, rfl⟩, rfl, rfl⟩

theorem Onward.trans {m' m'' : Machine H} (h : m.Onward m') (h' : m'.Onward m'') :
    m.Onward m'' := by
  obtain ⟨n, rfl⟩ := h.later
  obtain ⟨k, rfl⟩ := h'.later
  exact ⟨⟨n + k, (after_add m n k).symm⟩, h'.activations.trans h.activations,
    h'.frames.trans h.frames⟩

theorem onward_next (hactivations : m.next.activations = m.activations)
    (hframes : m.next.core.proc.frames = m.core.proc.frames) : m.Onward m.next :=
  ⟨⟨1, rfl⟩, hactivations, hframes⟩

theorem loopEnds_of_next (hactivations : m.next.activations = m.activations)
    (h : m.next.LoopEnds) : m.LoopEnds := by
  refine loopEnds_of_after 1 (Nat.le_of_eq ?_) h
  exact congrArg List.length hactivations

theorem Onward.loopEnds {m' : Machine H} (h : m.Onward m') (h' : m'.LoopEnds) :
    m.LoopEnds := by
  obtain ⟨n, rfl⟩ := h.later
  exact loopEnds_of_after n (Nat.le_of_eq (congrArg List.length h.activations)) h'

/-! ## Single steps -/

variable [LawfulHost H] [LibraryOnly H]

theorem DeeperLoopsEnd.onward {m' : Machine H} (h : m.DeeperLoopsEnd) (h' : m.Onward m') :
    m'.DeeperLoopsEnd := by
  obtain ⟨n, rfl⟩ := h'.later
  exact h.after h'.activations

/-! ## Leaving -/

omit [LibraryOnly H] in
theorem DeeperLoopsEnd.loopEnds_of_leaving (h : m.DeeperLoopsEnd)
    {exit : Except RuntimeError LoopExit} (hcontrol : m.control = .leaving exit) :
    m.LoopEnds := by
  have hfits := h.neverAtRest.reachable.wellNested.control
  obtain ⟨core, activations, control⟩ := m
  dsimp only at hcontrol
  subst hcontrol
  have hloop : InLoop activations := hfits
  refine ⟨1, ?_⟩
  change (leave core activations exit).activations.length < activations.length
  cases hloop with
  | call mark waiter rest =>
      change (endCall core rest mark waiter exit).activations.length < _
      unfold endCall
      rcases exit with e | exit
      · exact Nat.lt_succ_self _
      · cases exit <;> exact Nat.lt_succ_self _
  | body rest =>
      change (endBody core rest exit).activations.length < _
      unfold endBody
      cases exit <;> exact Nat.lt_succ_self _

omit [LibraryOnly H] in
theorem DeeperLoopsEnd.loopEnds_of_switching (h : m.DeeperLoopsEnd)
    {exit : Except RuntimeError LoopExit} (hcontrol : m.control = .switching exit) :
    m.LoopEnds := by
  have hfits := h.neverAtRest.reachable.wellNested.control
  rw [hcontrol] at hfits
  obtain ⟨r, outer, next, rest, hactivations, -⟩ := hfits
  refine ⟨1, ?_⟩
  change m.next.activations.length < _
  rw [next_of_switching hcontrol, hactivations]
  exact Nat.lt_succ_self _

/-- A step that hands on leads to a state of the same loop. -/
theorem DeeperLoopsEnd.loopEnds_of_eq (h : m.DeeperLoopsEnd) {core : Core H} {control : Control H}
    (hnext : m.next = ⟨core, m.activations, control⟩)
    (hloopEnds : (⟨core, m.activations, control⟩ : Machine H).DeeperLoopsEnd →
      (⟨core, m.activations, control⟩ : Machine H).LoopEnds) : m.LoopEnds := by
  have hactivations : m.next.activations = m.activations := by rw [hnext]
  refine loopEnds_of_next hactivations ?_
  rw [hnext]
  refine hloopEnds ?_
  rw [← hnext]
  exact h.next hactivations

theorem DeeperLoopsEnd.loopEnds_of_exit (h : m.DeeperLoopsEnd) {core : Core H}
    {exit : Except RuntimeError LoopExit}
    (hnext : m.next = ⟨core, m.activations, .leaving exit⟩) : m.LoopEnds := by
  refine h.loopEnds_of_eq hnext fun h' => ?_
  exact h'.loopEnds_of_leaving rfl

/-- The loop cannot go on with an instruction. -/
theorem DeeperLoopsEnd.loopEnds_of_proceed (h : m.DeeperLoopsEnd) {core : Core H}
    (hnext : m.next = ⟨core, m.activations, .loop .proceed⟩) : m.LoopEnds := by
  refine h.loopEnds_of_eq hnext fun h' => ?_
  exact absurd rfl h'.neverAtRest.not_polls

/-! ## Results and errors -/

/-- With fewer frames the loop ends once it deals with an error or a result. -/
structure Sinks (H : HostTypes) [Host H] (height : Nat) : Prop where
  failed : ∀ m : Machine H, m.DeeperLoopsEnd → m.core.proc.frames.height < height →
    ∀ e, m.control = .failed e → m.LoopEnds
  finish : ∀ m : Machine H, m.DeeperLoopsEnd → m.core.proc.frames.height < height →
    ∀ (route : Route) frame v, m.control = route.done (.finish frame v) → m.LoopEnds

variable {height : Nat} {route : Route}

/-- What no frame waits for comes back to the loop. -/
theorem DeeperLoopsEnd.loopEnds_of_done (h : m.DeeperLoopsEnd) {core : Core H} {o : Outcome}
    (ho : ∀ frame v, o ≠ .finish frame v)
    (hnext : m.next = ⟨core, m.activations, route.done o⟩)
    (hloop : (⟨core, m.activations, .loop o⟩ : Machine H).DeeperLoopsEnd →
      (⟨core, m.activations, .loop o⟩ : Machine H).LoopEnds) : m.LoopEnds := by
  refine h.loopEnds_of_eq hnext fun h' => ?_
  cases route with
  | loop => exact hloop h'
  | settling =>
      refine h'.loopEnds_of_eq ?_ hloop
      cases o with
      | finish frame v => exact absurd rfl (ho frame v)
      | _ => rfl

/-- A result is handed on. -/
theorem DeeperLoopsEnd.loopEnds_of_delivered (h : m.DeeperLoopsEnd) (hsinks : Sinks H height)
    {core : Core H} {flags : FrameFlags} {returnAddress : Nat} {v? : Option Value}
    {x : Exec H Outcome}
    (hdelivered : Exec.Delivered core flags returnAddress v? (x core))
    (hheight : core.proc.frames.height ≤ height)
    (hnext : m.next = exec route x core m.activations) : m.LoopEnds := by
  unfold exec at hnext
  generalize x core = r at hdelivered hnext
  cases hdelivered with
  | returned hentry => exact h.loopEnds_of_done (by simp) hnext fun h' => h'.loopEnds_of_exit rfl
  | awaited hentry top rest hframes hawaiting =>
      refine h.loopEnds_of_eq hnext fun h' => hsinks.finish _ h' ?_ route top _ rfl
      rw [hframes] at hheight
      exact hheight
  | bottom hentry hframes =>
      exact h.loopEnds_of_done (by simp) hnext fun h' => absurd rfl h'.neverAtRest.not_polls
  | resumed hentry top hframes hawaiting =>
      exact h.loopEnds_of_done (by simp) hnext fun h' => absurd rfl h'.neverAtRest.not_polls

theorem height_dropErrorPath {p : Processor} {floor : Nat} {found : Frame × NativeRef}
    (h : (p.dropErrorPath floor).1 = some found) :
    (p.dropErrorPath floor).2.frames.height < p.frames.height := by
  have hpath : errorPath (p.frames.above floor) ≠ [] := by
    intro hnil
    unfold Processor.dropErrorPath at h
    rw [hnil] at h
    cases h
  have hpositive := List.length_pos_iff.mpr hpath
  have hshort : (errorPath (p.frames.above floor)).length ≤ p.frames.height := by
    have hprefix := ( errorPath_prefix (p.frames.above floor)).length_le
    have htake : (p.frames.above floor).length ≤ p.frames.items.length :=
      List.length_take_le' _ _
    rw [← p.frames.height_eq] at htake
    exact Nat.le_trans hprefix htake
  change p.frames.height - (p.frames.height -
    (p.frames.height - (errorPath (p.frames.above floor)).length)) < _
  omega

/-- The error has been shown to everything that wants to see it. -/
theorem DeeperLoopsEnd.loopEnds_of_caught (h : m.DeeperLoopsEnd) (hsinks : Sinks H height)
    {e : ScriptError} (hcontrol : m.control = .unwinding e [])
    (hheight : m.core.proc.frames.height ≤ height) : m.LoopEnds := by
  have hnext := next_of_caught hcontrol
  rcases catchError_cases m.core m.activations e with
    ⟨frame, handler, n, hdropped, hcaught⟩ | ⟨n, -, hcaught⟩
  all_goals rw [hcaught] at hnext
  · have hlower := height_dropErrorPath (congrArg Prod.fst hdropped)
    rw [hdropped] at hlower
    refine h.loopEnds_of_eq hnext fun h' => ?_
    obtain ⟨n, result, hanswers⟩ := h'.answers rfl
    have honward : Onward _ _ := ⟨⟨n, rfl⟩, hanswers.activations, hanswers.frames⟩
    refine honward.loopEnds ?_
    have hdeeperEnd := h'.onward honward
    have hbelow := congrArg Stack.height hanswers.frames
    have hanswer := next_of_answering hanswers.control
    cases result with
    | ok v =>
        refine hdeeperEnd.loopEnds_of_delivered hsinks
          (Exec.delivered_deliver _ _ _ _) ?_ hanswer
        rw [hbelow]
        exact Nat.le_trans (Nat.le_of_lt hlower) hheight
    | error e =>
        refine hdeeperEnd.loopEnds_of_eq hanswer fun h'' =>
          hsinks.failed _ h'' ?_ e rfl
        exact Nat.lt_of_lt_of_le (hbelow ▸ hlower) hheight
  · exact h.loopEnds_of_exit hnext

theorem DeeperLoopsEnd.loopEnds_of_unwinding (hsinks : Sinks H height)
    {decorators : List Value} {e : ScriptError} (h : m.DeeperLoopsEnd)
    (hcontrol : m.control = .unwinding e decorators)
    (hheight : m.core.proc.frames.height ≤ height) : m.LoopEnds := by
  induction decorators generalizing m e with
  | nil => exact h.loopEnds_of_caught hsinks hcontrol hheight
  | cons d rest ih =>
      refine h.loopEnds_of_eq (next_of_shown hcontrol) fun h' => ?_
      obtain ⟨n, result, hanswers⟩ := h'.answers rfl
      have honward : Onward _ _ := ⟨⟨n, rfl⟩, hanswers.activations, hanswers.frames⟩
      refine honward.loopEnds ?_
      refine (h'.onward honward).loopEnds_of_eq
        (next_of_answering hanswers.control) fun h'' => ?_
      refine ih h'' rfl ?_
      exact Nat.le_trans (Nat.le_of_eq (congrArg Stack.height hanswers.frames)) hheight

theorem DeeperLoopsEnd.loopEnds_of_failed (h : m.DeeperLoopsEnd) (hsinks : Sinks H height)
    {e : RuntimeError} (hcontrol : m.control = .failed e)
    (hheight : m.core.proc.frames.height ≤ height) : m.LoopEnds := by
  have hnext := next_of_failed hcontrol
  cases e with
  | script e =>
      exact h.loopEnds_of_eq hnext fun h' =>
        h'.loopEnds_of_unwinding hsinks rfl hheight
  | _ => exact h.loopEnds_of_exit hnext

/-- A function that confirms a protected call hands its result on. -/
theorem DeeperLoopsEnd.loopEnds_of_confirming (h : m.DeeperLoopsEnd) (hsinks : Sinks H height)
    {f : NativeRef} {args : Arguments} {n : Native H} {frame : Frame}
    {rest : Stack Frame} (hcontrol : m.control = .loop (.invoke f args))
    (hn : m.core.world.native? f = some n) (hbody : n.body = .library .protectedOk)
    (hframes : m.core.proc.frames = rest.push frame) (hhandlers : frame.handlers = {})
    (hheight : rest.height ≤ height) : m.LoopEnds := by
  obtain ⟨v, hv⟩ : ∃ v, m.core.invoke f args = .done (.result v) :=
    ⟨_, Core.invoke_of_library args hn hbody⟩
  have hnext : m.next = ⟨m.core, m.activations, .running (.done (.result v))⟩ := by
    rw [← hv]
    exact next_of_loop hcontrol
  refine h.loopEnds_of_eq hnext fun h' => ?_
  have hloop : InLoop m.activations := by
    have hfits := h.neverAtRest.reachable.wellNested.control
    rw [hcontrol] at hfits
    exact hfits
  have hdone : (⟨m.core, m.activations, .running (.done (.result v))⟩ :
      Machine H).next = exec .loop (Exec.completeNative (.result v)) m.core m.activations :=
    act_done hloop _
  have hcompleted := Exec.completed_completeNative (.result v) m.core
  generalize hrun : Exec.completeNative (.result v) m.core = r at hcompleted
  cases hcompleted with
  | lost outcome hempty =>
      rw [hframes] at hempty
      cases hempty
  | returns frame' rest' hpush v hfinished =>
      obtain ⟨rfl, rfl⟩ := Stack.eq_of_push_eq (hframes.symm.trans hpush)
      cases hfinished with
      | delivered v? hpost hdelivered =>
          rw [← hrun] at hdelivered
          have hexec : exec .loop (Exec.completeNative (.result v)) m.core m.activations =
              exec .loop (fun _ => Exec.completeNative (.result v) m.core)
                { m.core with proc := { m.core.proc with frames := rest } }
                m.activations := rfl
          rw [hexec] at hdone
          exact h'.loopEnds_of_delivered hsinks hdelivered hheight hdone
      | continued g hg =>
          rw [hhandlers] at hg
          cases hg
      | notNumber hg hv =>
          rw [hhandlers] at hg
          cases hg

/-- A result goes through the function that confirms a protected call. -/
theorem DeeperLoopsEnd.loopEnds_of_continuing (h : m.DeeperLoopsEnd) (hsinks : Sinks H height)
    {f : NativeRef} {v : Value} {flags : FrameFlags} {returnAddress : Nat}
    (hcontrol : m.control =
      .loop (.tailCall { function := .native f, args := [v] } flags returnAddress))
    (hf : m.core.world.Confirms f)
    (hheight : m.core.proc.frames.height ≤ height) : m.LoopEnds := by
  obtain ⟨n, hn, hbody⟩ := h.neverAtRest.standard f hf
  have hnext : m.next = exec .loop (Exec.call (.native f) [v] flags returnAddress {})
      m.core m.activations := next_of_loop hcontrol
  by_cases hdepth :
      m.core.proc.frames.height < m.core.world.settings.maxCallDepth
  · have hrun := Exec.call_native_run f [v] flags returnAddress {} hdepth
    rw [exec_ok hrun] at hnext
    refine h.loopEnds_of_eq hnext fun h' => ?_
    exact h'.loopEnds_of_confirming hsinks rfl hn hbody rfl rfl hheight
  · have hcalled := Exec.called_call (.native f) [v] flags returnAddress {} m.core
    unfold exec at hnext
    generalize Exec.call (.native f) [v] flags returnAddress {} m.core = r
      at hcalled hnext
    cases hcalled with
    | failed e hhandler =>
        exact h.loopEnds_of_eq hnext fun h' =>
          h'.loopEnds_of_failed hsinks rfl hheight
    | recovered e handler hhandler => cases hhandler
    | entered g args hroom => exact absurd hroom hdepth
    | invoked g args hroom => exact absurd hroom hdepth

theorem DeeperLoopsEnd.loopEnds_of_finish (h : m.DeeperLoopsEnd) (hsinks : Sinks H height)
    {frame : Frame} {v : Value} (hcontrol : m.control = route.done (.finish frame v))
    (hheight : m.core.proc.frames.height ≤ height) : m.LoopEnds := by
  have hconfirms : (Outcome.finish frame v).ConfirmsOnly m.core.world := by
    have hconfirms := h.neverAtRest.reachable.confirmsOnly.loopsConfirmOnly.control
    rw [hcontrol] at hconfirms
    cases route <;> exact hconfirms
  have hnext := next_of_done_finish hcontrol
  have hfinished := Exec.finished_finish frame v m.core
  generalize hrun : Exec.finish frame v m.core = r at hfinished
  cases hfinished with
  | delivered v? hpost hdelivered =>
      rw [← hrun] at hdelivered
      exact h.loopEnds_of_delivered hsinks hdelivered hheight hnext
  | continued f hf =>
      rw [exec_ok hrun] at hnext
      exact h.loopEnds_of_done (by simp) hnext fun h' =>
        h'.loopEnds_of_continuing hsinks rfl (hconfirms f hf) hheight
  | notNumber hlength hv =>
      rw [exec_error hrun] at hnext
      cases route with
      | loop => exact h.loopEnds_of_eq hnext fun h' => h'.loopEnds_of_failed hsinks rfl hheight
      | settling => exact h.loopEnds_of_exit hnext

/-- Errors and results use up frames. -/
theorem sinks (height : Nat) : Sinks H height := by
  induction height with
  | zero =>
      exact ⟨fun m _ hheight => absurd hheight (Nat.not_lt_zero _),
        fun m _ hheight => absurd hheight (Nat.not_lt_zero _)⟩
  | succ height ih =>
      exact
        { failed := fun m h hheight e hcontrol =>
            h.loopEnds_of_failed ih hcontrol (Nat.le_of_lt_succ hheight)
          finish := fun m h hheight route frame v hcontrol =>
            h.loopEnds_of_finish ih hcontrol (Nat.le_of_lt_succ hheight) }

theorem DeeperLoopsEnd.fails (h : m.DeeperLoopsEnd) {e : RuntimeError}
    (hcontrol : m.control = .failed e) :
    m.LoopEnds := by
  have hsinks := sinks (H := H) (m.core.proc.frames.height + 1)
  exact hsinks.failed m h (Nat.lt_succ_self _) e hcontrol

theorem DeeperLoopsEnd.finishes (h : m.DeeperLoopsEnd) (route : Route) {frame : Frame} {v : Value}
    (hcontrol : m.control = route.done (.finish frame v)) : m.LoopEnds := by
  have hsinks := sinks (H := H) (m.core.proc.frames.height + 1)
  exact hsinks.finish m h (Nat.lt_succ_self _) route frame v hcontrol

theorem DeeperLoopsEnd.delivers (h : m.DeeperLoopsEnd) {core : Core H} {flags : FrameFlags}
    {returnAddress : Nat} {v? : Option Value} {x : Exec H Outcome}
    (hdelivered : Exec.Delivered core flags returnAddress v? (x core))
    (hnext : m.next = exec route x core m.activations) : m.LoopEnds :=
  h.loopEnds_of_delivered (sinks _) hdelivered (Nat.le_refl _) hnext

theorem DeeperLoopsEnd.yields (h : m.DeeperLoopsEnd) {v : Value}
    (hcontrol : m.control = .loop (.yield v)) :
    m.LoopEnds := by
  have hnext := next_of_loop hcontrol
  unfold afterOutcome at hnext
  dsimp only at hnext
  rcases checkYield_cases m.core with hrun | ⟨violation, hrun⟩
  · rw [hrun] at hnext
    exact h.loopEnds_of_exit hnext
  · rw [hrun] at hnext
    exact h.loopEnds_of_eq hnext fun h' => h'.fails rfl

/-! ## Calls that fail before they have a frame -/

/-- An error handler answers a call that had no frame. -/
theorem DeeperLoopsEnd.loopEnds_of_recovering (h : m.DeeperLoopsEnd) {function : Value}
    {args : List Value} {flags : FrameFlags} {returnAddress : Nat}
    (hcontrol : m.control = .calling function args (.recovered flags returnAddress)) :
    m.LoopEnds := by
  obtain ⟨n, result, hanswers⟩ := h.answers hcontrol
  have honward : m.Onward _ := ⟨⟨n, rfl⟩, hanswers.activations, hanswers.frames⟩
  refine honward.loopEnds ?_
  have hdeeperEnd := h.onward honward
  have hanswer := next_of_answering hanswers.control
  cases result with
  | ok v => exact hdeeperEnd.delivers (Exec.delivered_deliver _ _ _ _) hanswer
  | error e => exact hdeeperEnd.loopEnds_of_eq hanswer fun h' => h'.fails rfl

theorem DeeperLoopsEnd.loopEnds_of_refused (h : m.DeeperLoopsEnd) {function : Value}
    {args : List Value} {e : ScriptError} {handler : NativeRef} {flags : FrameFlags}
    {returnAddress : Nat} (hcontrol : m.control =
      .calling function args (.refused e handler flags returnAddress)) :
    m.LoopEnds := by
  obtain ⟨n, result, hanswers⟩ := h.answers hcontrol
  have honward : m.Onward _ := ⟨⟨n, rfl⟩, hanswers.activations, hanswers.frames⟩
  refine honward.loopEnds ?_
  refine (h.onward honward).loopEnds_of_eq (next_of_answering hanswers.control) ?_
  exact fun h' => h'.loopEnds_of_recovering rfl

theorem DeeperLoopsEnd.recovers (h : m.DeeperLoopsEnd) {e : ScriptError} {decorator? : Option Value}
    {handler : NativeRef} {flags : FrameFlags} {returnAddress : Nat}
    (hcontrol : m.control =
      .loop (.recover e decorator? handler flags returnAddress)) : m.LoopEnds := by
  have hnext := next_of_loop hcontrol
  cases decorator? with
  | none => exact h.loopEnds_of_eq hnext fun h' => h'.loopEnds_of_recovering rfl
  | some d => exact h.loopEnds_of_eq hnext fun h' => h'.loopEnds_of_refused rfl

/-- A call that is made in the loop: all that is left is a host function. -/
theorem DeeperLoopsEnd.loopEnds_of_called (h : m.DeeperLoopsEnd) {core : Core H}
    {flags : FrameFlags}
    {returnAddress : Nat} {handlers : Handlers} {x : Exec H Outcome}
    (hcalled : Exec.Called core flags returnAddress handlers (x core))
    (hnext : m.next = exec .loop x core m.activations)
    (hinvoked : ∀ f args,
      core.proc.frames.height < core.world.settings.maxCallDepth →
        m.next = ⟨{ core with
            proc := core.proc.pushFrame
              { callee := .native f, base := core.proc.stack.height, returnAddress
                flags, handlers } }, m.activations, .loop (.invoke f args)⟩ →
          m.next.LoopEnds) : m.LoopEnds := by
  unfold exec at hnext
  generalize x core = r at hcalled hnext
  cases hcalled with
  | failed e hhandler => exact h.loopEnds_of_eq hnext fun h' => h'.fails rfl
  | recovered e handler hhandler =>
      exact h.loopEnds_of_eq hnext fun h' => h'.recovers rfl
  | entered f args hdepth => exact h.loopEnds_of_proceed hnext
  | invoked f args hdepth =>
      have hactivations : m.next.activations = m.activations := by rw [hnext]
      exact loopEnds_of_next hactivations (hinvoked f args hdepth hnext)

/-! ## Host functions -/

/-- A host function comes to its end, with its frame as it was. -/
theorem DeeperLoopsEnd.runs {P : NativeOutcome → Prop} {a : Action H NativeOutcome}
    (h : m.DeeperLoopsEnd) (hcontrol : m.control = .running a) (ha : a.Ends P) :
    ∃ m', m.Onward m' ∧ ((∃ e, m'.control = .running (.fail e)) ∨
      ∃ o, m'.control = .running (.done o) ∧ P o) := by
  have hdomestic := (h.neverAtRest.confirmsOnly hcontrol).domestic
  -- By what the function does next.  A call and a resume have less room, so they come back,
  -- with the frames and loops as they were.
  induction a generalizing m with
  | done o => exact ⟨m, .refl m, Or.inr ⟨o, hcontrol, ha⟩⟩
  | fail e => exact ⟨m, .refl m, Or.inl ⟨e, hcontrol⟩⟩
  | read next ih =>
      have hnext : m.next = ⟨m.core, m.activations, .running (next m.core.world)⟩ :=
        next_of_running hcontrol
      have honward : m.Onward m.next := onward_next (by rw [hnext]) (by rw [hnext])
      obtain ⟨m', honward', hends⟩ := ih _ (h.onward honward) (by rw [hnext])
        (ha _) (hdomestic _)
      exact ⟨m', honward.trans honward', hends⟩
  | write change next ih =>
      have hnext : m.next = ⟨⟨change m.core.world, m.core.proc⟩, m.activations,
          .running next⟩ := next_of_running hcontrol
      have honward : m.Onward m.next := onward_next (by rw [hnext]) (by rw [hnext])
      obtain ⟨m', honward', hends⟩ := ih (h.onward honward) (by rw [hnext]) ha
        hdomestic.2
      exact ⟨m', honward.trans honward', hends⟩
  | call function args next ih =>
      have hnext : m.next = ⟨m.core, m.activations,
          .calling function args (.action next)⟩ := next_of_running hcontrol
      have honward : m.Onward m.next := onward_next (by rw [hnext]) (by rw [hnext])
      have hdeeperEnd := h.onward honward
      have hcalling : m.next.control = .calling function args (.action next) := by
        rw [hnext]
      obtain ⟨n, result, hanswers⟩ := hdeeperEnd.answers hcalling
      have hback : m.next.Onward (m.next.after n) :=
        ⟨⟨n, rfl⟩, hanswers.activations, hanswers.frames⟩
      have hgoes : (m.next.after n).next = ⟨(m.next.after n).core,
          (m.next.after n).activations, .running (next result)⟩ :=
        next_of_answering hanswers.control
      have hagain : (m.next.after n).Onward (m.next.after n).next :=
        onward_next (by rw [hgoes]) (by rw [hgoes])
      obtain ⟨m', honward', hends⟩ := ih result
        ((hdeeperEnd.onward hback).onward hagain) (by rw [hgoes]) (ha result)
        (hdomestic result)
      exact ⟨m', ((honward.trans hback).trans hagain).trans honward', hends⟩
  | resume r args next ih =>
      obtain ⟨n, hback⟩ := h.comesBack hcontrol
      obtain ⟨result, hresult⟩ := hback.control
      have honward : m.Onward (m.after n) :=
        ⟨⟨n, rfl⟩, hback.activations, by rw [hback.processor]⟩
      obtain ⟨m', honward', hends⟩ := ih result (h.onward honward) hresult
        (ha result) (hdomestic result)
      exact ⟨m', honward.trans honward', hends⟩
  | enterMain function args next ih => exact False.elim hdomestic

omit [LibraryOnly H] in
theorem DeeperLoopsEnd.inLoop_of_running (h : m.DeeperLoopsEnd) {a : Action H NativeOutcome}
    (hcontrol : m.control = .running a) : InLoop m.activations := by
  have hfits := h.neverAtRest.reachable.wellNested.control
  rw [hcontrol] at hfits
  exact hfits.1.resolve_left h.neverAtRest.activations_ne

/-- The function ends, and a call that it asks for in its place is all that there is
to say more about. -/
theorem DeeperLoopsEnd.loopEnds_of_running {P : TailCallRequest → Prop}
    {a : Action H NativeOutcome} (h : m.DeeperLoopsEnd) (hcontrol : m.control = .running a)
    (ha : a.Asks P)
    (hasks : ∀ m' request, m.Onward m' →
      m'.control = .running (.done (.tailCall request)) → P request → m'.LoopEnds) :
    m.LoopEnds := by
  obtain ⟨m', honward, hends⟩ := h.runs hcontrol ha
  refine honward.loopEnds ?_
  have hdeeperEnd := h.onward honward
  rcases hends with ⟨e, hfail⟩ | ⟨outcome, hdone, hP⟩
  · have hnext := next_of_running hfail
    rw [act_fail (hdeeperEnd.inLoop_of_running hfail)] at hnext
    exact hdeeperEnd.loopEnds_of_eq hnext fun h' => h'.fails rfl
  · cases outcome with
    | tailCall request => exact hasks m' request honward hdone hP
    | result v =>
        have hnext := next_of_running hdone
        rw [act_done (hdeeperEnd.inLoop_of_running hdone)] at hnext
        have hcompleted := Exec.completed_completeNative (.result v) m'.core
        generalize hrun : Exec.completeNative (.result v) m'.core = r at hcompleted
        cases hcompleted with
        | lost outcome hempty =>
            rw [exec_error hrun] at hnext
            exact hdeeperEnd.loopEnds_of_eq hnext fun h' => h'.fails rfl
        | returns frame rest hframes v hfinished =>
            cases hfinished with
            | delivered v? hpost hdelivered =>
                rw [← hrun] at hdelivered
                exact hdeeperEnd.delivers
                  (x := fun _ => Exec.completeNative (.result v) m'.core)
                  hdelivered hnext
            | continued f hf =>
                rw [exec_ok hrun] at hnext
                have hreachable := hdeeperEnd.neverAtRest.reachable
                have hconfirms := hreachable.confirmsOnly.loopsConfirmOnly.proc
                refine hdeeperEnd.loopEnds_of_eq hnext fun h' =>
                  h'.loopEnds_of_continuing (sinks _) rfl ?_ (Nat.le_refl _)
                exact Exec.confirmsOnly_top hconfirms hframes f hf
            | notNumber hlength hv =>
                rw [exec_error hrun] at hnext
                exact hdeeperEnd.loopEnds_of_eq hnext fun h' => h'.fails rfl
    | yield v =>
        have hnext := next_of_running hdone
        rw [act_done (hdeeperEnd.inLoop_of_running hdone)] at hnext
        have hcompleted := Exec.completed_completeNative (.yield v) m'.core
        unfold exec at hnext
        generalize Exec.completeNative (.yield v) m'.core = r at hcompleted hnext
        cases hcompleted with
        | lost outcome hempty =>
            exact hdeeperEnd.loopEnds_of_eq hnext fun h' => h'.fails rfl
        | yields frame rest hframes v =>
            exact hdeeperEnd.loopEnds_of_eq hnext fun h' => h'.yields rfl

end Machine

end ScriptEngine
