import ScriptEngine.Proofs.Polling.Reaching

/-!
# The only way never to look at an instruction

A host function that asks for a call in its own place leaves less room for
frames or gives up the last thing its frame had to do, but for `pairs` in a frame
that has nothing to do.  So a loop that does not come to an instruction goes
round `pairs`, and no other loop is out of the reach of the host's request to
stop.
-/

namespace ScriptEngine

variable {H : HostTypes} [Host H]

namespace Machine

variable {m : Machine H}

/-- The frame on top has nothing left to do. -/
def idle (m : Machine H) : Bool :=
  match m.core.proc.frames.top? with
  | some frame => frame.handlers.isEmpty
  | none => false

/-- How much calls may still ask for in their own place. -/
def spare (m : Machine H) : Nat :=
  2 * (m.core.world.settings.maxCallDepth - m.core.proc.frames.height) + m.idle.toNat

def Invokes (m : Machine H) : Prop :=
  ∃ f args, m.control = .loop (.invoke f args)

omit [Host H] in
theorem idle_of_push {frame : Frame} {rest : Stack Frame}
    (h : m.core.proc.frames = rest.push frame) : m.idle = frame.handlers.isEmpty := by
  unfold idle
  rw [h]
  rfl

omit [Host H] in
theorem push_of_idle (h : m.idle = true) :
    ∃ frame rest, m.core.proc.frames = Stack.push rest frame ∧
      frame.handlers.isEmpty = true := by
  rcases Exec.frames_cases m.core with hempty | ⟨frame, rest, hframes⟩
  · have htop : m.core.proc.frames.top? = none := by
      unfold Stack.top?
      rw [hempty]
      rfl
    unfold idle at h
    rw [htop] at h
    cases h
  · exact ⟨frame, rest, hframes, (idle_of_push hframes).symm.trans h⟩

theorem Onward.idle_eq {m' : Machine H} (h : m.Onward m') : m'.idle = m.idle := by
  unfold idle
  rw [h.frames]

variable [LawfulHost H] [LibraryOnly H]

omit [LibraryOnly H] in
theorem Onward.spare_eq {m' : Machine H} (h : m.Onward m') (hm : m.NeverAtRest) :
    m'.spare = m.spare := by
  have hidle := h.idle_eq
  have hframes := h.frames
  obtain ⟨n, rfl⟩ := h.later
  unfold spare
  rw [hidle, hframes, hm.settings_after]

/-- The handlers of the call that is asked for. -/
def handlersOf (request : TailCallRequest) : Handlers :=
  { continuation? := request.continuation?.map .native
    errorHandler? := request.errorHandler?
    beforeUnwind? := request.beforeUnwind? }

/-- A call in place of a host function costs something, unless neither has anything
to do afterwards. -/
theorem DeeperLoopsEnd.loopEnds_of_asking (h : m.DeeperLoopsEnd) {request : TailCallRequest}
    (hcontrol : m.control = .running (.done (.tailCall request)))
    (hinvoked : ∀ m' : Machine H, m'.DeeperLoopsEnd → m'.Invokes →
      ((handlersOf request).isEmpty = false ∨ m.idle = false → m'.spare < m.spare) →
        m'.LoopEnds) : m.LoopEnds := by
  have hnext := next_of_running hcontrol
  rw [act_done (h.inLoop_of_running hcontrol)] at hnext
  have hcompleted := Exec.completed_completeNative (.tailCall request) m.core
  unfold exec at hnext
  generalize Exec.completeNative (.tailCall request) m.core = r at hcompleted hnext
  -- The call that is made then, on some frames.
  have hcalls {frames : Stack Frame} {flags : FrameFlags} {returnAddress : Nat}
      (hnext : m.next = ⟨{ m.core with proc := { m.core.proc with frames } },
        m.activations, .loop (.tailCall request flags returnAddress)⟩)
      (hspare : frames.height < m.core.world.settings.maxCallDepth →
        (handlersOf request).isEmpty = false ∨ m.idle = false →
          2 * (m.core.world.settings.maxCallDepth - (frames.height + 1)) +
            (handlersOf request).isEmpty.toNat < m.spare) : m.LoopEnds := by
    refine h.loopEnds_of_eq hnext fun h' => ?_
    refine h'.loopEnds_of_called (Exec.called_call _ _ _ _ (handlersOf request) _)
      rfl fun f args hdepth hinvoke => ?_
    refine hinvoked _ (h'.next (by rw [hinvoke])) ⟨f, args, by rw [hinvoke]⟩ ?_
    rw [hinvoke]
    exact hspare hdepth
  cases hcompleted with
  | lost outcome hempty => exact h.loopEnds_of_eq hnext fun h' => h'.fails rfl
  | replaced frame rest hframes hhandlers request =>
      have hidle : m.idle = true := (idle_of_push hframes).trans hhandlers
      refine hcalls hnext fun hdepth hbusy => ?_
      have hempty : (handlersOf request).isEmpty = false :=
        hbusy.resolve_right (by simp [hidle])
      unfold spare
      rw [hempty, hidle, hframes, Stack.height_push]
      exact Nat.lt_succ_self _
  | waits frame rest hframes hhandlers request =>
      refine hcalls hnext fun hdepth _ => ?_
      rw [Stack.height_push] at hdepth ⊢
      unfold spare
      rw [hframes, Stack.height_push]
      have hflag := Bool.toNat_le (handlersOf request).isEmpty
      omega

/-! ## `pairs` -/

omit [Host H] [LawfulHost H] [LibraryOnly H] in
/-- Protected calls have something to do afterwards. -/
theorem handlersOf_isEmpty {g : LibraryFunction} {request : TailCallRequest}
    (h : g.Requests request) (hg : ∀ nextEntry, g ≠ .pairs nextEntry) :
    (handlersOf request).isEmpty = false := by
  have hcontinues {ok : NativeRef} (hok : request.continuation? = some ok) :
      (handlersOf request).isEmpty = false := by
    unfold handlersOf
    rw [hok]
    rfl
  cases g with
  | pcall ok failed => exact hcontinues h
  | xpcall ok failed => exact hcontinues h
  | pairs nextEntry => exact absurd rfl (hg nextEntry)
  | _ => exact False.elim h

/-- The function runs next, on the same frames. -/
theorem DeeperLoopsEnd.onward_of_invoke (h : m.DeeperLoopsEnd) {f : NativeRef} {args : Arguments}
    (hcontrol : m.control = .loop (.invoke f args)) :
    m.Onward m.next ∧ m.next.DeeperLoopsEnd ∧
      m.next.control = .running (m.core.invoke f args) := by
  have hnext : m.next = ⟨m.core, m.activations, .running (m.core.invoke f args)⟩ :=
    next_of_loop hcontrol
  have honward : m.Onward m.next := onward_next (by rw [hnext]) (by rw [hnext])
  exact ⟨honward, h.onward honward, by rw [hnext]⟩

/-- A function of the library all of whose calls cost something. -/
theorem DeeperLoopsEnd.loopEnds_of_costly (h : m.DeeperLoopsEnd) {f : NativeRef} {args : Arguments}
    {native : Native H} {g : LibraryFunction}
    (hcontrol : m.control = .loop (.invoke f args))
    (hnative : m.core.world.native? f = some native)
    (hbody : native.body = .library g)
    (hcosts : ∀ request, g.Requests request →
      (handlersOf request).isEmpty = false ∨ m.idle = false)
    (hless : ∀ m' : Machine H, m'.DeeperLoopsEnd → m'.Invokes → m'.spare < m.spare →
      m'.LoopEnds) : m.LoopEnds := by
  obtain ⟨honward, hdeeperEnd, hrunning⟩ := h.onward_of_invoke hcontrol
  rw [Core.invoke_of_library args hnative hbody] at hrunning
  refine honward.loopEnds ?_
  refine hdeeperEnd.loopEnds_of_running hrunning (g.ends_action _ args)
    fun m' request hm' hdone hrequest => ?_
  have hall := honward.trans hm'
  refine (h.onward hall).loopEnds_of_asking hdone fun m'' h'' hinvokes hspare => ?_
  refine hless m'' h'' hinvokes ?_
  rw [← hall.spare_eq h.neverAtRest]
  refine hspare ?_
  rw [hall.idle_eq]
  exact hcosts request hrequest

/-- `pairs` of a value that has no definition of it asks for no call. -/
theorem DeeperLoopsEnd.loopEnds_of_undefined (h : m.DeeperLoopsEnd) {f : NativeRef}
    {args : Arguments}
    {native : Native H} {nextEntry : NativeRef}
    (hcontrol : m.control = .loop (.invoke f args))
    (hnative : m.core.world.native? f = some native)
    (hbody : native.body = .library (.pairs nextEntry))
    (hdefinition : m.core.world.hook? (args.get 0) .pairs = none) : m.LoopEnds := by
  obtain ⟨honward, hdeeperEnd, hrunning⟩ := h.onward_of_invoke hcontrol
  rw [Core.invoke_of_library args hnative hbody] at hrunning
  refine honward.loopEnds ?_
  have hworld : m.next.core.world = m.core.world := by
    rw [next_of_loop hcontrol]
    rfl
  have hread := next_of_running hrunning
  let answer : Action H NativeOutcome := do
    let t ← .ofScript (args.asType 0 "pairs" .table false)
    Library.results [.native nextEntry, t, .nil]
  have hanswer : m.next.next = ⟨m.next.core, m.next.activations, .running answer⟩ := by
    rw [hread]
    change (⟨m.next.core, m.next.activations, .running (Action.bind
      (.done (m.next.core.world.hook? (args.get 0) .pairs)) _)⟩ : Machine H) = _
    rw [hworld, hdefinition]
    rfl
  have hasks : answer.Asks fun _ => False :=
    Action.ends_bind fun _ => Library.ends_results _
  exact hdeeperEnd.loopEnds_of_eq hanswer fun h' =>
    h'.loopEnds_of_running rfl hasks fun _ _ _ _ => False.elim

/-- Where `pairs` does not redirect its call, whatever is called in place of a host
function costs something. -/
theorem DeeperLoopsEnd.loopEnds_of_straight (h : m.DeeperLoopsEnd) (hinvokes : m.Invokes)
    (hstraight : ¬∃ definition subject frame rest,
      m.Redirects definition subject frame rest)
    (hless : ∀ m' : Machine H, m'.DeeperLoopsEnd → m'.Invokes → m'.spare < m.spare →
      m'.LoopEnds) : m.LoopEnds := by
  obtain ⟨f, args, hcontrol⟩ := hinvokes
  cases hnative : m.core.world.native? f with
  | none =>
      obtain ⟨honward, hdeeperEnd, hrunning⟩ := h.onward_of_invoke hcontrol
      rw [Core.invoke_of_none args hnative] at hrunning
      refine honward.loopEnds ?_
      exact hdeeperEnd.loopEnds_of_running (P := fun _ => False) hrunning trivial
        fun _ _ _ _ => False.elim
  | some native =>
      cases hbody : native.body with
      | host g => exact (LibraryOnly.none g).elim
      | library g =>
          have hcostly := h.loopEnds_of_costly hcontrol hnative hbody
          by_cases hpairs : ∃ nextEntry, g = .pairs nextEntry
          · obtain ⟨nextEntry, rfl⟩ := hpairs
            cases hidle : m.idle with
            | false => exact hcostly (fun _ _ => Or.inr hidle) hless
            | true =>
                obtain ⟨frame, rest, hframes, hempty⟩ := push_of_idle hidle
                cases hdefinition : m.core.world.hook? (args.get 0) .pairs with
                | none =>
                    exact h.loopEnds_of_undefined hcontrol hnative hbody hdefinition
                | some definition =>
                    have hloop := h.neverAtRest.reachable.wellNested.control
                    rw [hcontrol] at hloop
                    exact absurd ⟨definition, args.get 0, frame, rest,
                      { loop := hloop
                        control := ⟨f, args, native, nextEntry, hcontrol, hnative,
                          hbody, rfl⟩
                        definition := hdefinition
                        frames := hframes
                        idle := hempty }⟩ hstraight
          · refine hcostly (fun request hrequest => Or.inl ?_) hless
            exact handlersOf_isEmpty hrequest fun nextEntry hg => hpairs ⟨nextEntry, hg⟩

/-- After a round of `pairs` a host function is invoked on as many frames. -/
theorem DeeperLoopsEnd.round (h : m.DeeperLoopsEnd) (hnot : ¬m.LoopEnds)
    {definition subject : Value}
    {frame : Frame} {rest : Stack Frame}
    (hredirects : m.Redirects definition subject frame rest) :
    (m.after 4).activations = m.activations ∧ (m.after 4).Invokes ∧
      (m.after 4).spare = m.spare := by
  have hquiet := hredirects.quiet 3 (by decide)
  have hthird := h.after hquiet.1
  have hnext : (m.after 3).next = exec .loop (Exec.call definition [subject]
      { entryPoint := frame.flags.entryPoint, tailCall := true }
      frame.returnAddress {})
      { m.core with proc := { m.core.proc with frames := rest } }
      (m.after 3).activations := by
    rw [hquiet.1]
    exact hredirects.after_four
  have hactivations : (m.after 4).activations = m.activations := by
    change (m.after 3).next.activations = _
    rw [hnext, exec_activations]
    exact hquiet.1
  refine ⟨hactivations, ?_⟩
  apply Classical.byContradiction
  intro hother
  apply hnot
  refine loopEnds_of_after 3 (Nat.le_of_eq (congrArg List.length hquiet.1)) ?_
  refine hthird.loopEnds_of_called (Exec.called_call _ _ _ _ _ _) hnext
    fun f args hdepth hinvoke => ?_
  apply absurd _ hother
  refine ⟨⟨f, args, ?_⟩, ?_⟩
  · change (m.after 3).next.control = _
    rw [hinvoke]
  · have hidle : m.idle = true := (idle_of_push hredirects.frames).trans hredirects.idle
    have hsettings := h.neverAtRest.settings_after 4
    change (m.after 3).next.spare = _
    rw [hinvoke]
    unfold spare
    rw [hidle, hredirects.frames]
    rfl

/-- `pairs` does not go round for ever, so something else comes of it. -/
theorem DeeperLoopsEnd.loopEnds_of_redirecting (h : m.DeeperLoopsEnd) {definition subject : Value}
    {frame : Frame} {rest : Stack Frame}
    (hredirects : m.Redirects definition subject frame rest)
    (hless : ∀ m' : Machine H, m'.DeeperLoopsEnd → m'.Invokes → m'.spare < m.spare →
      m'.LoopEnds) : m.LoopEnds := by
  apply Classical.byContradiction
  intro hnot
  -- A round that does not end in another redirection leaves less to spare, and from there
  -- the loop ends.
  have hround (k : Nat) : (m.after (4 * k)).activations = m.activations ∧
      (m.after (4 * k)).spare = m.spare ∧
      ∃ definition subject frame rest,
        (m.after (4 * k)).Redirects definition subject frame rest := by
    induction k with
    | zero => exact ⟨rfl, rfl, definition, subject, frame, rest, hredirects⟩
    | succ k ih =>
        obtain ⟨hactivations, hspare, definition, subject, frame, rest, hcircling⟩ := ih
        have hlength := Nat.le_of_eq (congrArg List.length hactivations)
        have hdeeperEnd := h.after hactivations
        have hstill : ¬(m.after (4 * k)).LoopEnds := fun hloopEnds =>
          hnot (loopEnds_of_after (4 * k) hlength hloopEnds)
        obtain ⟨hactivations', hinvokes, hspare'⟩ := hdeeperEnd.round hstill hcircling
        have hsplit : m.after (4 * (k + 1)) = (m.after (4 * k)).after 4 :=
          after_add m _ 4
        rw [hsplit]
        refine ⟨hactivations'.trans hactivations, hspare'.trans hspare, ?_⟩
        apply Classical.byContradiction
        intro hstraight
        have hloopEnds := (hdeeperEnd.after hactivations').loopEnds_of_straight hinvokes
          hstraight fun m' h' hinvokes' hlower =>
            hless m' h' hinvokes' (hspare ▸ hspare' ▸ hlower)
        exact hstill (loopEnds_of_after 4
          (Nat.le_of_eq (congrArg List.length hactivations')) hloopEnds)
  exact h.neverAtRest.never 0 (.circles fun k => (hround k).2.2)

theorem DeeperLoopsEnd.loopEnds_of_invoke (h : m.DeeperLoopsEnd) (hinvokes : m.Invokes) :
    m.LoopEnds := by
  induction hspare : m.spare using Nat.strongRecOn generalizing m with
  | ind spare ih =>
      have hless : ∀ m' : Machine H, m'.DeeperLoopsEnd → m'.Invokes → m'.spare < m.spare →
          m'.LoopEnds := fun m' h' hinvokes' hlower =>
        ih m'.spare (hspare ▸ hlower) h' hinvokes' rfl
      by_cases hredirects : ∃ definition subject frame rest,
          m.Redirects definition subject frame rest
      · obtain ⟨definition, subject, frame, rest, hredirects⟩ := hredirects
        exact h.loopEnds_of_redirecting hredirects hless
      · exact h.loopEnds_of_straight hinvokes hredirects hless

/-! ## All states -/

theorem DeeperLoopsEnd.loopEnds_of_loop (h : m.DeeperLoopsEnd) {o : Outcome}
    (hcontrol : m.control = .loop o) : m.LoopEnds := by
  have hnext := next_of_loop hcontrol
  cases o with
  | proceed => exact absurd hcontrol h.neverAtRest.not_polls
  | finish frame v => exact h.finishes .loop hcontrol
  | invoke f args => exact h.loopEnds_of_invoke ⟨f, args, hcontrol⟩
  | recover e decorator? handler flags returnAddress => exact h.recovers hcontrol
  | tailCall request flags returnAddress =>
      refine h.loopEnds_of_called (Exec.called_call _ _ _ _ (handlersOf request) _)
        hnext fun f args hdepth hinvoke => ?_
      refine (h.next (by rw [hinvoke])).loopEnds_of_invoke ⟨f, args, ?_⟩
      rw [hinvoke]
  | yield v => exact h.yields hcontrol
  | forceYield => exact h.loopEnds_of_exit hnext
  | «return» v => exact h.loopEnds_of_exit hnext

theorem DeeperLoopsEnd.loopEnds_of_action (h : m.DeeperLoopsEnd) {a : Action H NativeOutcome}
    (hcontrol : m.control = .running a) : m.LoopEnds := by
  refine h.loopEnds_of_running hcontrol (h.neverAtRest.confirmsOnly hcontrol).asks
    fun m' request hm' hdone _ => ?_
  exact (h.onward hm').loopEnds_of_asking hdone
    fun m'' h'' hinvokes _ => h''.loopEnds_of_invoke hinvokes

theorem DeeperLoopsEnd.loopEnds_of_settlement (h : m.DeeperLoopsEnd) {o : Outcome}
    (hcontrol : m.control = .settling o) : m.LoopEnds := by
  have hnext := next_of_settling hcontrol
  cases o with
  | finish frame v => exact h.finishes .settling hcontrol
  | _ => exact h.loopEnds_of_eq hnext fun h' => h'.loopEnds_of_loop rfl

theorem DeeperLoopsEnd.loopEnds_of_answer (h : m.DeeperLoopsEnd) {waiter : Waiter H}
    {result : Except RuntimeError Value}
    (hcontrol : m.control = .answering waiter result) : m.LoopEnds := by
  have hnext := next_of_answering hcontrol
  cases waiter with
  | action next => exact h.loopEnds_of_eq hnext fun h' => h'.loopEnds_of_action rfl
  | decorated e rest =>
      exact h.loopEnds_of_eq hnext fun h' =>
        h'.loopEnds_of_unwinding (sinks _) rfl (Nat.le_refl _)
  | refused e handler flags returnAddress =>
      exact h.loopEnds_of_eq hnext fun h' => h'.loopEnds_of_recovering rfl
  | recovered flags returnAddress =>
      cases result with
      | ok v => exact h.delivers (Exec.delivered_deliver _ _ _ _) hnext
      | error e => exact h.loopEnds_of_eq hnext fun h' => h'.fails rfl
  | caught flags returnAddress =>
      cases result with
      | ok v =>
          exact h.delivers (Exec.delivered_deliver _ _ _ _) hnext
      | error e => exact h.loopEnds_of_eq hnext fun h' => h'.fails rfl
  | processor => exact h.loopEnds_of_eq hnext fun h' => h'.loopEnds_of_switching rfl

theorem DeeperLoopsEnd.loopEnds (h : m.DeeperLoopsEnd) : m.LoopEnds := by
  cases hcontrol : m.control with
  | loop o => exact h.loopEnds_of_loop hcontrol
  | failed e => exact h.fails hcontrol
  | unwinding e decorators =>
      exact h.loopEnds_of_unwinding (sinks _) hcontrol (Nat.le_refl _)
  | calling function args waiter =>
      obtain ⟨n, result, hanswers⟩ := h.answers hcontrol
      have honward : m.Onward _ := ⟨⟨n, rfl⟩, hanswers.activations, hanswers.frames⟩
      exact honward.loopEnds ((h.onward honward).loopEnds_of_answer hanswers.control)
  | leaving exit => exact h.loopEnds_of_leaving hcontrol
  | answering waiter result => exact h.loopEnds_of_answer hcontrol
  | switching exit => exact h.loopEnds_of_switching hcontrol
  | running a => exact h.loopEnds_of_action hcontrol
  | settling o => exact h.loopEnds_of_settlement hcontrol
  | finished result =>
      have hfits := h.neverAtRest.reachable.wellNested.control
      rw [hcontrol] at hfits
      exact absurd hfits h.neverAtRest.activations_ne

theorem NeverAtRest.loopEnds (h : m.NeverAtRest) : m.LoopEnds := by
  -- On how much deeper loops may nest: those begun inside are settled.
  induction hroom : m.room using Nat.strongRecOn generalizing m with
  | ind room ih =>
      have hdeeperEnd : m.DeeperLoopsEnd :=
        ⟨h, fun m' h' hlower => ih m'.room (hroom ▸ hlower) h' rfl⟩
      exact hdeeperEnd.loopEnds

/-- Every engine comes to rest. -/
theorem not_neverAtRest (m : Machine H) : ¬m.NeverAtRest := by
  intro h
  -- On the number of loops that are open: when the innermost one has ended, the engine still
  -- never comes to rest, and with none open the host itself goes on.
  induction hlength : m.activations.length using Nat.strongRecOn generalizing m with
  | ind length ih =>
      obtain ⟨n, hn⟩ := h.loopEnds
      exact ih _ (hlength ▸ hn) _ (h.after n) rfl

/-- In every state of an engine that runs nothing but its library, whatever the
values and metatables of its scripts: the innermost loop comes to an instruction,
where it looks at the host's request to stop, or the host itself goes on, or the
loop goes round `pairs` and does neither ever again. -/
theorem Reachable.reaches (h : m.Reachable) (hstandard : m.core.world.Standard) :
    ∃ n, ((m.after n).control = .loop .proceed ∧
        ((m.after n).core.world.cancelled = true →
          (m.after (n + 1)).control = .failed .terminated)) ∨
      (m.after n).activations = [] ∨
      (m.after n).Circles ∧ ∀ k, ((m.after n).after k).activations ≠ [] ∧
        ((m.after n).after k).control ≠ .loop .proceed := by
  have hsettles : ∃ n, (m.after n).AtRest := by
    apply Classical.byContradiction
    intro hnever
    exact not_neverAtRest m ⟨h, hstandard, fun n hn => hnever ⟨n, hn⟩⟩
  obtain ⟨n, hsettled⟩ := hsettles
  refine ⟨n, ?_⟩
  cases hsettled with
  | polls hpolls =>
      refine Or.inl ⟨hpolls, fun hcancelled => ?_⟩
      change (m.after n).next.control = _
      rw [next_of_loop hpolls]
      change (exec .loop Exec.poll _ _).control = _
      unfold exec Exec.poll
      rw [Exec.run_bind_of_ok (Exec.ask_run _ _), if_pos hcancelled]
      rfl
  | host hnil => exact Or.inr (Or.inl hnil)
  | circles hcircles =>
      refine Or.inr (Or.inr ⟨hcircles, fun k => ?_⟩)
      have hquiet := hcircles.quiet k
      rw [hquiet.1]
      obtain ⟨definition, subject, frame, rest, hredirects⟩ := hcircles 0
      refine ⟨fun hnil => ?_, hquiet.2⟩
      have hloop := hredirects.loop
      change InLoop (m.after n).activations at hloop
      rw [hnil] at hloop
      exact not_inLoop_nil hloop

/-- The host makes a protected call of `type`, which gets no argument and fails. -/
def protecting : Machine HostTypes.alone :=
  start (World.start {} ()) (.enterMain (.native ⟨24⟩) [.native ⟨16⟩] fun r =>
    (Action.ofResult r).bind Library.one)

theorem reaches_protecting :
    protecting.Reachable ∧ protecting.core.world.Standard ∧
    ∃ n, ((protecting.after n).control = .loop .proceed ∧
        ((protecting.after n).core.world.cancelled = true →
          (protecting.after (n + 1)).control = .failed .terminated)) ∨
      (protecting.after n).activations = [] ∨
      (protecting.after n).Circles ∧
        ∀ k, ((protecting.after n).after k).activations ≠ [] ∧
          ((protecting.after n).after k).control ≠ .loop .proceed := by
  have hreachable : protecting.Reachable := by
    unfold protecting
    apply Reachable.start
    refine .enterMain _ _ fun r => ?_
    exact Action.lawful_bind (Action.lawful_ofResult r) Library.lawful_one
  have hstandard : protecting.core.world.Standard := by
    unfold protecting start
    dsimp only
    exact World.standard_start _ _
  exact ⟨hreachable, hstandard, hreachable.reaches hstandard⟩

end Machine

end ScriptEngine
