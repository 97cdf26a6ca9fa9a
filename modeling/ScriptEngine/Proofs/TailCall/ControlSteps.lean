import ScriptEngine.Proofs.Frame.Continuation
import ScriptEngine.Proofs.TailCall.Errors

/-!
# What machines that match do next

Whatever the machine does next, the machine that keeps the frames of its calls does the same, and
they match again.
-/

namespace ScriptEngine

variable {H : HostTypes}

/-! ## Coroutines at rest -/

theorem Concurs.after_eq {exit exit' : Except RuntimeError LoopExit} (h : Concurs exit exit')
    (s : CoroutineState) : s.after exit' = s.after exit := by
  cases h with
  | ok a => rfl
  | error h => cases s <;> rfl

theorem CoroutineState.after_of_ne_main {s : CoroutineState} (h : s ≠ .main)
    (exit : Except RuntimeError LoopExit) : s.after exit = CoroutineState.running.after exit := by
  cases s with
  | main => exact absurd rfl h
  | _ =>
    rcases exit with e | exit
    · rfl
    · cases exit <;> rfl

section

variable {w w' : World H} {p p' : Processor}

theorem rests_dead (htwin : p.Twin p') : RestsAlike w .dead p p' := by
  refine ⟨htwin, fun h => absurd rfl h, ?_, ?_, ?_, ?_⟩ <;> intro h <;> cases h

theorem rests_main (htwin : p.Twin p') (hplaced : p.Placed p')
    (hlayouts : LayoutsMatch w.ReturnsAt 0 0 p.layout p'.layout) : RestsAlike w .main p p' := by
  refine ⟨htwin, fun _ => hplaced, ?_, fun _ => hlayouts, ?_, ?_⟩ <;> intro h <;> cases h

theorem rests_suspended (htwin : p.Twin p') (hplaced : p.Placed p')
    (hparks : Parks w.ReturnsAt 0 0 p.layout p'.layout p.yielded? p'.yielded?) :
    RestsAlike w .suspended p p' := by
  refine ⟨htwin, fun _ => hplaced, ?_, ?_, fun _ => Or.inr hparks, ?_⟩ <;> intro h <;> cases h

theorem World.coroutine_of_none {r : CoroutineRef} (h : w.coroutine? r = none) :
    w.coroutine r = ⟨.dead, .script, .nil, none⟩ := by
  unfold World.coroutine? at h
  unfold World.coroutine
  split
  · next c hobject =>
    rw [hobject] at h
    cases h
  · rfl

namespace World.Like

/-- The coroutine is the same in both worlds but for its processor. -/
theorem coroutine (h : w.Like w') (r : CoroutineRef) : ∃ processor?,
    w'.coroutine r = { w.coroutine r with processor? } ∧
      Option.Rel (RestsAlike w (w.coroutine r).state) (w.coroutine r).processor? processor? := by
  cases hc : w.coroutine? r with
  | some c =>
    obtain ⟨processor?, hc', hrel⟩ := h.resting r c hc
    rw [World.coroutine_of_coroutine? hc, World.coroutine_of_coroutine? hc']
    exact ⟨processor?, rfl, hrel⟩
  | none =>
    rw [World.coroutine_of_none hc, World.coroutine_of_none (h.coroutine?_none hc)]
    exact ⟨none, rfl, .none⟩

theorem resumeRefusal?_eq (h : w.Like w') (r : CoroutineRef) (args : List Value) :
    w'.resumeRefusal? r args = w.resumeRefusal? r args := by
  obtain ⟨processor?, hc', hrel⟩ := h.coroutine r
  have hnone : processor?.isNone = (w.coroutine r).processor?.isNone := by
    generalize (w.coroutine r).processor? = rested? at hrel
    cases hrel <;> rfl
  unfold World.resumeRefusal?
  rw [hc', h.settings, h.inFlight]
  dsimp only
  rw [hnone]

end World.Like

end

namespace Machine

/-- Both machines are about to hand the value to a frame that has waited for it, in worlds that are
alike, but the second one is in another place or has gone back to its loop while the first one
still settles the answer of a handler. -/
structure Apart [Host H] (m m' : Machine H) (f : Frame) (v : Value) : Prop where
  hands : m.control = .loop (.finish f v) ∨ m.control = .settling (.finish f v)
  same : ∃ g, m'.control = .loop (.finish g v) ∨ m'.control = .settling (.finish g v)
  awaiting : f.flags.awaiting = true
  world : m.core.world.Like m'.core.world
  apart : ¬m.core.proc.Placed m'.core.proc ∨
    m.control = .settling (.finish f v) ∧ ∃ o, m'.control = .loop o

/-- What a frame does with a value that the machines hand to it apart from one another is no error
and the same wherever it happens. -/
def PassesOn [Host H] (m m' : Machine H) : Prop :=
  ∀ f v, Apart m m' f v → m.core.world.Passes f v

section

variable [Host H] {G G' L L' M' : Layout} {c c' : Core H} {as bs : List (Activation H)}

/-! ## In the loop -/

omit [Host H] in
/-- A yield is refused on both processors, or on none. -/
theorem checkYield_alike (h : c.proc.Twin c'.proc) :
    Exec.checkYield c = .ok () c ∧ Exec.checkYield c' = .ok () c' ∨
      ∃ e, Exec.checkYield c = .error e { c with proc := { c.proc with yielded? := none } } ∧
        Exec.checkYield c' = .error e { c' with proc := { c'.proc with yielded? := none } } := by
  have hrun (d : Core H) : Exec.checkYield d =
      if d.proc.canYield = false then
        .error (.contract .yieldFromMain) { d with proc := { d.proc with yielded? := none } }
      else if 1 < d.proc.nesting then
        .error (.contract .cannotYield) { d with proc := { d.proc with yielded? := none } }
      else .ok () d := by
    unfold Exec.checkYield
    rw [Exec.run_bind_of_ok (Exec.askProc_run _ d), id_eq]
    cases hcan : d.proc.canYield with
    | false => rfl
    | true =>
      by_cases hdeep : 1 < d.proc.nesting
      · simp only [hdeep, if_true]
        rfl
      · simp only [hdeep, if_false]
        rfl
  rw [hrun, hrun, h.canYield, h.nesting]
  split
  · exact Or.inr ⟨_, rfl, rfl⟩
  · split
    · exact Or.inr ⟨_, rfl, rfl⟩
    · exact Or.inl ⟨rfl, rfl⟩

theorem matchesKeeping_yield (h : Faces G G' L M' c c') (hplaced : c.proc.Placed c'.proc)
    (hparks : Parks c.world.ReturnsAt G.operands.length G'.operands.length L M' c.proc.yielded?
      c'.proc.yielded?) (hloops : Loops c.world as bs G G') (v : Value) :
    MatchesKeeping (afterOutcome c as (.yield v)) (afterOutcome c' bs (.yield v)) := by
  obtain ⟨f, g, L', -, -, hlayouts, hframes⟩ := id hparks
  have hrefused (e : RuntimeError) : MatchesKeeping
      ⟨{ c with proc := { c.proc with yielded? := none } }, as, .failed e⟩
      ⟨{ c' with proc := { c'.proc with yielded? := none } }, bs, .failed e⟩ := by
    refine .mk ⟨h.world, ⟨h.twin.nesting, h.twin.canYield⟩, h.layout, h.layout'⟩ hloops
      (.failed ?_ hlayouts hframes.hands.spends (.same e))
    exact ⟨hplaced.ip, hplaced.chunk⟩
  unfold afterOutcome
  dsimp only
  rcases checkYield_alike h.twin with ⟨hrun, hrun'⟩ | ⟨e, hrun, hrun'⟩
  · rw [hrun, hrun']
    exact .mk h hloops (.yielded hplaced hparks v)
  · rw [hrun, hrun']
    exact hrefused e

theorem matchesLater_afterOutcome [BlindHost H] {o o' : Outcome} (h : Faces G G' L M' c c')
    (ho : Outcomes c.world G.operands.length G'.operands.length c.proc c'.proc L M' o o')
    (hloops : Loops c.world as bs G G') (hquiet : Quiet ⟨c, as, .loop o⟩)
    (hown : SelfContained ⟨c, as, .loop o⟩)
    (hpasses : PassesOn ⟨c, as, .loop o⟩ ⟨c', bs, .loop o'⟩)
    (hquiet' : Undisturbed ⟨c', bs, .loop o'⟩) :
    MatchesLater (afterOutcome c as o) (keepingNext ⟨c', bs, .loop o'⟩) := by
  have hroom := hquiet.room
  have hroom' := (hquiet' 0).room
  cases ho with
  | proceed hplaced hlayouts hgoes =>
    exact matchesLater_proceed h hplaced hlayouts hgoes hloops hquiet (hown rfl) hquiet'
  | @finish L' f g hplaced hlayouts hframes v =>
    have hnext' : (exec .loop (Exec.finish g v) c' bs).Undisturbed := hquiet'.next
    by_cases hsame : c.proc.Placed c'.proc
    · exact matchesLater_finish_placed .loops h hsame hlayouts hframes hloops v hnext'
    · have hawaiting := hplaced.resolve_left hsame
      refine matchesLater_finish .loops h hlayouts hframes hloops (hpasses f v ?_) hnext'
      exact ⟨Or.inl rfl, ⟨g, Or.inl rfl⟩, hawaiting, h.world, Or.inl hsame⟩
  | @invoke f k args hplaced hlayouts htop hnative =>
    refine MatchesKeeping.matchesLater ?_
    change MatchesKeeping ⟨c, as, .running (c.invoke k args)⟩ ⟨c', bs, .running (c'.invoke k args)⟩
    rcases hplaced with hplaced | ⟨hgives, hhandlers⟩
    · exact .mk h hloops (.running hplaced hlayouts (Or.inr ⟨f, htop, hnative⟩)
        (alike_invoke h.world h.twin hplaced k args))
    · obtain ⟨v, hv⟩ := hgives
      have hv' : c'.invoke k args = .done (.result v) :=
        (h.world.invoke_eq c'.proc k args).trans (hv c'.proc)
      rw [show c.invoke k args = _ from hv c.proc, hv']
      exact .mk h hloops (.confirmed hlayouts htop hnative hhandlers v)
  | recover hplaced hlayouts hhands e decorator? handler =>
    refine MatchesKeeping.matchesLater ?_
    cases decorator? with
    | none => exact .mk h hloops (.calling hplaced hlayouts (.recovered hhands) _ _)
    | some decorator =>
        exact .mk h hloops (.calling hplaced hlayouts (.refused hhands e handler) _ _)
  | @tailCall L' request flags flags' address address' hplaced hlayouts hhands hawaiting =>
    refine MatchesKeeping.matchesLater ?_
    change MatchesKeeping (exec .loop (Exec.callRequest request flags address) c as)
      (exec .loop (Exec.callRequest request flags' address') c' bs)
    rcases hplaced with hplaced | ⟨k, v, hgives, rfl⟩
    · refine matchesKeeping_call h hplaced hlayouts hhands hawaiting _ _ (fun p hp => ?_)
        hroom hroom'
        hloops
      cases hcontinuation : request.continuation? <;> simp [hcontinuation] at hp
    · refine matchesKeeping_exec
        (Exec.comes_confirmation h hlayouts hhands hawaiting hgives hroom hroom') ?_
      have hkeeps := (Exec.called_call (.native k) [v] flags address {} c).keeps
      change Loops (Exec.resultCore (Exec.call (.native k) [v] flags address {} c)).world as bs G G'
      rw [hkeeps.world]
      exact hloops
  | yield hplaced hparks v => exact (matchesKeeping_yield h hplaced hparks hloops v).matchesLater
  | «return» hnil hnil' v =>
      exact (MatchesKeeping.mk h hloops (.returned hnil hnil' v)).matchesLater

/-! ## Nested calls -/

theorem matchesKeeping_beginCall {waiter waiter' : Waiter H} (h : Faces G G' L M' c c')
    (hplaced : c.proc.Placed c'.proc)
    (hlayouts : LayoutsMatch c.world.ReturnsAt G.operands.length G'.operands.length L L')
    (hwaits : Waits c.world.ReturnsAt G'.operands.length as L L' M' waiter waiter')
    (hloops : Loops c.world as bs G G')
    (hroom : c.proc.frames.height < c.world.settings.maxCallDepth)
    (hroom' : c'.proc.frames.height < c'.world.settings.maxCallDepth) (function : Value)
    (args : List Value) :
    MatchesKeeping (beginCall c as function args waiter)
      (beginCall c' bs function args waiter') := by
  have hframes : c.proc.frames.height = (L ++ G).frames.length := by
    rw [c.proc.frames.height_eq, h.frames]
    rfl
  have hframes' : c'.proc.frames.height = (M' ++ G').frames.length := by
    rw [c'.proc.frames.height_eq, h.frames']
    rfl
  have hstack : c.proc.stack.height = (L ++ G).operands.length := by
    rw [c.proc.stack.height_eq, h.operands]
    rfl
  have hstack' : c'.proc.stack.height = (M' ++ G').operands.length := by
    rw [c'.proc.stack.height_eq, h.operands']
    rfl
  have hmark : c.proc.mark =
      ⟨c.proc.ip, c.proc.chunk?, (L ++ G).frames.length, (L ++ G).operands.length⟩ := by
    rw [Processor.mark, hframes, hstack]
  have hmark' : c'.proc.mark =
      ⟨c.proc.ip, c.proc.chunk?, (M' ++ G').frames.length, (M' ++ G').operands.length⟩ := by
    rw [Processor.mark, hplaced.ip, hplaced.chunk, hframes', hstack']
  rcases Nat.lt_or_ge c.proc.nesting c.world.settings.maxNativeNesting with hdeeper | hfull
  · have hdeeper' : c'.proc.nesting < c'.world.settings.maxNativeNesting := by
      rw [h.world.settings, h.twin.nesting]
      exact hdeeper
    rw [beginCall_of_room c hdeeper, beginCall_of_room c' hdeeper', hmark, hmark', hplaced.ip]
    have hinner : Faces (L ++ G) (M' ++ G') .empty .empty c.nested c'.nested :=
      ⟨h.world, ⟨congrArg (· + 1) h.twin.nesting, h.twin.canYield⟩, h.layout, h.layout'⟩
    have hhands : Hands c.world.ReturnsAt (M' ++ G').operands.length .empty .empty
        { entryPoint := true } c.proc.ip .empty { entryPoint := true } c.proc.ip :=
      hands_direct rfl (fun f hf => by cases hf) (Or.inl rfl)
    exact matchesKeeping_call hinner ⟨hplaced.ip, hplaced.chunk⟩ .ground hhands rfl function args
      (by simp)
      hroom hroom' (.call hloops hlayouts hwaits c.proc.ip c.proc.chunk?)
  · have hfull' : c'.world.settings.maxNativeNesting ≤ c'.proc.nesting := by
      rw [h.world.settings, h.twin.nesting]
      exact hfull
    rw [beginCall_of_crowded c hfull, beginCall_of_crowded c' hfull']
    exact .mk h hloops (.answering hplaced hlayouts hwaits (.refl _))

omit [Host H] in
/-- A loop ends with nothing of its own left. -/
theorem faces_of_empty {G₁ G₁' : Layout} (h : Faces (L ++ G) (M' ++ G') G₁ G₁' c c')
    (hnil : G₁ = .empty) (hnil' : G₁' = .empty) : Faces G G' L M' c c' := by
  subst hnil hnil'
  exact ⟨h.world, h.twin, h.layout, h.layout'⟩

omit [Host H] in
/-- What is left of a loop is cut off. -/
theorem faces_of_cut {L₁ M₁' : Layout} (h : Faces (L ++ G) (M' ++ G') L₁ M₁' c c')
    (ip : Nat) (chunk? : Option Chunk) :
    Faces G G' L M'
      { c with
        proc := { c.proc with
          nesting := c.proc.nesting - 1, ip, chunk?
          frames := c.proc.frames.truncate (L ++ G).frames.length
          stack := c.proc.stack.truncate (L ++ G).operands.length } }
      { c' with
        proc := { c'.proc with
          nesting := c'.proc.nesting - 1, ip, chunk?
          frames := c'.proc.frames.truncate (M' ++ G').frames.length
          stack := c'.proc.stack.truncate (M' ++ G').operands.length } } := by
  refine ⟨h.world, ?_, ?_, ?_⟩
  · refine ⟨?_, h.twin.canYield⟩
    rw [h.twin.nesting]
  · exact Layout.ext (items_truncate_append h.frames) (items_truncate_append h.operands)
  · exact Layout.ext (items_truncate_append h.frames') (items_truncate_append h.operands')

theorem matchesKeeping_endCall {L₁ M₁' : Layout} {waiter waiter' : Waiter H}
    {exit exit' : Except RuntimeError LoopExit} (h : Faces (L ++ G) (M' ++ G') L₁ M₁' c c')
    (hloops : Loops c.world as bs G G')
    (hlayouts : LayoutsMatch c.world.ReturnsAt G.operands.length G'.operands.length L L')
    (hwaits : Waits c.world.ReturnsAt G'.operands.length as L L' M' waiter waiter')
    (ip : Nat) (chunk? : Option Chunk)
    (hexit : Controls c.world (L ++ G).operands.length (M' ++ G').operands.length
      (.call ⟨ip, chunk?, (L ++ G).frames.length, (L ++ G).operands.length⟩ waiter :: as) c.proc
      c'.proc L₁ M₁' (.leaving exit) (.leaving exit')) :
    MatchesKeeping
      (endCall c as ⟨ip, chunk?, (L ++ G).frames.length, (L ++ G).operands.length⟩ waiter exit)
      (endCall c' bs ⟨ip, chunk?, (M' ++ G').frames.length, (M' ++ G').operands.length⟩ waiter'
        exit') := by
  unfold endCall
  cases hexit with
  | returned hnil hnil' v =>
    have hfaces := faces_of_empty h hnil hnil'
    refine .mk (hfaces.same ⟨congrArg (· - 1) h.twin.nesting, h.twin.canYield⟩ rfl rfl) hloops
      (.answering ?_ hlayouts hwaits (.refl _))
    exact ⟨rfl, rfl⟩
  | yielded hplaced hparks v =>
    refine .mk (faces_of_cut h ip chunk?) hloops (.answering ?_ hlayouts hwaits (.refl _))
    exact ⟨rfl, rfl⟩
  | raised he =>
    refine .mk (faces_of_cut h ip chunk?) hloops (.answering ?_ hlayouts hwaits (.error he))
    exact ⟨rfl, rfl⟩

/-- The outermost loop of a coroutine ends. -/
theorem matchesKeeping_endBody {exit exit' : Except RuntimeError LoopExit}
    (h : Faces .empty .empty L M' c c') (hloops : Loops c.world as bs .empty .empty)
    (hscript : ∀ r q next rest co, as = .switch r q next :: rest →
      c.world.coroutine? r = some co → co.state ≠ .main)
    (hexit : Controls c.world 0 0 (.body :: as) c.proc c'.proc L M' (.leaving exit)
      (.leaving exit')) :
    MatchesKeeping (endBody c as exit) (endBody c' bs exit') := by
  unfold endBody
  cases hexit with
  | returned hnil hnil' v =>
    refine .mk (h.same ⟨rfl, h.twin.canYield⟩ rfl rfl) hloops
      (.switching (.refl _) fun r q next rest co has hco => ?_)
    rw [CoroutineState.after_of_ne_main (hscript r q next rest co has hco)]
    exact rests_dead ⟨rfl, h.twin.canYield⟩
  | yielded hplaced hparks v =>
    refine .mk (h.same ⟨rfl, h.twin.canYield⟩ rfl rfl) hloops
      (.switching (.refl _) fun r q next rest co has hco => ?_)
    rw [CoroutineState.after_of_ne_main (hscript r q next rest co has hco)]
    refine rests_suspended ⟨rfl, h.twin.canYield⟩ ⟨hplaced.ip, hplaced.chunk⟩ ?_
    have hlayout : c.proc.layout = L := h.layout.trans (Layout.append_empty L)
    have hlayout' : c'.proc.layout = M' := h.layout'.trans (Layout.append_empty M')
    rw [← hlayout, ← hlayout'] at hparks
    exact hparks
  | raised he =>
    have hfaces : Faces .empty .empty .empty .empty
        ⟨c.world, { c.proc with
          nesting := 0, frames := .empty, stack := .empty, yielded? := none }⟩
        ⟨c'.world, { c'.proc with
          nesting := 0, frames := .empty, stack := .empty, yielded? := none }⟩ :=
      ⟨h.world, ⟨rfl, h.twin.canYield⟩, rfl, rfl⟩
    refine .mk hfaces hloops (.switching (.error he) fun r q next rest co has hco => ?_)
    rw [CoroutineState.after_of_ne_main (hscript r q next rest co has hco)]
    exact rests_dead ⟨rfl, h.twin.canYield⟩

theorem matchesKeeping_leave {exit exit' : Except RuntimeError LoopExit} (h : Faces G G' L M' c c')
    (hloops : Loops c.world as bs G G') (hnested : Nested c.world as) (hin : InLoop as)
    (hexit : Controls c.world G.operands.length G'.operands.length as c.proc c'.proc L M'
      (.leaving exit) (.leaving exit')) :
    MatchesKeeping (leave c as exit) (leave c' bs exit') := by
  cases hloops with
  | host => exact absurd hin not_inLoop_nil
  | switch hloops hlayouts htwin hplaced hlayout hlayout' hacts hnext r =>
    exact absurd hin InLoop.ne_switch
  | call hloops hlayouts hwaits ip chunk? =>
    exact matchesKeeping_endCall h hloops hlayouts hwaits ip chunk? hexit
  | @body as bs _ _ hloops =>
    cases hnested with
    | @body r outer next rest hscript hnested =>
      cases hloops with
      | switch hloops hlayouts htwin hplaced hlayout hlayout' hacts hnext _ =>
        refine matchesKeeping_endBody h
          (.switch hloops hlayouts htwin hplaced hlayout hlayout' hacts hnext r)
          (fun r' q next' rest' co has hco => ?_) hexit
        cases has
        obtain ⟨co', hco', -, hstate⟩ := hscript
        rw [hco] at hco'
        cases hco'
        exact hstate

/-- The result of a nested call reaches what waits for it. -/
theorem matchesLater_answer {waiter waiter' : Waiter H} {r r' : Except RuntimeError Value}
    (h : Faces G G' L M' c c') (hplaced : c.proc.Placed c'.proc)
    (hlayouts : LayoutsMatch c.world.ReturnsAt G.operands.length G'.operands.length L L')
    (hwaits : Waits c.world.ReturnsAt G'.operands.length as L L' M' waiter waiter')
    (hloops : Loops c.world as bs G G') (hfits : waiter.Fits as) (hr : Concurs r r')
    (hquiet : (answer c' bs r' waiter').Undisturbed) :
    MatchesLater (answer c as r waiter) (answer c' bs r' waiter') := by
  cases hwaits with
  | action hsame hacts hnext =>
    obtain rfl := hsame
    exact (MatchesKeeping.mk h hloops
      (.running hplaced hlayouts hacts (hnext r r' hr))).matchesLater
  | @decorated e e' he hspends rest =>
    have hdecorated : (afterDecorator e r).Alike (afterDecorator e' r') := by
      cases hr with
      | ok v => exact he.replaceValue _
      | error _ => rfl
    exact (MatchesKeeping.mk h hloops
      (.unwinding hplaced hlayouts hspends hdecorated rest)).matchesLater
  | refused hhands e handler =>
    have hsame : afterDecorator e r' = afterDecorator e r := by cases hr <;> rfl
    unfold answer
    dsimp only
    rw [hsame]
    exact (MatchesKeeping.mk h hloops
      (.calling hplaced hlayouts (.recovered hhands) _ _)).matchesLater
  | recovered hhands =>
    cases hr with
    | ok v => exact matchesLater_deliver .loops h hlayouts hhands hloops v hquiet
    | error he =>
        exact (MatchesKeeping.mk h hloops (.failed hplaced hlayouts hhands.spends he)).matchesLater
  | caught hhands =>
    cases hr with
    | ok v =>
      exact matchesLater_deliver .settles h hlayouts hhands hloops v hquiet
    | error he =>
        exact (MatchesKeeping.mk h hloops (.failed hplaced hlayouts hhands.spends he)).matchesLater
  | processor hsame =>
    obtain rfl := hsame
    cases hloops with
    | host => cases hfits
    | body hloops => cases hfits
    | call hloops hlayouts hwaits ip chunk? => cases hfits
    | switch hloops hlayoutsₒ htwin hplacedₒ hlayout hlayout' hacts hnext s =>
      refine (MatchesKeeping.mk h
        (.switch hloops hlayoutsₒ htwin hplacedₒ hlayout hlayout' hacts hnext s)
        (.switching (hr.map _) fun t q next rest co has hco => ?_)).matchesLater
      by_cases hmain : co.state = .main
      · rw [hmain]
        refine rests_main h.twin hplaced ?_
        have hlayout : c.proc.layout = L := h.layout.trans (Layout.append_empty L)
        have hlayout' : c'.proc.layout = M' := h.layout'.trans (Layout.append_empty M')
        rw [hlayout, hlayout']
        exact hlayouts
      · have hdead : co.state.after (r.map LoopExit.returned) = .dead := by
          rw [CoroutineState.after_of_ne_main hmain]
          cases r <;> rfl
        rw [hdead]
        exact rests_dead h.twin

/-! ## Coroutines -/

theorem matchesKeeping_switchBack {exit exit' : Except RuntimeError LoopExit} {r : CoroutineRef}
    {p p' : Processor} {next next' : Except RuntimeError Value → Action H NativeOutcome}
    (h : Faces .empty .empty L M' c c')
    (hloops : Loops c.world (.switch r p next :: as) (.switch r p' next' :: bs) .empty .empty)
    {co : Coroutine} (hco : c.world.coroutine? r = some co) (hexit : Concurs exit exit')
    (hrests : RestsAlike c.world (co.state.after exit) c.proc c'.proc) :
    MatchesKeeping (switchBack c (.switch r p next :: as) exit)
      (switchBack c' (.switch r p' next' :: bs) exit') := by
  have hkeeps : c.world.KeepsClosures (c.world.release r c.proc exit) :=
    c.world.keepsClosures_release r c.proc exit
  cases hloops with
  | switch hloops hlayouts htwin hplaced hlayout hlayout' hacts hnext _ =>
    exact .mk ⟨h.world.release hco hexit.after_eq hrests, htwin, hlayout, hlayout'⟩
      (hloops.mono hkeeps)
      (.running hplaced (hlayouts.mono fun _ _ hx => hx.mono hkeeps) hacts
        (hnext _ _ (hexit.map _)))

omit [Host H] in
theorem faces_resting {w w' : World H} {p p' : Processor} (hworld : w.Like w')
    (htwin : p.Twin p') :
    Faces .empty .empty p.layout p'.layout (⟨w, p⟩ : Core H) ⟨w', p'⟩ := by
  refine ⟨hworld, htwin, ?_, ?_⟩
  · exact (Layout.append_empty _).symm
  · exact (Layout.append_empty _).symm

/-- The first call of a coroutine. -/
theorem matchesKeeping_entry {w w' : World H} {p p' : Processor} (hworld : w.Like w')
    (hrests : RestsAlike w .notStarted p p') (hloops : Loops w as bs .empty .empty)
    (hroom : 0 < w.settings.maxCallDepth) (entry : Value) (args : List Value) :
    MatchesKeeping
      (exec .loop (Exec.call entry args { entryPoint := true } 0 {}) ⟨w, p.enterOutermost⟩
        (.body :: as))
      (exec .loop (Exec.call entry args { entryPoint := true } 0 {}) ⟨w', p'.enterOutermost⟩
        (.body :: bs)) := by
  obtain ⟨hlayout, hlayout'⟩ := hrests.idle rfl
  have hplaced := hrests.placed (by simp)
  have htwin : p.enterOutermost.Twin p'.enterOutermost := ⟨rfl, hrests.twin.canYield⟩
  have hheight (q : Processor) (hq : q.layout = .empty) : q.frames.height = 0 := by
    rw [q.frames.height_eq]
    exact congrArg (fun G : Layout => G.frames.length) hq
  have hhands : Hands w.ReturnsAt 0 .empty .empty { entryPoint := true } 0 .empty
      { entryPoint := true } 0 :=
    hands_direct rfl (fun f hf => by cases hf) (Or.inl rfl)
  have hfaces : Faces .empty .empty p.layout p'.layout (⟨w, p.enterOutermost⟩ : Core H)
      ⟨w', p'.enterOutermost⟩ := faces_resting hworld htwin
  rw [hlayout, hlayout'] at hfaces
  refine matchesKeeping_call hfaces ?_ .ground hhands rfl entry args (by simp) ?_ ?_ (.body hloops)
  · exact ⟨hplaced.ip, hplaced.chunk⟩
  · change p.frames.height < _
    rw [hheight p hlayout]
    exact hroom
  · change p'.frames.height < _
    rw [hheight p' hlayout', hworld.settings]
    exact hroom

/-- A coroutine at rest runs on. -/
theorem matchesKeeping_runCoroutine {w w' : World H} {p p' : Processor} {co : Coroutine}
    {processor? : Option Processor} {args : List Value} (hworld : w.Like w')
    (hrests : RestsAlike w co.state p p') (hsuspended : co.state.isSuspended = true)
    (hnative : co.kind = .native → co.state = .notStarted)
    (hloops : Loops w as bs .empty .empty) (hroom : 0 < w.settings.maxCallDepth)
    (hswitch : ∀ r q next rest co', as = .switch r q next :: rest → w.coroutine? r = some co' →
      co'.state ≠ .main) :
    MatchesKeeping (runCoroutine w as co p args)
      (runCoroutine w' bs { co with processor? } p' args) := by
  have htwin : p.enterOutermost.Twin p'.enterOutermost := ⟨rfl, hrests.twin.canYield⟩
  have hfaces := faces_resting hworld hrests.twin
  have houter := faces_resting hworld htwin
  obtain ⟨state, kind, entry, processor₀?⟩ := co
  cases kind with
  | native =>
    obtain rfl : state = .notStarted := hnative rfl
    obtain ⟨hlayout, hlayout'⟩ := hrests.idle rfl
    rw [hlayout, hlayout'] at hfaces
    exact .mk hfaces hloops (.calling (hrests.placed (by simp)) .ground (.processor rfl) _ _)
  | script =>
    cases state with
    | notStarted => exact matchesKeeping_entry hworld hrests hloops hroom entry args
    | suspended =>
      have hplaced := hrests.placed (by simp)
      rcases hrests.parked rfl with ⟨hnone, hnone'⟩ | ⟨f, g, L', hf, hg, hlayouts, hframes⟩
      · unfold runCoroutine
        dsimp only
        rw [hnone, hnone']
        refine .mk hfaces hloops (.switching (.refl _) fun r q next rest co' has hco' => ?_)
        rw [CoroutineState.after_of_ne_main (hswitch r q next rest co' has hco')]
        exact rests_dead hrests.twin
      · rw [runCoroutine_of_yielded rfl rfl hf, runCoroutine_of_yielded rfl rfl hg]
        refine .mk (hfaces.same ⟨rfl, hrests.twin.canYield⟩ rfl rfl) (.body hloops)
          (.loop (.finish (Or.inl ?_) hlayouts hframes _))
        exact ⟨hplaced.ip, hplaced.chunk⟩
    | forceSuspended =>
      obtain ⟨hlayouts, hgoes⟩ := hrests.forced rfl
      have hplaced := hrests.placed (by simp)
      refine .mk houter (.body hloops) (.loop (.proceed ?_ hlayouts hgoes))
      exact ⟨hplaced.ip, hplaced.chunk⟩
    | main => cases hsuspended
    | running => cases hsuspended
    | dead => cases hsuspended

theorem matchesKeeping_resume {next next' : Except RuntimeError Value → Action H NativeOutcome}
    (h : Faces G G' L M' c c') (hplaced : c.proc.Placed c'.proc)
    (hlayouts : LayoutsMatch c.world.ReturnsAt G.operands.length G'.operands.length L M')
    (hacts : Acts as L)
    (hnext : ∀ r r', Concurs r r' → (next r).Alike (next' r')) (hloops : Loops c.world as bs G G')
    (hscheduled : c.world.Scheduled) (hroom : 0 < c.world.settings.maxCallDepth)
    (r : CoroutineRef) (args : List Value) :
    MatchesKeeping (resume c as r args next) (resume c' bs r args next') := by
  unfold resume
  dsimp only
  rw [h.world.resumeRefusal?_eq]
  cases hrefusal : c.world.resumeRefusal? r args with
  | some e =>
    exact .mk h hloops (.running hplaced hlayouts hacts (hnext _ _ (.error (.same e))))
  | none =>
    obtain ⟨co, p, hfound, hp, hsuspended⟩ := World.atRest_of_accepted hrefusal
    obtain ⟨processor?, hco', hrel⟩ := h.world.coroutine r
    rw [hco']
    rw [World.coroutine_of_coroutine? hfound] at hrel ⊢
    have hkeeps : c.world.KeepsClosures (c.world.engage r) := c.world.keepsClosures_engage r
    have hengaged : co.state.engaged = .running := by
      cases hstate : co.state <;> rw [hstate] at hsuspended <;> first | rfl | cases hsuspended
    have hnative : co.kind = .native → co.state = .notStarted := fun hkind =>
      hscheduled.notStarted_of_native hfound hkind hsuspended
    have hself := World.coroutine?_engage_self hfound
    obtain ⟨state, kind, entry, processor₀?⟩ := co
    dsimp only at hrel
    cases hrel with
    | none => cases hp
    | some hrests =>
      refine matchesKeeping_runCoroutine (h.world.engage r) (hrests.mono hkeeps) hsuspended hnative
        (.switch (hloops.mono hkeeps) (hlayouts.mono fun _ _ hx => hx.mono hkeeps) h.twin hplaced
          h.layout h.layout' hacts hnext r) ?_ fun s q next rest co' has hco' => ?_
      · rw [World.settings_engage]
        exact hroom
      · cases has
        rw [hself] at hco'
        cases hco'
        dsimp only
        rw [hengaged]
        exact fun hmain => by cases hmain

theorem matchesKeeping_enterMain {next next' : Except RuntimeError Value → Action H NativeOutcome}
    (h : Faces G G' L M' c c') (hplaced : c.proc.Placed c'.proc)
    (hlayouts : LayoutsMatch c.world.ReturnsAt G.operands.length G'.operands.length L M')
    (hacts : Acts as L)
    (hnext : ∀ r r', Concurs r r' → (next r).Alike (next' r')) (hloops : Loops c.world as bs G G')
    (hscheduled : c.world.Scheduled) (function : Value) (args : List Value) :
    MatchesKeeping (enterMain c as function args next) (enterMain c' bs function args next') := by
  have hmain : (c.world.coroutine c.world.main).state = .main := by
    obtain ⟨co, hco, hstate⟩ := hscheduled.main
    rw [World.coroutine_of_coroutine? hco]
    exact hstate
  obtain ⟨processor?, hco', hrel⟩ := h.world.coroutine c.world.main
  have hkeeps : c.world.KeepsClosures (c.world.engage c.world.main) :=
    c.world.keepsClosures_engage _
  unfold enterMain
  dsimp only
  rw [h.world.main, hco']
  dsimp only
  rw [hmain] at hrel
  generalize (c.world.coroutine c.world.main).processor? = rested? at hrel
  cases hrel with
  | none =>
    exact .mk h hloops (.running hplaced hlayouts hacts (hnext _ _ (.refl _)))
  | some hrests =>
    have hrests := hrests.mono hkeeps
    exact .mk (faces_resting (h.world.engage _) hrests.twin)
      (.switch (hloops.mono hkeeps) (hlayouts.mono fun _ _ hx => hx.mono hkeeps) h.twin hplaced
        h.layout h.layout' hacts hnext _)
      (.calling (hrests.placed (by simp)) (hrests.main rfl) (.processor rfl) _ _)

/-! ## Functions of the host -/

omit [Host H] in
theorem completeNative_run {f : Frame} {rest : Stack Frame} (htop : c.proc.frames = rest.push f)
    (outcome : NativeOutcome) :
    Exec.completeNative outcome c =
      match outcome with
      | .result v => Exec.finish f v { c with proc := { c.proc with frames := rest } }
      | .tailCall request =>
        Exec.tailFromNative f request { c with proc := { c.proc with frames := rest } }
      | .yield v =>
        .ok (.yield v) { c with proc := { c.proc with frames := rest, yielded? := some f } } := by
  rw [Exec.completeNative, Exec.run_bind_of_ok (Exec.popFrame?_run_of_top htop)]
  cases outcome <;> rfl

/-- A function of the host ends. -/
theorem matchesLater_completeNative {f : Frame} (h : Faces G G' L M' c c')
    (hplaced : c.proc.Placed c'.proc)
    (hlayouts : LayoutsMatch c.world.ReturnsAt G.operands.length G'.operands.length L M')
    (htop : L.frames.head? = some f) (hnative : f.callee.isFunction = false)
    (hloops : Loops c.world as bs G G') (outcome : NativeOutcome)
    (hquiet : (exec .loop (Exec.completeNative outcome) c' bs).Undisturbed) :
    MatchesLater (exec .loop (Exec.completeNative outcome) c as)
      (exec .loop (Exec.completeNative outcome) c' bs) := by
  obtain ⟨L₁, L₁', M₁', g, own, rfl, rfl, hlayouts₁, hframes, hown⟩ := hlayouts.exists_frame htop
  obtain rfl := hown hnative
  obtain ⟨rest, rest', hpush, hpush', hitems, hitems'⟩ := h.exists_top
  have hpopped := h.popped hitems hitems'
  have hrun := completeNative_run hpush outcome
  have hrun' := completeNative_run hpush' outcome
  cases outcome with
  | result v =>
    rw [exec_congr hrun'] at hquiet
    rw [exec_congr hrun, exec_congr hrun']
    exact matchesLater_finish_placed .loops hpopped ⟨hplaced.ip, hplaced.chunk⟩ hlayouts₁ hframes
      hloops v
      hquiet
  | tailCall request =>
    have hworld := (Exec.completed_completeNative (.tailCall request) c).keeps.world
    rw [hrun] at hworld
    rw [exec_congr hrun, exec_congr hrun']
    refine (matchesKeeping_exec
      (Exec.comes_tailFromNative hpopped ⟨hplaced.ip, hplaced.chunk⟩ hlayouts₁
      hframes hnative request) ?_).matchesLater
    rw [hworld]
    exact hloops
  | yield v =>
    rw [exec_ok hrun, exec_ok hrun']
    have hfaces : Faces G G' L₁ M₁'
        { c with proc := { c.proc with frames := rest, yielded? := some f } }
        { c' with proc := { c'.proc with frames := rest', yielded? := some g } } :=
      ⟨h.world, ⟨h.twin.nesting, h.twin.canYield⟩, hpopped.layout, hpopped.layout'⟩
    refine (MatchesKeeping.mk hfaces hloops (.loop (.yield ?_ ?_ v))).matchesLater
    · exact ⟨hplaced.ip, hplaced.chunk⟩
    · exact ⟨f, g, L₁', rfl, rfl, hlayouts₁, hframes⟩

/-- A function that has given a value at once ends. -/
theorem matchesLater_confirmed {f : Frame} (h : Faces G G' L M' c c')
    (hlayouts : LayoutsMatch c.world.ReturnsAt G.operands.length G'.operands.length L M')
    (htop : L.frames.head? = some f) (hnative : f.callee.isFunction = false)
    (hhandlers : f.handlers = {}) (hloops : Loops c.world as bs G G') (v : Value)
    (hquiet : (exec .loop (Exec.completeNative (.result v)) c' bs).Undisturbed) :
    MatchesLater (exec .loop (Exec.completeNative (.result v)) c as)
      (exec .loop (Exec.completeNative (.result v)) c' bs) := by
  obtain ⟨L₁, L₁', M₁', g, own, rfl, rfl, hlayouts₁, hframes, hown⟩ := hlayouts.exists_frame htop
  obtain rfl := hown hnative
  obtain ⟨rest, rest', hpush, hpush', hitems, hitems'⟩ := h.exists_top
  have hrun := completeNative_run hpush (.result v)
  have hrun' := completeNative_run hpush' (.result v)
  rw [exec_congr hrun'] at hquiet
  rw [exec_congr hrun, exec_congr hrun']
  exact matchesLater_finish .loops (h.popped hitems hitems') hlayouts₁ hframes hloops
    (World.passes_of_plain (by rw [hhandlers]) v) hquiet

theorem matchesLater_act {a a' : Action H NativeOutcome} (h : Faces G G' L M' c c')
    (hplaced : c.proc.Placed c'.proc)
    (hlayouts : LayoutsMatch c.world.ReturnsAt G.operands.length G'.operands.length L M')
    (hacts : Acts as L)
    (ha : a.Alike a') (hloops : Loops c.world as bs G G') (hscheduled : c.world.Scheduled)
    (hin : ActsIn as) (hlawful : a.Lawful) (hroom : 0 < c.world.settings.maxCallDepth)
    (hquiet : (act c' bs a').Undisturbed) :
    MatchesLater (act c as a) (act c' bs a') := by
  cases ha with
  | done outcome =>
    rcases hin with rfl | hin
    · obtain rfl := hloops.eq_nil_iff.mp rfl
      exact (MatchesKeeping.mk h hloops (.finished (.refl _))).matchesLater
    · obtain ⟨f, htop, hnative⟩ := hacts.resolve_left fun hnil => not_inLoop_nil (hnil ▸ hin)
      rw [act_done (hloops.inLoop hin)] at hquiet
      rw [act_done hin, act_done (hloops.inLoop hin)]
      exact matchesLater_completeNative h hplaced hlayouts htop hnative hloops outcome hquiet
  | fail he =>
    rcases hin with rfl | hin
    · obtain rfl := hloops.eq_nil_iff.mp rfl
      exact (MatchesKeeping.mk h hloops (.finished (.error he))).matchesLater
    · rw [act_fail hin, act_fail (hloops.inLoop hin)]
      exact (MatchesKeeping.mk h hloops
        (.failed hplaced hlayouts (spends_self _ _) he)).matchesLater
  | read hnext =>
    exact (MatchesKeeping.mk h hloops
      (.running hplaced hlayouts hacts (hnext _ _ h.world))).matchesLater
  | @write change change' next next' hchange hnext =>
    cases hlawful with
    | write hextends hlawful =>
      have hkeeps := (hextends c.world).keepsClosures
      have hfaces : Faces G G' L M' ⟨change c.world, c.proc⟩ ⟨change' c'.world, c'.proc⟩ :=
        ⟨hchange _ _ h.world, h.twin, h.layout, h.layout'⟩
      exact (MatchesKeeping.mk hfaces (hloops.mono hkeeps)
        (.running hplaced (hlayouts.mono fun _ _ hx => hx.mono hkeeps) hacts hnext)).matchesLater
  | call function args hnext =>
    exact (MatchesKeeping.mk h hloops
      (.calling hplaced hlayouts (.action rfl hacts hnext) _ _)).matchesLater
  | resume r args hnext =>
    exact (matchesKeeping_resume h hplaced hlayouts hacts hnext hloops hscheduled hroom r
      args).matchesLater
  | enterMain function args hnext =>
    exact (matchesKeeping_enterMain h hplaced hlayouts hacts hnext hloops hscheduled function
      args).matchesLater

/-! ## Answers of handlers -/

/-- The answer of a handler is settled on both machines. -/
theorem matchesLater_settle {o o' : Outcome} (h : Faces G G' L M' c c')
    (ho : Outcomes c.world G.operands.length G'.operands.length c.proc c'.proc L M' o o')
    (hawaits : o.Awaits) (hloops : Loops c.world as bs G G')
    (hpasses : PassesOn ⟨c, as, .settling o⟩ ⟨c', bs, .settling o'⟩)
    (hquiet : (settle c' bs o').Undisturbed) :
    MatchesLater (settle c as o) (settle c' bs o') := by
  cases ho with
  | @finish L' f g hplaced hlayouts hframes v =>
    by_cases hsame : c.proc.Placed c'.proc
    · exact matchesLater_finish_placed .settles h hsame hlayouts hframes hloops v hquiet
    · refine matchesLater_finish .settles h hlayouts hframes hloops (hpasses f v ?_) hquiet
      exact ⟨Or.inr rfl, ⟨g, Or.inr rfl⟩, hawaits f v rfl, h.world, Or.inl hsame⟩
  | proceed hplaced hlayouts hgoes =>
    exact (MatchesKeeping.mk h hloops (.loop (.proceed hplaced hlayouts hgoes))).matchesLater
  | invoke hplaced hlayouts htop hnative =>
    exact (MatchesKeeping.mk h hloops (.loop (.invoke hplaced hlayouts htop hnative))).matchesLater
  | recover hplaced hlayouts hhands e decorator? handler =>
    exact (MatchesKeeping.mk h hloops
      (.loop (.recover hplaced hlayouts hhands e decorator? handler))).matchesLater
  | tailCall hplaced hlayouts hhands hawaiting =>
    exact (MatchesKeeping.mk h hloops
      (.loop (.tailCall hplaced hlayouts hhands hawaiting))).matchesLater
  | yield hplaced hparks v =>
    exact (MatchesKeeping.mk h hloops (.loop (.yield hplaced hparks v))).matchesLater
  | «return» hnil hnil' v =>
    exact (MatchesKeeping.mk h hloops (.loop (.return hnil hnil' v))).matchesLater

end

end Machine

end ScriptEngine
