import ScriptEngine.Proofs.Frame.LinkedProcessors

/-!
# Histories of sound chunks

In a history of sound chunks no function of a script comes into the world but one
of a chunk that has been found sound, at an index where a function may begin.
In every state of such a history all processors are linked.
-/

namespace ScriptEngine

variable {H : HostTypes}

/-! ## Functions in the world -/

namespace World

theorem keepsClosures_engage (w : World H) (r : CoroutineRef) :
    w.KeepsClosures (w.engage r) :=
  w.keepsClosures_modifyCoroutine r _

theorem keepsClosures_release (w : World H) (r : CoroutineRef) (p : Processor)
    (exit : Except RuntimeError LoopExit) : w.KeepsClosures (w.release r p exit) :=
  w.keepsClosures_modifyCoroutine r _

theorem Admits.engage (w : World H) (r : CoroutineRef) : w.Admits (w.engage r) :=
  .modifyCoroutine w r _

theorem Admits.release (w : World H) (r : CoroutineRef) (p : Processor)
    (exit : Except RuntimeError LoopExit) : w.Admits (w.release r p exit) :=
  .modifyCoroutine w r _

theorem installing_admits : Installing (World.Admits (H := H)) where
  refl := .refl
  trans := .trans
  addNative w f := .add w fun _ h => by cases h
  newTable w := .add w fun _ h => by cases h
  setNamed w r _ _ := .modifyTable w r _

theorem isSound_start (settings : Settings) (host : H.State) :
    (World.start settings host).IsSound := by
  refine IsSound.of_admits ?_ (installing_admits.installModules _ settings.modules)
  rintro ⟨id⟩ k hk
  match id, hk with
  | 1, hk => cases hk
  | 2, hk => cases hk

/-- A chunk is checked when it is loaded. -/
theorem Admits.load {w w' : World H} {chunk : Chunk} {f : Value}
    (h : w.load chunk = .ok (f, w')) : w.Admits w' := by
  unfold World.load World.loadWithEnv at h
  split at h
  · next hsound =>
      cases h
      have hcell : w.Admits (w.newCell (.table w.globals)).2 := .of_objects rfl
      refine hcell.trans (.add _ fun k hk => ?_)
      cases hk
      exact ⟨hsound, Chunk.isEntry_zero hsound⟩
  · cases h

end World

/-! ## Processors at rest -/

section

variable {w w' : World H} {p p' : Processor}

theorem Processor.Scripting.of_alike (h : p.Scripting w) (halike : p.Alike p') :
    p'.Scripting w := by
  obtain ⟨f, rest, k, hframes, hruns, hchunk, hip⟩ := h
  refine ⟨f, rest, k, ?_, hruns, halike.chunk.trans hchunk, ?_⟩
  · rw [halike.frames]
    exact hframes
  · rw [halike.ip]
    exact hip

theorem CoroutineState.FindsCode.of_alike {state : CoroutineState} (h : state.FindsCode w p)
    (halike : p.Alike p') : state.FindsCode w p' := by
  cases state with
  | suspended =>
      intro f hf
      rw [halike.yielded] at hf
      rw [halike.frames]
      exact h f hf
  | forceSuspended => exact Processor.Scripting.of_alike h halike
  | _ => trivial

/-- A coroutine that gives way rests as it has to. -/
theorem LoopExit.FindsCode.after {exit : Except RuntimeError LoopExit}
    (h : LoopExit.FindsCode w p exit) (state : CoroutineState) :
    (state.after exit).FindsCode w p := by
  rcases exit with e | exit
  · cases state <;> trivial
  · cases exit with
    | returned v => cases state <;> trivial
    | yielded v => cases state <;> trivial
    | forceYielded => cases state <;> trivial

namespace World

/-- What `World.FindsCode` asks of a coroutine at rest. -/
def RestFindsCode (w : World H) (state : CoroutineState) (p : Processor) : Prop :=
  Linked w p.frames.items ∧ state.FindsCode w p

theorem RestFindsCode.of_fresh (hfresh : p.Fresh) : w.RestFindsCode .notStarted p := by
  refine ⟨?_, trivial⟩
  rw [hfresh.frames]
  trivial

theorem RestFindsCode.of_alike {state : CoroutineState} (h : w.RestFindsCode state p)
    (halike : p.Alike p') : w.RestFindsCode state p' := by
  refine ⟨?_, h.2.of_alike halike⟩
  rw [halike.frames]
  exact h.1

theorem RestFindsCode.mono {state : CoroutineState} (h : w.RestFindsCode state p)
    (hkeeps : w.KeepsClosures w') : w'.RestFindsCode state p := by
  constructor
  · exact h.1.mono hkeeps
  · exact h.2.mono hkeeps

theorem FindsCode.of_extends (hw : w.FindsCode) (h : w.Extends w') : w'.FindsCode :=
  Resting.of_extends (Q := w.RestFindsCode) hw h
    (fun halike hrests => (hrests.mono h.keepsClosures).of_alike halike) .of_fresh

theorem FindsCode.engage (hw : w.FindsCode) {r : CoroutineRef} {c : Coroutine}
    (hc : w.coroutine? r = some c) : (w.engage r).FindsCode :=
  Resting.engage (Q := w.RestFindsCode) hw hc (·.mono (w.keepsClosures_engage r))

theorem FindsCode.release (hw : w.FindsCode) {r : CoroutineRef} {c : Coroutine}
    (hc : w.coroutine? r = some c) {exit : Except RuntimeError LoopExit}
    (hlinked : Linked w p.frames.items) (hfindsCode : LoopExit.FindsCode w p exit) :
    (w.release r p exit).FindsCode := by
  have hkeeps := w.keepsClosures_release r p exit
  have hrests : w.RestFindsCode (c.state.after exit) p := ⟨hlinked, hfindsCode.after c.state⟩
  exact Resting.release (Q := w.RestFindsCode) hw hc (·.mono hkeeps) (hrests.mono hkeeps)

theorem findsCode_start (settings : Settings) (host : H.State) :
    (World.start settings host).FindsCode := by
  refine resting_start (Q := (World.start settings host).RestFindsCode) ⟨trivial, trivial⟩
    (fun halike hrests => ?_) .of_fresh settings host
  exact hrests.of_alike halike

end World

end

namespace Machine

section

variable [Host H] {core : Core H} {activations : List (Activation H)}

/-! ## Switches -/

theorem inFlightLinked_runCoroutine {world : World H} {r : CoroutineRef} {c : Coroutine}
    {p outer : Processor} (args : List Value)
    {next : Except RuntimeError Value → Action H NativeOutcome}
    (hsuspended : c.state.isSuspended = true) (hrests : c.state.Rests p)
    (hstands : StandsOn .working activations outer.nesting outer.frames.items)
    (hsound : world.IsSound) (hlinked : Linked world p.frames.items)
    (hfindsCode : c.state.FindsCode world p) (houter : Linked world outer.frames.items)
    (hwaiting : WaitersFindCode world activations outer.frames.items)
    (hpresent : (runCoroutine world (.switch r outer next :: activations) c p
      args).core.Present) :
    (runCoroutine world (.switch r outer next :: activations) c p args).InFlightLinked := by
  have hroused := roused_runCoroutine world (.switch r outer next :: activations) c p args
  generalize runCoroutine world _ c p args = m at hroused hpresent ⊢
  cases hroused with
  | native hkind => exact ⟨hlinked, trivial, houter, hwaiting⟩
  | first hkind hstate =>
      rw [hstate] at hrests
      have hempty : p.enterOutermost.frames.items = [] := hrests.2
      have hunder : LoopLinked (.body :: .switch r outer next :: activations)
          (.handing true) (⟨world, p.enterOutermost⟩ : Core H) := by
        refine ⟨.body _, ⟨rfl, ?_, rfl, rfl, hstands⟩, hsound, hlinked, houter, hwaiting⟩
        rw [hempty]
        rfl
      have hcalled := Exec.called_call c.entry args { entryPoint := true } 0 {}
        (⟨world, p.enterOutermost⟩ : Core H)
      refine hunder.called hcalled ?_ rfl hpresent
      rw [hempty]
      trivial
  | lost hkind hstate hyielded => exact ⟨hlinked, trivial, houter, hwaiting⟩
  | yielded frame hkind hstate hyielded =>
      rw [hstate] at hfindsCode
      exact ⟨hlinked, hfindsCode frame hyielded, houter, hwaiting⟩
  | forced hkind hfirst hyielded =>
      rw [CoroutineState.eq_forceSuspended hsuspended hfirst hyielded] at hfindsCode
      exact ⟨hlinked, hfindsCode, houter, hwaiting⟩

theorem inFlightLinked_resume (r : CoroutineRef) (args : List Value)
    (next : Except RuntimeError Value → Action H NativeOutcome)
    (hworld : core.world.WellFramed) (hsound : core.world.IsSound)
    (hresting : core.world.FindsCode)
    (hstands : StandsOn .working activations core.proc.nesting core.proc.frames.items)
    (h : (⟨core, activations, .running (.resume r args next)⟩ : Machine H).InFlightLinked)
    (hpresent : (resume core activations r args next).core.Present) :
    (resume core activations r args next).InFlightLinked := by
  rcases resume_cases core activations r args next with
    ⟨e, -, hresume⟩ | ⟨c, p, hc, hp, hstate, -, hresume⟩
  all_goals rw [hresume] at hpresent ⊢
  · exact ⟨h.linked, trivial, h.waiting⟩
  · have hkeeps := core.world.keepsClosures_engage r
    obtain ⟨hlinked, hfindsCode⟩ := hresting r c p hc hp
    exact inFlightLinked_runCoroutine args hstate (hworld r c p hc hp) hstands
      (hsound.of_admits (.engage _ r)) (hlinked.mono hkeeps) (hfindsCode.mono hkeeps)
      (h.linked.mono hkeeps) (h.waiting.mono hkeeps) hpresent

omit [Host H] in
theorem inFlightLinked_enterMain (function : Value) (args : List Value)
    (next : Except RuntimeError Value → Action H NativeOutcome)
    (hresting : core.world.FindsCode)
    (h : (⟨core, activations, .running (.enterMain function args next)⟩ :
      Machine H).InFlightLinked) :
    (enterMain core activations function args next).InFlightLinked := by
  have hkeeps := core.world.keepsClosures_engage core.world.main
  rcases enterMain_cases core activations function args next with
    henter | ⟨c, p, hc, hp, henter⟩
  all_goals rw [henter]
  · exact ⟨h.linked, trivial, h.waiting⟩
  · obtain ⟨hlinked, -⟩ := hresting _ c p hc hp
    exact ⟨hlinked.mono hkeeps, trivial, h.linked.mono hkeeps, h.waiting.mono hkeeps⟩

theorem inFlightLinked_act {a : Action H NativeOutcome} (hacts : ActsIn activations)
    (hlawful : a.Lawful) (hworld : core.world.WellFramed) (hsound : core.world.IsSound)
    (hresting : core.world.FindsCode)
    (hstands : StandsOn .working activations core.proc.nesting core.proc.frames.items)
    (h : (⟨core, activations, .running a⟩ : Machine H).InFlightLinked)
    (hpresent : (act core activations a).core.Present) :
    (act core activations a).InFlightLinked := by
  cases hlawful with
  | done outcome =>
      rcases hacts with rfl | hloop
      · exact ⟨h.linked, trivial, h.waiting⟩
      · have hunder : LoopLinked activations .working core :=
          ⟨hloop, hstands, hsound, h.linked, h.waiting⟩
        have hcompleted := Exec.completed_completeNative outcome core
        rw [act_done hloop]
        refine hunder.exec (extends_of_keeps hcompleted.keeps) fun _ _ hframes hfits => ?_
        exact ⟨hcompleted.stands hframes hfits, hcompleted.findsCode hframes hfits h.linked⟩
  | fail e =>
      rcases hacts with rfl | hloop
      · exact ⟨h.linked, trivial, h.waiting⟩
      · rw [act_fail hloop]
        exact ⟨h.linked, trivial, h.waiting⟩
  | read hnext => exact ⟨h.linked, trivial, h.waiting⟩
  | write hchange hnext =>
      have hkeeps := (hchange core.world).keepsClosures
      exact ⟨h.linked.mono hkeeps, trivial, h.waiting.mono hkeeps⟩
  | call function args hnext => exact ⟨h.linked, trivial, h.waiting⟩
  | resume r args hnext =>
      exact inFlightLinked_resume r args _ hworld hsound hresting hstands h hpresent
  | enterMain function args hnext => exact inFlightLinked_enterMain function args _ hresting h

omit [Host H] in
theorem inFlightLinked_switchBack {r : CoroutineRef} {outer : Processor}
    {next : Except RuntimeError Value → Action H NativeOutcome}
    {exit : Except RuntimeError LoopExit}
    (h : (⟨core, .switch r outer next :: activations, .switching exit⟩ :
      Machine H).InFlightLinked) :
    (switchBack core (.switch r outer next :: activations) exit).InFlightLinked := by
  obtain ⟨houter, hwaiting⟩ := h.waiting
  have hkeeps := core.world.keepsClosures_release r core.proc exit
  exact ⟨houter.mono hkeeps, trivial, hwaiting.mono hkeeps⟩

/-! ## Steps -/

variable {m m' : Machine H}

theorem inFlightLinked_next (hm : m.WellNested) (hg : m.WellFramed) (h : m.AllLinked)
    (hpresent : m.next.core.Present) : m.next.InFlightLinked := by
  obtain ⟨core, activations, control⟩ := m
  have hcontrol := hm.control
  have hseated := hg.seated
  have hinFlightLinked := h.inFlightLinked
  have hunder (s : LoopPhase) (hloop : InLoop activations)
      (hstands : StandsOn s activations core.proc.nesting core.proc.frames.items) :
      LoopLinked activations s core :=
    ⟨hloop, hstands, h.sound, hinFlightLinked.linked, hinFlightLinked.waiting⟩
  cases control with
  | loop o =>
      exact inFlightLinked_afterOutcome (hunder _ hcontrol hseated) hinFlightLinked.findsCode
        hpresent
  | failed e => exact inFlightLinked_afterFailure e (hunder _ hcontrol hseated)
  | unwinding e decorators =>
      cases decorators with
      | nil => exact inFlightLinked_catchError e (hunder _ hcontrol hseated)
      | cons d rest => exact ⟨hinFlightLinked.linked, trivial, hinFlightLinked.waiting⟩
  | calling function args waiter =>
      exact inFlightLinked_beginCall function args hseated h.sound hinFlightLinked hpresent
  | leaving exit =>
      exact inFlightLinked_leave exit hm.nested (hunder _ hcontrol hseated)
        hinFlightLinked.findsCode
  | answering waiter result =>
      exact inFlightLinked_answer result hcontrol hseated h.sound hinFlightLinked
  | switching exit =>
      obtain ⟨r, outer, next, rest, rfl, -⟩ := hcontrol
      exact inFlightLinked_switchBack hinFlightLinked
  | running a =>
      exact inFlightLinked_act hcontrol.1 hcontrol.2 hg.world h.sound h.resting hseated
        hinFlightLinked
        hpresent
  | settling o => exact inFlightLinked_settle (hunder _ hcontrol hseated) hinFlightLinked.findsCode
  | finished result => exact ⟨hinFlightLinked.linked, trivial, hinFlightLinked.waiting⟩

omit [Host H] in
theorem Turn.findsCode (h : Turn m m') (hm : m.WellNested) (hc : m.AllLinked) :
    m'.core.world.FindsCode := by
  cases h with
  | stays hworld h => exact hc.resting.of_extends hworld
  | enters hworld mark waiter h => exact hc.resting.of_extends hworld
  | leaves hworld a ha h =>
      rw [hworld]
      exact hc.resting
  | engages r c hready p hp hproc next hworld loops hloops h hfrom =>
      rw [hworld]
      exact hc.resting.engage hready.found
  | releases r next exit hexit hworld h hcontrol =>
      have hfindsCode := hc.inFlightLinked.findsCode
      rw [hexit] at hfindsCode
      have hr : r ∈ m.core.world.inFlight := by
        rw [hm.inFlight, h]
        exact List.mem_cons_self
      obtain ⟨c, hfound⟩ := hm.scheduled.present r hr
      rw [hworld]
      exact hc.resting.release hfound hc.inFlightLinked.linked hfindsCode

/-! ## Functions that steps bring -/

omit [Host H] in
theorem admits_exec {route : Route} {x : Exec H Outcome} {c : Core H}
    (h : c.Keeps (Exec.resultCore (x c))) :
    c.world.Admits (exec route x c activations).core.world := by
  rw [exec_core, h.world]
  exact .refl _

omit [Host H] in
theorem admits_settle (core : Core H) (activations : List (Activation H)) (o : Outcome) :
    core.world.Admits (settle core activations o).core.world := by
  cases o with
  | finish frame v =>
      exact admits_exec (Exec.finished_finish frame v core).keeps
  | _ => exact .refl _

omit [Host H] in
theorem admits_afterFailure (core : Core H) (activations : List (Activation H))
    (e : RuntimeError) : core.world.Admits (afterFailure core activations e).core.world := by
  cases e <;> exact .refl _

omit [Host H] in
theorem admits_catchError (core : Core H) (activations : List (Activation H))
    (e : ScriptError) : core.world.Admits (catchError core activations e).core.world := by
  rcases catchError_cases core activations e with
    ⟨frame, handler, n, -, hcaught⟩ | ⟨n, -, hcaught⟩
  all_goals rw [hcaught]; exact .refl _

omit [Host H] in
theorem admits_leave (core : Core H) (activations : List (Activation H))
    (exit : Except RuntimeError LoopExit) :
    core.world.Admits (leave core activations exit).core.world := by
  unfold leave
  split
  · rcases exit with e | exit
    · exact .refl _
    · cases exit <;> exact .refl _
  · cases exit <;> exact .refl _
  · exact .refl _

omit [Host H] in
theorem admits_answer (core : Core H) (activations : List (Activation H))
    (result : Except RuntimeError Value) (waiter : Waiter H) :
    core.world.Admits (answer core activations result waiter).core.world := by
  cases waiter with
  | recovered flags returnAddress =>
      cases result with
      | ok v => exact admits_exec (Exec.delivered_deliver flags returnAddress (some v) core).keeps
      | error e => exact .refl _
  | caught flags returnAddress =>
      cases result with
      | ok v =>
          exact admits_exec (Exec.delivered_deliver flags returnAddress (some v) core).keeps
      | error e => exact .refl _
  | _ => exact .refl _

omit [Host H] in
theorem admits_switchBack (core : Core H) (activations : List (Activation H))
    (exit : Except RuntimeError LoopExit) :
    core.world.Admits (switchBack core activations exit).core.world := by
  unfold switchBack
  dsimp only
  split
  · exact .release _ _ _ _
  · exact .refl _

theorem admits_beginCall (core : Core H) (activations : List (Activation H))
    (function : Value) (args : List Value) (waiter : Waiter H) :
    core.world.Admits (beginCall core activations function args waiter).core.world := by
  rcases beginCall_cases core activations function args waiter with hbegin | ⟨-, hbegin⟩
  all_goals rw [hbegin]
  · exact .refl _
  · exact admits_exec (c := core.nested) (Exec.called_call _ _ _ _ _ _).keeps

theorem admits_runCoroutine (world : World H) (activations : List (Activation H))
    (c : Coroutine) (p : Processor) (args : List Value) :
    world.Admits (runCoroutine world activations c p args).core.world := by
  have hroused := roused_runCoroutine world activations c p args
  generalize runCoroutine world activations c p args = m at hroused ⊢
  cases hroused with
  | first hkind hstate =>
      exact admits_exec (c := ⟨world, _⟩) (Exec.called_call _ _ _ _ _ _).keeps
  | _ => exact .refl _

theorem admits_resume (core : Core H) (activations : List (Activation H)) (r : CoroutineRef)
    (args : List Value) (next : Except RuntimeError Value → Action H NativeOutcome) :
    core.world.Admits (resume core activations r args next).core.world := by
  rcases resume_cases core activations r args next with
    ⟨e, -, hresume⟩ | ⟨c, p, -, -, -, -, hresume⟩
  all_goals rw [hresume]
  · exact .refl _
  · exact (World.Admits.engage _ r).trans (admits_runCoroutine _ _ c p args)

omit [Host H] in
theorem admits_enterMain (core : Core H) (activations : List (Activation H))
    (function : Value) (args : List Value)
    (next : Except RuntimeError Value → Action H NativeOutcome) :
    core.world.Admits (enterMain core activations function args next).core.world := by
  rcases enterMain_cases core activations function args next with
    henter | ⟨c, p, -, -, henter⟩
  all_goals rw [henter]
  · exact .refl _
  · exact .engage _ _

theorem admits_afterOutcome {o : Outcome} (hsound : core.world.IsSound)
    (hfindsCode : o.FindsCode core.world core.proc) :
    core.world.Admits (afterOutcome core activations o).core.world := by
  cases o with
  | proceed =>
      change core.world.Admits (exec .loop Exec.poll core activations).core.world
      rw [exec_core]
      rcases poll_cases core with hrun | hrun | hrun
      · rw [hrun]
        exact .refl _
      · rw [hrun]
        exact .refl _
      · rw [hrun]
        exact Exec.admits_step (c := counted core) hsound (scripting_counted hfindsCode)
  | finish frame v => exact admits_exec (Exec.finished_finish frame v core).keeps
  | tailCall request flags returnAddress =>
      exact admits_exec (x := Exec.callRequest request flags returnAddress)
        (Exec.called_call _ _ _ _ _ core).keeps
  | recover e decorator? handler flags returnAddress => cases decorator? <;> exact .refl _
  | yield v =>
      unfold afterOutcome
      rcases checkYield_cases core with hrun | ⟨violation, hrun⟩
      · rw [hrun]
        exact .refl _
      · rw [hrun]
        exact .refl _
  | _ => exact .refl _

/-- If a host function changes the world now, it brings no functions of scripts but
sound ones. -/
def WritesSound (m : Machine H) : Prop :=
  ∀ change next, m.control = .running (.write change next) →
    m.core.world.Admits (change m.core.world)

theorem admits_next (h : m.AllLinked) (hwrites : m.WritesSound) :
    m.core.world.Admits m.next.core.world := by
  obtain ⟨core, activations, control⟩ := m
  cases control with
  | loop o => exact admits_afterOutcome h.sound h.inFlightLinked.findsCode
  | failed e => exact admits_afterFailure core activations e
  | unwinding e decorators =>
      cases decorators with
      | nil => exact admits_catchError core activations e
      | cons d rest => exact .refl _
  | calling function args waiter => exact admits_beginCall core activations function args waiter
  | leaving exit => exact admits_leave core activations exit
  | answering waiter result => exact admits_answer core activations result waiter
  | switching exit => exact admits_switchBack core activations exit
  | running a =>
      cases a with
      | done outcome =>
          cases activations with
          | nil => exact .refl _
          | cons a rest => exact admits_exec (Exec.completed_completeNative outcome core).keeps
      | fail e => cases activations <;> exact .refl _
      | write change next => exact hwrites change next rfl
      | resume r args next => exact admits_resume core activations r args next
      | enterMain function args next =>
          exact admits_enterMain core activations function args next
      | _ => exact .refl _
  | settling o => exact admits_settle core activations o
  | finished result => exact .refl _

theorem AllLinked.next (hm : m.WellNested) (hg : m.WellFramed) (h : m.AllLinked)
    (hwrites : m.WritesSound) (hpresent : m.next.core.Present) : m.next.AllLinked where
  sound := h.sound.of_admits (admits_next h hwrites)
  resting := (turn_next hm.control).findsCode hm h
  inFlightLinked := inFlightLinked_next hm hg h hpresent

omit [Host H] in
theorem allLinked_start {w : World H} (hsound : w.IsSound) (hresting : w.FindsCode)
    (a : Action H NativeOutcome) : (start w a).AllLinked :=
  ⟨hsound, hresting, ⟨trivial, trivial, trivial⟩⟩

/-! ## Histories -/

/-- The states of an engine whose scripts have all been found sound.  What is called
is an object of the world: references do not dangle. -/
inductive Vetted : Machine H → Prop where
  | start (settings : Settings) (host : H.State) {a : Action H NativeOutcome}
      (ha : a.Lawful) : Vetted (.start (World.start settings host) a)
  | next {m : Machine H} (h : Vetted m) (hwrites : m.WritesSound)
      (hpresent : m.next.core.Present) : Vetted m.next
  | again {m : Machine H} (h : Vetted m) {result : Except RuntimeError Value}
      (hfinished : m.control = .finished result) {w : World H}
      (hw : m.core.world.Extends w) (hadmits : m.core.world.Admits w)
      {a : Action H NativeOutcome} (ha : a.Lawful) : Vetted (.start w a)

theorem Vetted.reachable (h : m.Vetted) : m.Reachable := by
  induction h with
  | start settings host ha => exact .start settings host ha
  | next h hwrites hpresent ih => exact .next ih
  | again h hfinished hw hadmits ha ih => exact .again ih hfinished hw ha

theorem Vetted.after (h : m.Vetted) {n : Nat} (hwrites : ∀ i < n, (m.after i).WritesSound)
    (hpresent : ∀ i < n, (m.after (i + 1)).core.Present) : (m.after n).Vetted := by
  induction n with
  | zero => exact h
  | succ n ih =>
      refine .next (ih (fun i hi => ?_) fun i hi => ?_) (hwrites n n.lt_succ_self)
        (hpresent n n.lt_succ_self)
      · exact hwrites i (Nat.lt_succ_of_lt hi)
      · exact hpresent i (Nat.lt_succ_of_lt hi)

theorem Vetted.allLinked [LawfulHost H] (h : m.Vetted) : m.AllLinked := by
  induction h with
  | start settings host ha =>
      exact allLinked_start (World.isSound_start settings host)
        (World.findsCode_start settings host) _
  | next h hwrites hpresent ih =>
      exact ih.next h.reachable.wellNested h.reachable.wellFramed hwrites hpresent
  | again h hfinished hw hadmits ha ih =>
      exact allLinked_start (ih.sound.of_admits hadmits) (ih.resting.of_extends hw) _

end

end Machine

end ScriptEngine
