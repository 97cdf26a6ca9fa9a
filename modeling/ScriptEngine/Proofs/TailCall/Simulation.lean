import ScriptEngine.Proofs.TailCall.Results

/-!
# Machines that differ in spent frames

A machine whose calls take the place of frames and one whose calls keep them match as long as
they do the same and differ in spent frames only, in every loop and on every processor.  A result
that has to pass spent frames brings them together again some steps later.
-/

namespace ScriptEngine

variable {H : HostTypes}

/-- A function of the host is on top of the frames, unless the host itself acts. -/
def Acts (activations : List (Activation H)) (L : Layout) : Prop :=
  activations = [] ∨ ∃ f, L.frames.head? = some f ∧ f.callee.isFunction = false

/-- What waits for the result of a nested call above these layouts. -/
inductive Waits (R : Callee → Nat → Prop) (n' : Nat) (as : List (Activation H))
    (L L' M' : Layout) : Waiter H → Waiter H → Prop where
  | action {next next' : Except RuntimeError Value → Action H NativeOutcome} (hsame : M' = L')
      (hacts : Acts as L) (hnext : ∀ r r', Concurs r r' → (next r).Alike (next' r')) :
      Waits R n' as L L' M' (.action next) (.action next')
  | decorated {e e' : ScriptError} (he : e.Alike e') (hspends : Spends R n' L L' M')
      (rest : List Value) : Waits R n' as L L' M' (.decorated e rest) (.decorated e' rest)
  | refused {flags flags' : FrameFlags} {address address' : Nat}
      (hhands : Hands R n' L L' flags address M' flags' address') (e : ScriptError)
      (handler : NativeRef) :
      Waits R n' as L L' M' (.refused e handler flags address)
        (.refused e handler flags' address')
  | recovered {flags flags' : FrameFlags} {address address' : Nat}
      (hhands : Hands R n' L L' flags address M' flags' address') :
      Waits R n' as L L' M' (.recovered flags address) (.recovered flags' address')
  | caught {flags flags' : FrameFlags} {address address' : Nat}
      (hhands : Hands R n' L L' flags address M' flags' address') :
      Waits R n' as L L' M' (.caught flags address) (.caught flags' address')
  | processor (hsame : M' = L') : Waits R n' as L L' M' .processor .processor

/-- The loops of both machines and the layouts that the innermost ones stand on. -/
inductive Loops (w : World H) :
    List (Activation H) → List (Activation H) → Layout → Layout → Prop where
  | host : Loops w [] [] .empty .empty
  | body {as bs : List (Activation H)} {G G' : Layout} (h : Loops w as bs G G') :
      Loops w (.body :: as) (.body :: bs) .empty .empty
  | switch {as bs : List (Activation H)} {G G' L L' : Layout} {p p' : Processor}
      {next next' : Except RuntimeError Value → Action H NativeOutcome} (h : Loops w as bs G G')
      (hlayouts : LayoutsMatch w.ReturnsAt G.operands.length G'.operands.length L L')
      (htwin : p.Twin p')
      (hplaced : p.Placed p') (hlayout : p.layout = L ++ G) (hlayout' : p'.layout = L' ++ G')
      (hacts : Acts as L) (hnext : ∀ r r', Concurs r r' → (next r).Alike (next' r'))
      (r : CoroutineRef) :
      Loops w (.switch r p next :: as) (.switch r p' next' :: bs) .empty .empty
  | call {as bs : List (Activation H)} {G G' L L' M' : Layout} {waiter waiter' : Waiter H}
      (h : Loops w as bs G G')
      (hlayouts : LayoutsMatch w.ReturnsAt G.operands.length G'.operands.length L L')
      (hwaits : Waits w.ReturnsAt G'.operands.length as L L' M' waiter waiter') (ip : Nat)
      (chunk? : Option Chunk) :
      Loops w
        (.call ⟨ip, chunk?, (L ++ G).frames.length, (L ++ G).operands.length⟩ waiter :: as)
        (.call ⟨ip, chunk?, (M' ++ G').frames.length, (M' ++ G').operands.length⟩ waiter' :: bs)
        (L ++ G) (M' ++ G')

/-- What the machines do next. -/
inductive Controls [Host H] (w : World H) (n n' : Nat) (as : List (Activation H))
    (p p' : Processor) (L M' : Layout) : Control H → Control H → Prop where
  | loop {o o' : Outcome} (ho : Outcomes w n n' p p' L M' o o') :
      Controls w n n' as p p' L M' (.loop o) (.loop o')
  | settling {o o' : Outcome} (ho : Outcomes w n n' p p' L M' o o') (hawaits : o.Awaits) :
      Controls w n n' as p p' L M' (.settling o) (.settling o')
  /-- The answer of a handler has passed spent frames. -/
  | settled {o o' : Outcome} (ho : Outcomes w n n' p p' L M' o o') (hawaits : o.Awaits) :
      Controls w n n' as p p' L M' (.settling o) (.loop o')
  | failed {L' : Layout} {e e' : RuntimeError} (hplaced : p.Placed p')
      (hlayouts : LayoutsMatch w.ReturnsAt n n' L L') (hspends : Spends w.ReturnsAt n' L L' M')
      (he : e.Alike e') : Controls w n n' as p p' L M' (.failed e) (.failed e')
  | unwinding {L' : Layout} {e e' : ScriptError} (hplaced : p.Placed p')
      (hlayouts : LayoutsMatch w.ReturnsAt n n' L L') (hspends : Spends w.ReturnsAt n' L L' M')
      (he : e.Alike e') (decorators : List Value) :
      Controls w n n' as p p' L M' (.unwinding e decorators) (.unwinding e' decorators)
  | calling {L' : Layout} {waiter waiter' : Waiter H} (hplaced : p.Placed p')
      (hlayouts : LayoutsMatch w.ReturnsAt n n' L L')
      (hwaits : Waits w.ReturnsAt n' as L L' M' waiter waiter')
      (function : Value) (args : List Value) :
      Controls w n n' as p p' L M' (.calling function args waiter)
        (.calling function args waiter')
  | returned (hnil : L = .empty) (hnil' : M' = .empty) (v : Value) :
      Controls w n n' as p p' L M' (.leaving (.ok (.returned v))) (.leaving (.ok (.returned v)))
  | yielded (hplaced : p.Placed p') (hparks : Parks w.ReturnsAt n n' L M' p.yielded? p'.yielded?)
      (v : Value) :
      Controls w n n' as p p' L M' (.leaving (.ok (.yielded v))) (.leaving (.ok (.yielded v)))
  | raised {e e' : RuntimeError} (he : e.Alike e') :
      Controls w n n' as p p' L M' (.leaving (.error e)) (.leaving (.error e'))
  | answering {L' : Layout} {waiter waiter' : Waiter H} {r r' : Except RuntimeError Value}
      (hplaced : p.Placed p') (hlayouts : LayoutsMatch w.ReturnsAt n n' L L')
      (hwaits : Waits w.ReturnsAt n' as L L' M' waiter waiter') (hr : Concurs r r') :
      Controls w n n' as p p' L M' (.answering waiter r) (.answering waiter' r')
  | switching {exit exit' : Except RuntimeError LoopExit} (hexit : Concurs exit exit')
      (hrests : ∀ r q next rest co, as = .switch r q next :: rest → w.coroutine? r = some co →
        RestsAlike w (co.state.after exit) p p') :
      Controls w n n' as p p' L M' (.switching exit) (.switching exit')
  | running {a a' : Action H NativeOutcome} (hplaced : p.Placed p')
      (hlayouts : LayoutsMatch w.ReturnsAt n n' L M') (hacts : Acts as L) (ha : a.Alike a') :
      Controls w n n' as p p' L M' (.running a) (.running a')
  /-- A function has given a value at once, wherever it was invoked. -/
  | confirmed {f : Frame} (hlayouts : LayoutsMatch w.ReturnsAt n n' L M')
      (htop : L.frames.head? = some f)
      (hnative : f.callee.isFunction = false) (hhandlers : f.handlers = {}) (v : Value) :
      Controls w n n' as p p' L M' (.running (.done (.result v))) (.running (.done (.result v)))
  | finished {r r' : Except RuntimeError Value} (hr : Concurs r r') :
      Controls w n n' as p p' L M' (.finished r) (.finished r')

namespace Machine

/-- The machines do the same and differ in spent frames only. -/
inductive MatchesKeeping [Host H] : Machine H → Machine H → Prop where
  | mk {G G' L M' : Layout} {c c' : Core H} {as bs : List (Activation H)}
      {control control' : Control H} (h : Faces G G' L M' c c') (hloops : Loops c.world as bs G G')
      (hcontrol : Controls c.world G.operands.length G'.operands.length as c.proc c'.proc L M'
        control control') : MatchesKeeping ⟨c, as, control⟩ ⟨c', bs, control'⟩

/-- The second machine matches the first one some steps later. -/
def MatchesLater [Host H] (m m' : Machine H) : Prop := ∃ j, MatchesKeeping m (m'.keepingAfter j)

theorem MatchesKeeping.matchesLater [Host H] {m m' : Machine H} (h : MatchesKeeping m m') :
    MatchesLater m m' := ⟨0, h⟩

end Machine

/-! ## Loops -/

section

variable {R S : Callee → Nat → Prop} {n' : Nat} {L L' M' : Layout} {w w₁ : World H}
  {as bs : List (Activation H)} {G G' : Layout} {waiter waiter' : Waiter H}

theorem Waits.mono (hRS : ∀ c ip, R c ip → S c ip) (h : Waits R n' as L L' M' waiter waiter') :
    Waits S n' as L L' M' waiter waiter' := by
  cases h with
  | action hsame hacts hnext => exact .action hsame hacts hnext
  | decorated he hspends rest => exact .decorated he (hspends.mono hRS) rest
  | refused hhands e handler => exact .refused (hhands.mono hRS) e handler
  | recovered hhands => exact .recovered (hhands.mono hRS)
  | caught hhands => exact .caught (hhands.mono hRS)
  | processor hsame => exact .processor hsame

namespace Loops

theorem mono (h : Loops w as bs G G') (hw : w.KeepsClosures w₁) : Loops w₁ as bs G G' := by
  have hreturns (c : Callee) (ip : Nat) : w.ReturnsAt c ip → w₁.ReturnsAt c ip :=
    fun hc => hc.mono hw
  induction h with
  | host => exact .host
  | body h ih => exact .body ih
  | switch h hlayouts htwin hplaced hlayout hlayout' hacts hnext r ih =>
    exact .switch ih (hlayouts.mono hreturns) htwin hplaced hlayout hlayout' hacts hnext r
  | call h hlayouts hwaits ip chunk? ih =>
    exact .call ih (hlayouts.mono hreturns) (hwaits.mono hreturns) ip chunk?

theorem floor (h : Loops w as bs G G') :
    frameFloor as = G.frames.length ∧ frameFloor bs = G'.frames.length := by
  cases h <;> exact ⟨rfl, rfl⟩

theorem inLoop (h : Loops w as bs G G') (hloop : InLoop as) : InLoop bs := by
  cases h with
  | host => cases hloop
  | body h => exact .body _
  | switch h hlayouts htwin hplaced hlayout hlayout' hacts hnext r => cases hloop
  | call h hlayouts hwaits ip chunk? => exact .call _ _ _

theorem eq_nil_iff (h : Loops w as bs G G') : as = [] ↔ bs = [] := by
  cases h <;> simp

end Loops

end

namespace Machine

section

variable [Host H] {G G' L L' M' : Layout} {c c' : Core H} {as bs : List (Activation H)}
  {flags flags' : FrameFlags} {address address' : Nat} {f g : Frame}

theorem matchesKeeping_exec {x y : Exec H Outcome} (h : Comes G G' (x c) (y c'))
    (hloops : Loops (Exec.resultCore (x c)).world as bs G G') :
    MatchesKeeping (exec .loop x c as) (exec .loop y c' bs) := by
  unfold exec
  generalize x c = r at h hloops
  generalize y c' = r' at h
  cases h with
  | ok h ho => exact .mk h hloops (.loop ho)
  | error h hplaced hlayouts hspends e =>
      exact .mk h hloops (.failed hplaced hlayouts hspends (.same e))

/-- How both machines go on with what a frame has come to: alike, or the second is back in its
loop before the answer of a handler is handed on. -/
inductive Carriers : Route → Route → Prop where
  | loops : Carriers .loop .loop
  | settles : Carriers .settling .settling
  | settled : Carriers .settling .loop

variable {route route' : Route}

theorem matchesKeeping_carried (hrun : Carriers route route') {x y : Exec H Outcome}
    (h : Settles G G' (x c) (y c')) (hloops : Loops (Exec.resultCore (x c)).world as bs G G') :
    MatchesKeeping (exec route x c as) (exec route' y c' bs) := by
  unfold exec
  generalize x c = r at h hloops
  generalize y c' = r' at h
  cases h with
  | mk h ho hawaits =>
    cases hrun with
    | loops => exact .mk h hloops (.loop ho)
    | settles => exact .mk h hloops (.settling ho hawaits)
    | settled => exact .mk h hloops (.settled ho hawaits)

/-! ## Results on their way -/

omit [Host H] in
theorem deliver_world (flags : FrameFlags) (address : Nat) (v? : Option Value) (c : Core H) :
    (Exec.resultCore (Exec.deliver flags address v? c)).world = c.world := by
  have hdelivered := Exec.delivered_deliver flags address v? c
  exact hdelivered.keeps.world

theorem matchesLater_deliver_exec (hrun : Carriers route .loop) (h : Faces G G' L M' c c')
    (hlayouts : LayoutsMatch c.world.ReturnsAt G.operands.length G'.operands.length L L')
    (hhands : Hands c.world.ReturnsAt G'.operands.length L L' flags address M' flags' address')
    (hloops : Loops c.world as bs G G') (v : Value)
    (hquiet : (exec .loop (Exec.deliver flags' address' (some v)) c' bs).Undisturbed) :
    MatchesLater (exec route (Exec.deliver flags address (some v)) c as)
      (exec .loop (Exec.deliver flags' address' (some v)) c' bs) := by
  have hrelays := hhands.relays.mono fun _ _ => h.world.returnsAt
  obtain ⟨j, c₁, flags₁, address₁, hafter, hflags₁, haims, hworld₁, htwin₁, hlayout₁⟩ :=
    exists_relayed hrelays rfl rfl h.layout' v hquiet
  have hfaces : Faces G G' L L' c c₁ :=
    ⟨hworld₁ ▸ h.world, h.twin.trans htwin₁, h.layout, hlayout₁⟩
  refine ⟨j, ?_⟩
  rw [hafter]
  refine matchesKeeping_carried hrun
    (Exec.settles_deliver hfaces hlayouts hhands.entry hflags₁ hhands.receives haims _) ?_
  rw [deliver_world]
  exact hloops

/-- Where the answer of a handler is given to a spent frame, nothing else is left to settle. -/
theorem matchesLater_deliver (hrun : Carriers route route') (h : Faces G G' L M' c c')
    (hlayouts : LayoutsMatch c.world.ReturnsAt G.operands.length G'.operands.length L L')
    (hhands : Hands c.world.ReturnsAt G'.operands.length L L' flags address M' flags' address')
    (hloops : Loops c.world as bs G G') (v : Value)
    (hquiet : (exec route' (Exec.deliver flags' address' (some v)) c' bs).Undisturbed) :
    MatchesLater (exec route (Exec.deliver flags address (some v)) c as)
      (exec route' (Exec.deliver flags' address' (some v)) c' bs) := by
  cases hrun with
  | loops => exact matchesLater_deliver_exec .loops h hlayouts hhands hloops v hquiet
  | settled => exact matchesLater_deliver_exec .settled h hlayouts hhands hloops v hquiet
  | settles =>
    have hrelays := hhands.relays
    generalize hentry' : flags'.entryPoint = entryPoint' at hrelays
    cases hrelays with
    | direct haims =>
      refine ⟨0, matchesKeeping_carried .settles
        (Exec.settles_deliver h hlayouts hhands.entry hentry'
        hhands.receives haims _) ?_⟩
      rw [deliver_world]
      exact hloops
    | @through M s own ip hrelays hspent hbase =>
      obtain ⟨rest', hpush, -⟩ := Stack.exists_push h.frames'
      have hdelivered := Exec.deliver_run_resumed address' (some v) hentry' hpush hspent.inner
      have hnext : keepingNext (exec .settling (Exec.deliver flags' address' (some v)) c' bs) =
          exec .loop (Exec.deliver flags' address' (some v)) c' bs := by
        unfold exec
        rw [hdelivered]
        rfl
      obtain ⟨j, hmatches⟩ := matchesLater_deliver_exec .settled h hlayouts hhands hloops v
        (hnext ▸ hquiet.next)
      refine ⟨j + 1, ?_⟩
      rw [← keepingAfter_next, hnext]
      exact hmatches

omit [Host H] in
theorem finish_world (f : Frame) (v : Value) (c : Core H) :
    (Exec.resultCore (Exec.finish f v c)).world = c.world := by
  have hfinished := Exec.finished_finish f v c
  exact hfinished.keeps.world

theorem matchesLater_finish (hrun : Carriers route route') (h : Faces G G' L M' c c')
    (hlayouts : LayoutsMatch c.world.ReturnsAt G.operands.length G'.operands.length L L')
    (hframes : Corresponds c.world.ReturnsAt G.operands.length G'.operands.length L L' M' f g)
    (hloops : Loops c.world as bs G G') {v : Value} (hpasses : c.world.Passes f v)
    (hquiet : (exec route' (Exec.finish g v) c' bs).Undisturbed) :
    MatchesLater (exec route (Exec.finish f v) c as) (exec route' (Exec.finish g v) c' bs) := by
  by_cases hplain : f.handlers.continuation? = none
  · have hplain' : g.handlers.continuation? = none := by rw [hframes.handlers, hplain]
    rw [Exec.finish_of_plain hplain'] at hquiet
    rw [Exec.finish_of_plain hplain, Exec.finish_of_plain hplain']
    exact matchesLater_deliver hrun h hlayouts hframes.hands hloops v hquiet
  · refine ⟨0, matchesKeeping_carried hrun (Exec.settles_finish h hlayouts hframes hpasses hplain)
      ?_⟩
    rw [finish_world]
    exact hloops

/-- In the same place a result needs no condition, as long as the same is done with it: what cannot
be adapted fails on both machines. -/
theorem matchesLater_finish_placed (hrun : Carriers route route) (h : Faces G G' L M' c c')
    (hplaced : c.proc.Placed c'.proc)
    (hlayouts : LayoutsMatch c.world.ReturnsAt G.operands.length G'.operands.length L L')
    (hframes : Corresponds c.world.ReturnsAt G.operands.length G'.operands.length L L' M' f g)
    (hloops : Loops c.world as bs G G') (v : Value)
    (hquiet : (exec route (Exec.finish g v) c' bs).Undisturbed) :
    MatchesLater (exec route (Exec.finish f v) c as) (exec route (Exec.finish g v) c' bs) := by
  by_cases hplain : f.handlers.continuation? = none
  · exact matchesLater_finish hrun h hlayouts hframes hloops (World.passes_of_plain hplain v) hquiet
  · rcases Exec.settles_or_fails h hplaced hlayouts hframes v hplain with
      hsettles | ⟨e, hrun₁, hrun₂⟩
    · refine (matchesKeeping_carried hrun hsettles ?_).matchesLater
      rw [finish_world]
      exact hloops
    · rw [exec_error hrun₁, exec_error hrun₂]
      have hspends := hframes.hands.spends
      cases hrun with
      | loops =>
          exact (MatchesKeeping.mk h hloops
            (.failed hplaced hlayouts hspends (.same _))).matchesLater
      | settles => exact (MatchesKeeping.mk h hloops (.raised (.same _))).matchesLater

end

end Machine

end ScriptEngine
