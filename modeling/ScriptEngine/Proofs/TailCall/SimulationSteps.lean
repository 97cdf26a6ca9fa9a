import ScriptEngine.Proofs.TailCall.Simulation

/-!
# Steps of machines that match

Machines that match do so again after a step of the one and some steps of the other.
-/

namespace ScriptEngine

variable {H : HostTypes}

namespace Exec

variable [HostObjects H] {c : Core H} {f : Frame} {rest : Stack Frame}

/-- A call that takes the place of the frame that makes it. -/
theorem placeCall_run_replaced (function : Value) (args : List Value) (methodCall : Bool)
    (hcan : canTailCall c.proc = true) (htop : c.proc.frames = rest.push f) :
    placeCall function args methodCall c =
      call function args { methodCall, tailCall := true, entryPoint := f.flags.entryPoint }
        f.returnAddress {}
        { c with
          proc := { c.proc with frames := rest, stack := c.proc.stack.truncate f.base } } := by
  rw [placeCall, run_bind_of_ok (askProc_run _ c), if_pos hcan,
    run_bind_of_ok (popFrame?_run_of_top htop)]
  exact run_bind_of_ok (modifyProc_run _ _)

theorem placeCall_run_above (function : Value) (args : List Value) (methodCall : Bool)
    (hcan : ¬canTailCall c.proc = true) :
    placeCall function args methodCall c =
      call function args { methodCall } c.proc.ip {} c := by
  rw [placeCall, run_bind_of_ok (askProc_run _ c), if_neg hcan]
  exact run_bind_of_ok (askProc_run _ c)

theorem keepingCarryOut_run_call (function : Value) (args : List Value) (methodCall : Bool)
    (c : Core H) :
    keepingCarryOut (.call function args methodCall) c =
      call function args { methodCall } c.proc.ip {} c :=
  run_bind_of_ok (askProc_run _ c)

omit [HostObjects H] in
/-- A frame that a call may replace has nothing left to do but to return the result. -/
theorem spent_of_canTailCall {r : FunctionRef} (hcan : canTailCall c.proc = true)
    (htop : c.proc.frames.top? = some f) (hcallee : f.callee = .function r)
    (hruns : c.world.Runs r c.proc.chunk?) : f.Spent c.world.ReturnsAt c.proc.ip := by
  unfold canTailCall at hcan
  cases hchunk : c.proc.chunk? with
  | none => simp [hchunk] at hcan
  | some chunk =>
    cases hi : chunk.code[c.proc.ip]? with
    | none => simp [hchunk, hi] at hcan
    | some i =>
      simp only [hchunk, hi, htop, Bool.and_eq_true, decide_eq_true_eq, Bool.not_eq_true',
        Handlers.isEmpty_iff] at hcan
      obtain ⟨⟨hop, hnum⟩, ⟨-, hhandlers⟩, hinner⟩ := hcan
      obtain ⟨k, hk, hsame⟩ := hruns chunk i c.proc.ip hchunk hi
      refine ⟨⟨r, i, hcallee, ?_, hop, hnum⟩, hhandlers, hinner⟩
      rw [hk.closure_eq, hsame]
      exact hi

end Exec

namespace Machine

section

variable [Host H] {G G' L L' M' : Layout} {c c' : Core H} {as bs : List (Activation H)}
  {flags flags' : FrameFlags} {address address' : Nat} {f g : Frame} {own : List Value}

/-! ## Instructions -/

theorem matchesKeeping_call (h : Faces G G' L M' c c') (hplaced : c.proc.Placed c'.proc)
    (hlayouts : LayoutsMatch c.world.ReturnsAt G.operands.length G'.operands.length L L')
    (hhands : Hands c.world.ReturnsAt G'.operands.length L L' flags address M' flags' address')
    (hawaiting : flags.awaiting = false) (function : Value) (args : List Value)
    {handlers : Handlers}
    (hplain : ∀ p, handlers.continuation? = some (.post p) →
      M' = L' ∧ flags'.entryPoint = flags.entryPoint ∧
        L'.Aims flags.entryPoint address address')
    (hroom : c.proc.frames.height < c.world.settings.maxCallDepth)
    (hroom' : c'.proc.frames.height < c'.world.settings.maxCallDepth)
    (hloops : Loops c.world as bs G G') :
    MatchesKeeping (exec .loop (Exec.call function args flags address handlers) c as)
      (exec .loop (Exec.call function args flags' address' handlers) c' bs) := by
  refine matchesKeeping_exec
    (Exec.comes_call h hplaced hlayouts hhands hawaiting function args hplain hroom hroom') ?_
  rw [(Exec.called_call function args flags address handlers c).keeps.world]
  exact hloops

/-- What belongs right above a function that runs goes back to it. -/
theorem hands_of_function {R : Callee → Nat → Prop} {n' : Nat} {L₁ : Layout}
    (hfunction : f.callee.isFunction = true) (methodCall : Bool) (address : Nat) :
    Hands R n' (L.enter f own) L₁ { methodCall } address L₁ { methodCall } address := by
  refine hands_direct rfl ?_ (Or.inl rfl)
  intro f' hf'
  obtain rfl := Option.some.inj hf'
  exact Or.inl hfunction

/-- A call, which takes the place of its frame on the first machine if it can. -/
theorem matchesKeeping_placeCall {r : FunctionRef}
    (h : Faces G G' (L.enter f own) (M'.enter g own) c c') (hplaced : c.proc.Placed c'.proc)
    (hlayouts : LayoutsMatch c.world.ReturnsAt G.operands.length G'.operands.length L L')
    (hframes : Corresponds c.world.ReturnsAt G.operands.length G'.operands.length L L' M' f g)
    (hcallee : f.callee = .function r) (hruns : c.world.Runs r c.proc.chunk?)
    (hloops : Loops c.world as bs G G')
    (hroom : c.proc.frames.height < c.world.settings.maxCallDepth)
    (hroom' : c'.proc.frames.height < c'.world.settings.maxCallDepth) (function : Value)
    (args : List Value) (methodCall : Bool) :
    MatchesKeeping (exec .loop (Exec.carryOut (.call function args methodCall)) c as)
      (exec .loop (Exec.keepingCarryOut (.call function args methodCall)) c' bs) := by
  obtain ⟨rest, rest', hpush, hpush', hitems, hitems'⟩ := h.exists_top
  have hrun' := Exec.keepingCarryOut_run_call function args methodCall c'
  rw [hplaced.ip] at hrun'
  rw [exec_congr hrun']
  by_cases hcan : Exec.canTailCall c.proc = true
  · have htop : c.proc.frames.top? = some f := by rw [hpush]; rfl
    have hspent := Exec.spent_of_canTailCall hcan htop hcallee hruns
    have hspent' : g.Spent c.world.ReturnsAt c.proc.ip :=
      ⟨hframes.callee ▸ hspent.returns, hframes.handlers.trans hspent.handlers,
        hframes.hands.awaiting.trans hspent.inner⟩
    have hhands := hframes.hands.kept own hspent' hframes.base' methodCall
    have hdropped := h.dropped hitems hitems' hframes.base hframes.base'
    have hfaces : Faces G G' L (M'.enter g own)
        { c with
          proc := { c.proc with frames := rest, stack := c.proc.stack.truncate f.base } } c' :=
      ⟨h.world, ⟨h.twin.nesting, h.twin.canYield⟩, hdropped.layout, h.layout'⟩
    have hheight : rest.height < c.world.settings.maxCallDepth := by
      rw [hpush, Stack.height_push] at hroom
      omega
    rw [Exec.carryOut, exec_congr (Exec.placeCall_run_replaced function args methodCall hcan hpush)]
    exact matchesKeeping_call hfaces ⟨hplaced.ip, hplaced.chunk⟩ hlayouts hhands rfl function args
      (by simp) hheight hroom' hloops
  · have hfunction : f.callee.isFunction = true := by rw [hcallee]; rfl
    have hwhole := hlayouts.frame hframes own fun hnative => by
      rw [hfunction] at hnative
      cases hnative
    rw [Exec.carryOut, exec_congr (Exec.placeCall_run_above function args methodCall hcan)]
    exact matchesKeeping_call h hplaced hwhole (hands_of_function hfunction methodCall _)
      rfl function
      args (by simp) hroom hroom' hloops

theorem matchesLater_carryOut {r : FunctionRef}
    (h : Faces G G' (L.enter f own) (M'.enter g own) c c') (hplaced : c.proc.Placed c'.proc)
    (hlayouts : LayoutsMatch c.world.ReturnsAt G.operands.length G'.operands.length L L')
    (hframes : Corresponds c.world.ReturnsAt G.operands.length G'.operands.length L L' M' f g)
    (hcallee : f.callee = .function r) (hawaiting : f.flags.awaiting = false)
    (hruns : c.world.Runs r c.proc.chunk?) (hloops : Loops c.world as bs G G')
    (hroom : c.proc.frames.height < c.world.settings.maxCallDepth)
    (hroom' : c'.proc.frames.height < c'.world.settings.maxCallDepth) (intent : Intent)
    (hquiet : (exec .loop (Exec.keepingCarryOut intent) c' bs).Undisturbed) :
    MatchesLater (exec .loop (Exec.carryOut intent) c as)
      (exec .loop (Exec.keepingCarryOut intent) c' bs) := by
  obtain ⟨rest, rest', hpush, hpush', hitems, hitems'⟩ := h.exists_top
  have hfunction : f.callee.isFunction = true := by rw [hcallee]; rfl
  have hwhole : LayoutsMatch c.world.ReturnsAt G.operands.length G'.operands.length (L.enter f own)
      (M'.enter g own) :=
    hlayouts.frame hframes own fun hnative => by rw [hfunction] at hnative; cases hnative
  cases intent with
  | proceed =>
    exact (MatchesKeeping.mk h hloops (.loop (.proceed hplaced hwhole
      ⟨f, r, rfl, hcallee, hawaiting, hruns⟩))).matchesLater
  | pending p =>
    have hrun (c : Core H) : Exec.callPending p c =
        Exec.call p.function p.args {} c.proc.ip (.ofPost p.post) c :=
      Exec.run_bind_of_ok (Exec.askProc_run _ c)
    change MatchesLater (exec .loop (Exec.callPending p) c as)
      (exec .loop (Exec.callPending p) c' bs)
    rw [exec_congr (hrun c), exec_congr (hrun c'), hplaced.ip]
    exact (matchesKeeping_call h hplaced hwhole (hands_of_function hfunction false _) rfl _ _
      (fun _ _ => ⟨rfl, rfl, Or.inl rfl⟩) hroom hroom' hloops).matchesLater
  | call function args methodCall =>
    exact (matchesKeeping_placeCall h hplaced hlayouts hframes hcallee hruns hloops hroom hroom'
      function args
      methodCall).matchesLater
  | «return» v =>
    change (exec .loop (Exec.leaveFrame v) c' bs).Undisturbed at hquiet
    change MatchesLater (exec .loop (Exec.leaveFrame v) c as) (exec .loop (Exec.leaveFrame v) c' bs)
    rw [exec_congr (Exec.leaveFrame_run hpush' v)] at hquiet
    rw [exec_congr (Exec.leaveFrame_run hpush v), exec_congr (Exec.leaveFrame_run hpush' v)]
    exact matchesLater_finish_placed .loops (h.dropped hitems hitems' hframes.base hframes.base')
      ⟨hplaced.ip, hplaced.chunk⟩ hlayouts hframes hloops v hquiet

omit [Host H] in
theorem faces_counted (h : Faces G G' L M' c c') : Faces G G' L M' (counted c) (counted c') := by
  unfold counted
  rw [countInstruction_eq c.proc, countInstruction_eq c'.proc]
  exact ⟨h.world, ⟨h.twin.nesting, h.twin.canYield⟩, h.layout, h.layout'⟩

omit [Host H] in
theorem placed_counted (h : c.proc.Placed c'.proc) :
    (counted c).proc.Placed (counted c').proc := by
  unfold counted
  rw [countInstruction_eq c.proc, countInstruction_eq c'.proc]
  exact ⟨h.ip, h.chunk⟩

omit [Host H] in
/-- As many frames as before, with as much room. -/
theorem room_of_same {c c₁ : Core H} (hheight : c₁.proc.frames.height = c.proc.frames.height)
    (hsettings : c₁.world.settings = c.world.settings)
    (hroom : c.proc.frames.height < c.world.settings.maxCallDepth) :
    c₁.proc.frames.height < c₁.world.settings.maxCallDepth := by
  rwa [hheight, hsettings]

theorem Quiet.poll (hquiet : Quiet ⟨c, as, .loop .proceed⟩) :
    Exec.poll c = (Exec.stepIntent >>= Exec.carryOut) (counted c) := by
  obtain ⟨hcancelled, hdue⟩ := hquiet.polls rfl
  dsimp only at hcancelled hdue
  rw [poll_run, if_neg (by simp [hcancelled]), if_neg (by simp [hdue]), Exec.step_eq]

theorem Quiet.keepingPoll (hquiet : Quiet ⟨c, as, .loop .proceed⟩) :
    Exec.keepingPoll c = (Exec.stepIntent >>= Exec.keepingCarryOut) (counted c) := by
  obtain ⟨hcancelled, hdue⟩ := hquiet.polls rfl
  dsimp only at hcancelled hdue
  rw [keepingPoll_run, if_neg (by simp [hcancelled]), if_neg (by simp [hdue]),
    Exec.keepingStep_eq]

/-- An instruction does the same on both machines. -/
theorem matchesLater_proceed (h : Faces G G' L M' c c') (hplaced : c.proc.Placed c'.proc)
    (hlayouts : LayoutsMatch c.world.ReturnsAt G.operands.length G'.operands.length L M')
    (hgoes : L.Goes c.world c.proc.chunk?) (hloops : Loops c.world as bs G G')
    (hquiet : Quiet ⟨c, as, .loop .proceed⟩) (hown : (counted c).SelfContained)
    (hquiet' : Undisturbed ⟨c', bs, .loop .proceed⟩) :
    MatchesLater (exec .loop Exec.poll c as) (exec .loop Exec.keepingPoll c' bs) := by
  obtain ⟨f, r, htop, hcallee, hawaiting, hruns⟩ := hgoes
  obtain ⟨L₁, L₁', M₁', g, own, rfl, rfl, hlayouts₁, hframes, -⟩ := hlayouts.exists_frame htop
  have hnext' : (exec .loop Exec.keepingPoll c' bs).Undisturbed := hquiet'.next
  have hscript (own : List Value) : f.callee.isFunction = false → own = [] := by
    rw [hcallee]
    exact fun hnative => by cases hnative
  have hview : g.view = f.view := by
    rw [hframes.like]
    rfl
  have hintended := intended_stepIntent (faces_counted h) (placed_counted hplaced) hview
    hframes.base hown
  have hplain := Exec.simple_stepIntent.plain (counted c)
  rw [exec_congr (hquiet' 0).keepingPoll] at hnext'
  rw [exec_congr hquiet.poll, exec_congr (hquiet' 0).keepingPoll]
  generalize hrun : Exec.stepIntent (counted c) = result at hintended hplain
  generalize hrun' : Exec.stepIntent (counted c') = result' at hintended
  cases hintended with
  | @error e c₁ c₁' own₁ locals pendingArgs h₁ hplaced₁ =>
    have hkeeps : c.world.KeepsClosures c₁.world := hplain.world.keepsClosures
    have hreturns (x : Callee) (ip : Nat) : c.world.ReturnsAt x ip → c₁.world.ReturnsAt x ip :=
      fun hx => hx.mono hkeeps
    have hwhole := (hlayouts₁.mono hreturns).frame
      ((hframes.mono hreturns).updated locals pendingArgs) own₁ (hscript _)
    rw [exec_error (Exec.run_bind_of_error hrun), exec_error (Exec.run_bind_of_error hrun')]
    exact (MatchesKeeping.mk h₁ (hloops.mono hkeeps)
      (.failed hplaced₁ hwhole (spends_self _ _) (.same e))).matchesLater
  | @ok intent c₁ c₁' own₁ locals pendingArgs h₁ hplaced₁ =>
    have hkeeps : c.world.KeepsClosures c₁.world := hplain.world.keepsClosures
    have hreturns (x : Callee) (ip : Nat) : c.world.ReturnsAt x ip → c₁.world.ReturnsAt x ip :=
      fun hx => hx.mono hkeeps
    have hchunk : c₁.proc.chunk? = c.proc.chunk? := hplain.chunk.trans (chunk_counted c)
    have hheight : c₁.proc.frames.height = c.proc.frames.height :=
      hplain.height.trans (congrArg Stack.height (counted_frames c))
    have hheight' : c₁'.proc.frames.height = c'.proc.frames.height := by
      rw [Stack.height_eq, Stack.height_eq, h₁.frames', h.frames']
      rfl
    have hsettings : c₁.world.settings = c.world.settings := hplain.world.settings
    have hsettings' : c₁'.world.settings = c'.world.settings := by
      rw [h₁.world.settings, hsettings, h.world.settings]
    rw [exec_congr (Exec.run_bind_of_ok hrun')] at hnext'
    rw [exec_congr (Exec.run_bind_of_ok hrun), exec_congr (Exec.run_bind_of_ok hrun')]
    exact matchesLater_carryOut h₁ hplaced₁ (hlayouts₁.mono hreturns)
      ((hframes.mono hreturns).updated locals pendingArgs) hcallee hawaiting
      (hchunk ▸ hruns.mono hkeeps) (hloops.mono hkeeps)
      (room_of_same hheight hsettings hquiet.room)
      (room_of_same hheight' hsettings' (hquiet' 0).room) intent hnext'

end

end Machine

end ScriptEngine
