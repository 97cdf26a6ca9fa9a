import ScriptEngine.Proofs.Frame.LoopFrames
import ScriptEngine.Proofs.TailCall.AlikeWorlds

/-!
# Instructions above spent frames

An instruction that keeps to the operands of its own frame does the same on two processors with the
same topmost frame, whatever frames and operands are below it, in worlds alike.
-/

namespace ScriptEngine

variable {H : HostTypes} {α β : Type}

/-- The topmost frames see the same, with the same operands; the frames below are given. -/
structure Beside (fs gs : List Frame) (f g : Frame) (c c' : Core H) : Prop where
  world : c.world.Like c'.world
  twin : c.proc.Twin c'.proc
  placed : c.proc.Placed c'.proc
  stack : c'.proc.stack = c.proc.stack
  frames : c.proc.frames.items = f :: fs
  frames' : c'.proc.frames.items = g :: gs
  view : g.view = f.view

/-- The frame with other variables. -/
def Frame.updated (f : Frame) (locals : Array CellRef) (pendingArgs : List Value) : Frame :=
  { f with locals, pendingArgs }

/-- The same has happened with the topmost frames. -/
inductive KeptBeside (fs gs : List Frame) (f g : Frame) :
    EStateM.Result RuntimeError (Core H) α → EStateM.Result RuntimeError (Core H) α → Prop where
  | ok (a : α) {c c' : Core H} (locals : Array CellRef) (pendingArgs : List Value)
      (h : Beside fs gs (f.updated locals pendingArgs) (g.updated locals pendingArgs) c c') :
      KeptBeside fs gs f g (.ok a c) (.ok a c')
  | error (e : RuntimeError) {c c' : Core H} (locals : Array CellRef) (pendingArgs : List Value)
      (h : Beside fs gs (f.updated locals pendingArgs) (g.updated locals pendingArgs) c c') :
      KeptBeside fs gs f g (.error e c) (.error e c')

namespace Beside

variable {fs gs : List Frame} {f g : Frame} {c c' : Core H}

theorem updated_self (h : Beside fs gs f g c c') :
    Beside fs gs (f.updated f.locals f.pendingArgs) (g.updated f.locals f.pendingArgs) c c' := by
  have hg : g.updated f.locals f.pendingArgs = g := by
    have hlocals : g.locals = f.locals := congrArg FrameView.locals h.view
    have hargs : g.pendingArgs = f.pendingArgs := congrArg FrameView.pendingArgs h.view
    rw [← hlocals, ← hargs]
    rfl
  rw [hg]
  exact h

theorem ok (h : Beside fs gs f g c c') (a : α) : KeptBeside fs gs f g (.ok a c) (.ok a c') :=
  .ok a _ _ h.updated_self

theorem error (h : Beside fs gs f g c c') (e : RuntimeError) :
    KeptBeside fs gs f g (.error e c : EStateM.Result RuntimeError (Core H) α) (.error e c') :=
  .error e _ _ h.updated_self

theorem top? (h : Beside fs gs f g c c') :
    c.proc.frames.top? = some f ∧ c'.proc.frames.top? = some g := by
  unfold Stack.top?
  rw [h.frames, h.frames']
  exact ⟨rfl, rfl⟩

/-- Other operands. -/
theorem withStack (h : Beside fs gs f g c c') (stack : Stack Value) :
    Beside fs gs f g { c with proc := { c.proc with stack } }
      { c' with proc := { c'.proc with stack } } := by
  refine ⟨h.world, ?_, ?_, rfl, h.frames, h.frames', h.view⟩
  · exact ⟨h.twin.nesting, h.twin.canYield⟩
  · exact ⟨h.placed.ip, h.placed.chunk⟩

theorem withIp (h : Beside fs gs f g c c') (ip : Nat) :
    Beside fs gs f g { c with proc := { c.proc with ip } }
      { c' with proc := { c'.proc with ip } } := by
  refine ⟨h.world, ?_, ?_, h.stack, h.frames, h.frames', h.view⟩
  · exact ⟨h.twin.nesting, h.twin.canYield⟩
  · exact ⟨rfl, h.placed.chunk⟩

theorem withWorld (h : Beside fs gs f g c c') {w w' : World H} (hworld : w.Like w') :
    Beside fs gs f g { c with world := w } { c' with world := w' } :=
  ⟨hworld, h.twin, h.placed, h.stack, h.frames, h.frames', h.view⟩

end Beside

namespace Exec

variable {fs gs : List Frame} {f g : Frame} {c c' : Core H}

/-- The program does the same with topmost frames that see the same. -/
def Unaware (x : Exec H α) : Prop :=
  ∀ (fs gs : List Frame) (f g : Frame) (c c' : Core H), Beside fs gs f g c c' →
    KeptBeside fs gs f g (x c) (x c')

theorem Unaware.bind {x : Exec H α} {f : α → Exec H β} (hx : Unaware x)
    (hf : ∀ a, Unaware (f a)) : Unaware (x >>= f) := by
  intro fs gs top top' c c' h
  have hfirst := hx _ _ _ _ _ _ h
  rw [run_bind, run_bind]
  generalize x c = r at hfirst
  generalize x c' = r' at hfirst
  cases hfirst with
  | ok a locals pendingArgs h =>
    have hsecond := hf a _ _ _ _ _ _ h
    dsimp only
    generalize f a _ = r at hsecond
    generalize f a _ = r' at hsecond
    cases hsecond with
    | ok b locals' pendingArgs' h => exact .ok b locals' pendingArgs' h
    | error e locals' pendingArgs' h => exact .error e locals' pendingArgs' h
  | error e locals pendingArgs h => exact .error e locals pendingArgs h

theorem unaware_pure (a : α) : Unaware (pure a : Exec H α) := by
  intro _ _ _ _ _ _ h
  exact h.ok a

theorem unaware_throw (e : RuntimeError) : Unaware (throw e : Exec H α) := by
  intro _ _ _ _ _ _ h
  exact h.error e

theorem unaware_ask {k : World H → α} (hk : World.Blind k) : Unaware (ask k) := by
  intro fs gs f g c c' h
  rw [ask_run, ask_run, h.world.ask hk]
  exact h.ok _

theorem unaware_modifyWorld {k : World H → World H} (hk : World.Tame k) :
    Unaware (modifyWorld k) := by
  intro _ _ _ _ _ _ h
  exact (h.withWorld (h.world.of_tame hk)).ok ()

theorem unaware_changeWorld {k : World H → α × World H} (hk : World.TameWith k) :
    Unaware (changeWorld k) := by
  intro fs gs f g c c' h
  obtain ⟨hvalue, hworld⟩ := h.world.of_tameWith hk
  change KeptBeside fs gs f g (.ok (k c.world).1 _) (.ok (k c'.world).1 _)
  rw [hvalue]
  exact (h.withWorld hworld).ok _

theorem unaware_pushAll (vs : List Value) : Unaware (pushAll vs : Exec H Unit) := by
  intro fs gs f g c c' h
  change KeptBeside fs gs f g
    (.ok () { c with proc := { c.proc with stack := c.proc.stack.pushAll vs } })
    (.ok () { c' with proc := { c'.proc with stack := c'.proc.stack.pushAll vs } })
  rw [h.stack]
  exact (h.withStack _).ok ()

theorem unaware_pop : Unaware (pop : Exec H Value) := by
  intro fs gs f g c c' h
  rw [pop_run, pop_run, h.stack]
  cases c.proc.stack.pop? with
  | none => exact h.error _
  | some p => exact (h.withStack p.2).ok p.1

theorem unaware_popMany (n : Nat) : Unaware (popMany n : Exec H (List Value)) := by
  intro fs gs f g c c' h
  rw [popMany_run, popMany_run, h.stack]
  cases c.proc.stack.popMany? n with
  | none => exact h.error _
  | some p => exact (h.withStack p.2).ok p.1

theorem unaware_peek (offset : Nat) : Unaware (peek offset : Exec H Value) := by
  intro fs gs f g c c' h
  rw [peek_run, peek_run, h.stack]
  split
  · cases c.proc.stack.get? offset with
    | none => exact h.error _
    | some v => exact h.ok v
  · exact h.error _

theorem unaware_swap (i : Instruction) : Unaware (swap i : Exec H Unit) := by
  intro fs gs f g c c' h
  rw [swap_run, swap_run, h.stack]
  split
  · cases c.proc.stack.swap? i.num i.num2 with
    | none => exact h.error _
    | some stack => exact (h.withStack stack).ok ()
  · exact h.error _

theorem unaware_numberOperand (offset : Nat) : Unaware (numberOperand offset : Exec H Float) := by
  refine (unaware_peek offset).bind fun v => ?_
  cases v with
  | number n => exact unaware_pure n
  | _ => exact unaware_throw _

theorem unaware_forStep : Unaware (forStep : Exec H Unit) := by
  have hset (v : Value) : Unaware
      (modifyProc fun p => { p with stack := p.stack.set 2 v } : Exec H Unit) := by
    intro fs gs f g c c' h
    rw [modifyProc_run, modifyProc_run, h.stack]
    exact (h.withStack _).ok ()
  have hstate : Unaware (forState : Exec H (Float × Float × Float)) :=
    (unaware_numberOperand 2).bind fun _ => (unaware_numberOperand 1).bind fun _ =>
      (unaware_numberOperand 0).bind fun _ => unaware_pure _
  exact hstate.bind fun _ => hset _

theorem unaware_viewTop : Unaware (viewTop : Exec H FrameView) := by
  intro fs gs f g c c' h
  rw [viewTop_run h.top?.1, viewTop_run h.top?.2, h.view]
  exact h.ok _

theorem unaware_updateTop (locals : Array CellRef) (pendingArgs : List Value) :
    Unaware (updateTop locals pendingArgs : Exec H Unit) := by
  intro fs gs f g c c' h
  rw [updateTop_run h.top?.1, updateTop_run h.top?.2]
  have hview : (g.updated locals pendingArgs).view = (f.updated locals pendingArgs).view := by
    have hcallee : g.callee = f.callee := congrArg FrameView.callee h.view
    unfold Frame.view Frame.updated
    rw [hcallee]
  refine .ok () locals pendingArgs ⟨h.world, ⟨h.twin.nesting, h.twin.canYield⟩,
    ⟨h.placed.ip, h.placed.chunk⟩, h.stack, ?_, ?_, hview⟩
  · change c.proc.frames.items.set 0 _ = _
    rw [h.frames]
    rfl
  · change c'.proc.frames.items.set 0 _ = _
    rw [h.frames']
    rfl

theorem unaware_fetch : Unaware (fetch : Exec H (Chunk × Instruction)) := by
  intro fs gs f g c c' h
  rw [fetch_run, fetch_run, h.placed.chunk, h.placed.ip]
  cases c.proc.chunk? with
  | none => exact h.error _
  | some chunk =>
    dsimp only
    cases chunk.code[c.proc.ip]? with
    | none => exact h.error _
    | some i => exact (h.withIp _).ok _

theorem Simple.unaware {x : Exec H α} (hx : Simple x) : Unaware x := by
  induction hx with
  | pure a => exact unaware_pure a
  | throw e => exact unaware_throw e
  | bind hx hf ihx ihf => exact ihx.bind ihf
  | ask hk => exact unaware_ask hk
  | modifyWorld hk => exact unaware_modifyWorld hk
  | changeWorld hk => exact unaware_changeWorld hk
  | push v => exact unaware_pushAll [v]
  | pushAll vs => exact unaware_pushAll vs
  | pop => exact unaware_pop
  | popMany n => exact unaware_popMany n
  | peek offset => exact unaware_peek offset
  | swap i => exact unaware_swap i
  | forStep => exact unaware_forStep
  | jumpTo ip => exact fun _ _ _ _ _ _ h => (h.withIp ip).ok ()
  | viewTop => exact unaware_viewTop
  | updateTop locals pendingArgs => exact unaware_updateTop locals pendingArgs
  | fetch => exact unaware_fetch

end Exec

/-! ## Two processors face to face -/

/-- Two cores in the same loop, which stands on what is given, with their own layouts above it. -/
structure Faces (G G' L M' : Layout) (c c' : Core H) : Prop where
  world : c.world.Like c'.world
  twin : c.proc.Twin c'.proc
  layout : c.proc.layout = L ++ G
  layout' : c'.proc.layout = M' ++ G'

namespace Faces

variable {G G' L M' L₁ M₁' : Layout} {f g : Frame} {own own' : List Value} {c c' : Core H}

theorem frames (h : Faces G G' L M' c c') : c.proc.frames.items = L.frames ++ G.frames :=
  congrArg Layout.frames h.layout

theorem frames' (h : Faces G G' L M' c c') : c'.proc.frames.items = M'.frames ++ G'.frames :=
  congrArg Layout.frames h.layout'

theorem operands (h : Faces G G' L M' c c') : c.proc.stack.items = L.operands ++ G.operands :=
  congrArg Layout.operands h.layout

theorem operands' (h : Faces G G' L M' c c') : c'.proc.stack.items = M'.operands ++ G'.operands :=
  congrArg Layout.operands h.layout'

/-- The height of a frame's base on the operands. -/
theorem height (h : Faces G G' L M' c c') :
    c.proc.stack.height = L.operands.length + G.operands.length ∧
      c'.proc.stack.height = M'.operands.length + G'.operands.length := by
  rw [c.proc.stack.height_eq, c'.proc.stack.height_eq, h.operands, h.operands',
    List.length_append, List.length_append]
  exact ⟨rfl, rfl⟩

end Faces

/-- What the instruction does before anything happens to the frames is the same above the two
frames. -/
inductive Intended (G G' L M' : Layout) (f g : Frame) :
    EStateM.Result RuntimeError (Core H) α → EStateM.Result RuntimeError (Core H) α → Prop where
  | ok (a : α) {c c' : Core H} (own : List Value) (locals : Array CellRef)
      (pendingArgs : List Value)
      (h : Faces G G' (L.enter (f.updated locals pendingArgs) own)
        (M'.enter (g.updated locals pendingArgs) own) c c') (hplaced : c.proc.Placed c'.proc) :
      Intended G G' L M' f g (.ok a c) (.ok a c')
  | error (e : RuntimeError) {c c' : Core H} (own : List Value) (locals : Array CellRef)
      (pendingArgs : List Value)
      (h : Faces G G' (L.enter (f.updated locals pendingArgs) own)
        (M'.enter (g.updated locals pendingArgs) own) c c') (hplaced : c.proc.Placed c'.proc) :
      Intended G G' L M' f g (.error e c) (.error e c')

theorem intended_stepIntent [HostObjects H] {G G' L M' : Layout} {f g : Frame} {own : List Value}
    {c c' : Core H} (h : Faces G G' (L.enter f own) (M'.enter g own) c c')
    (hplaced : c.proc.Placed c'.proc) (hview : g.view = f.view)
    (hbase : f.base = L.operands.length + G.operands.length) (hown : c.SelfContained) :
    Intended G G' L M' f g (Exec.stepIntent c) (Exec.stepIntent c') := by
  have hoperands : c.proc.stack.items = own ++ (L ++ G).operands := by
    rw [h.operands]
    exact List.append_assoc _ _ _
  have hoperands' : c'.proc.stack.items = own ++ (M' ++ G').operands := by
    rw [h.operands']
    exact List.append_assoc _ _ _
  have htop : c.proc.frames.top? = some f := by
    unfold Stack.top?
    rw [h.frames]
    rfl
  have habove : c.proc.stack.above f.base = own := by
    rw [hbase, ← List.length_append]
    exact items_above_append hoperands
  have halone : ¬Exec.Underflows (Exec.stepIntent (c.withOperands own)) := by
    unfold Core.SelfContained Core.alone at hown
    rw [htop] at hown
    dsimp only at hown
    rwa [habove] at hown
  have hbeside : Beside (L.frames ++ G.frames) (M'.frames ++ G'.frames) f g
      (c.withOperands own) (c'.withOperands own) :=
    ⟨h.world, ⟨h.twin.nesting, h.twin.canYield⟩, ⟨hplaced.ip, hplaced.chunk⟩, rfl, h.frames,
      h.frames', hview⟩
  have hkept := Exec.simple_stepIntent.unaware _ _ _ _ _ _ hbeside
  have hframed := (Exec.simple_stepIntent.local c own _ hoperands).resolve_left halone
  have hframed' := Exec.simple_stepIntent.local c' own _ hoperands'
  generalize Exec.stepIntent (c.withOperands own) = r at hkept hframed halone
  generalize Exec.stepIntent (c'.withOperands own) = r' at hkept hframed'
  cases hkept with
  | @ok intent d d' locals pendingArgs h =>
    obtain ⟨e, items, hrun, rfl, hitems⟩ := hframed.of_ok
    have hframed' := hframed'.resolve_left fun ⟨_, hunder⟩ => by cases hunder
    obtain ⟨e', items', hrun', rfl, hitems'⟩ := hframed'.of_ok
    obtain rfl : items' = items := congrArg Stack.items h.stack
    rw [hrun, hrun']
    refine .ok intent items' locals pendingArgs
      ⟨h.world, ⟨h.twin.nesting, h.twin.canYield⟩, ?_, ?_⟩ ⟨h.placed.ip, h.placed.chunk⟩
    · exact Layout.ext h.frames (hitems.trans (List.append_assoc _ _ _).symm)
    · exact Layout.ext h.frames' (hitems'.trans (List.append_assoc _ _ _).symm)
  | @error error d d' locals pendingArgs h =>
    obtain ⟨e, items, hrun, rfl, hitems⟩ := hframed.of_error
    have hframed' := hframed'.resolve_left fun ⟨_, hunder⟩ => by
      cases hunder
      exact halone ⟨_, rfl⟩
    obtain ⟨e', items', hrun', rfl, hitems'⟩ := hframed'.of_error
    obtain rfl : items' = items := congrArg Stack.items h.stack
    rw [hrun, hrun']
    refine .error error items' locals pendingArgs
      ⟨h.world, ⟨h.twin.nesting, h.twin.canYield⟩, ?_, ?_⟩ ⟨h.placed.ip, h.placed.chunk⟩
    · exact Layout.ext h.frames (hitems.trans (List.append_assoc _ _ _).symm)
    · exact Layout.ext h.frames' (hitems'.trans (List.append_assoc _ _ _).symm)

end ScriptEngine
