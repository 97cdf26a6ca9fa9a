import ScriptEngine.Proofs.Machine.Results

/-!
# One loop in two places

Two processors run the same loop: on both it has the same frames, but above different
ones, the first processor counts one loop more, and the lowest frames of the loop may hand
their results on to different places.  Whatever a processor does in the loop comes to the
same on both, until the lowest frame has returned.
-/

namespace ScriptEngine

/-- How the second processor hands the result of the loop on: as the first one does, or with
other flags to another address. -/
inductive ResultTarget where
  | same
  | moved (entryPoint : Bool) (returnAddress : Nat)

/-- Whether the lowest frame of the loop ends a loop on the second processor too. -/
def ResultTarget.entryPoint : ResultTarget → Bool
  | .same => true
  | .moved entryPoint _ => entryPoint

/-- Where the loop is on both processors. -/
structure LoopPlacement where
  resultTarget : ResultTarget
  /-- The frames below the loop, on the first processor. -/
  lower : List Frame
  /-- Frames of the second processor that belong to the loop in which the result is handed on. -/
  rest : List Frame
  /-- The frames below that loop. -/
  lower' : List Frame
  /-- The number of loops on the second processor. -/
  nesting : Nat
  short : (rest ++ lower').length ≤ lower.length
  alone : resultTarget.entryPoint = true → rest = []
  loops : 1 ≤ nesting
  inner : resultTarget = .same → 2 ≤ nesting

namespace ResultTarget

/-- Where the result of the loop goes on both processors. -/
def Meets : ResultTarget → FrameFlags → Nat → FrameFlags → Nat → Prop
  | .same, flags, address, flags', address' =>
      flags.entryPoint = true ∧ flags' = flags ∧ address' = address
  | .moved entryPoint target, flags, _, flags', address' =>
      flags.entryPoint = true ∧ flags'.entryPoint = entryPoint ∧ address' = target ∧
        flags'.methodCall = flags.methodCall ∧ flags'.awaiting = flags.awaiting

/-- The address at which these frames of the loop go on.  A frame that waits for a result does
not go on at any, so that it does not matter there. -/
def Aims (T : ResultTarget) (fs : List Frame) (address address' : Nat) : Prop :=
  address' = address ∨ T ≠ .same ∧ ∃ f, fs.head? = some f ∧ f.flags.awaiting = true

/-- Where a result goes that belongs right above these frames of the loop. -/
def Hands (T : ResultTarget) (fs : List Frame) (flags : FrameFlags) (address : Nat)
    (flags' : FrameFlags) (address' : Nat) : Prop :=
  fs = [] ∧ T.Meets flags address flags' address' ∨
    fs ≠ [] ∧ flags.entryPoint = false ∧ flags' = flags ∧ T.Aims fs address address'

/-- Frames that belong right above these frames of the loop: they hand their results on alike,
and otherwise they are the same. -/
structure Frames (T : ResultTarget) (fs : List Frame) (f g : Frame) : Prop where
  like : g = { f with flags := g.flags, returnAddress := g.returnAddress }
  hands : T.Hands fs f.flags f.returnAddress g.flags g.returnAddress
  /-- No result of the loop is adapted for an operator. -/
  plain : fs = [] → ∀ p, f.handlers.continuation? ≠ some (.post p)

/-- The frames of the loop. -/
inductive Stacks (T : ResultTarget) : List Frame → List Frame → Prop where
  | nil : Stacks T [] []
  | cons {f g : Frame} {fs gs : List Frame} (hframes : T.Frames fs f g) (h : Stacks T fs gs) :
      Stacks T (f :: fs) (g :: gs)

variable {T : ResultTarget} {fs gs : List Frame} {f g : Frame} {flags flags' : FrameFlags}
  {address address' : Nat}

theorem Meets.entryPoint (h : T.Meets flags address flags' address') :
    flags.entryPoint = true ∧ flags'.entryPoint = T.entryPoint := by
  cases T with
  | same =>
    obtain ⟨hentry, rfl, -⟩ := h
    exact ⟨hentry, hentry⟩
  | moved entryPoint target => exact ⟨h.1, h.2.1⟩

theorem Meets.methodCall (h : T.Meets flags address flags' address') :
    flags'.methodCall = flags.methodCall := by
  cases T with
  | same => rw [h.2.1]
  | moved entryPoint target => exact h.2.2.2.1

theorem Meets.awaiting (h : T.Meets flags address flags' address') :
    flags'.awaiting = flags.awaiting := by
  cases T with
  | same => rw [h.2.1]
  | moved entryPoint target => exact h.2.2.2.2

/-- A call in place of the lowest frame. -/
theorem Meets.replaced (h : T.Meets flags address flags' address') (methodCall tailCall : Bool) :
    T.Meets { methodCall, tailCall, entryPoint := flags.entryPoint } address
      { methodCall, tailCall, entryPoint := flags'.entryPoint } address' := by
  cases T with
  | same =>
    obtain ⟨hentry, rfl, rfl⟩ := h
    exact ⟨hentry, rfl, rfl⟩
  | moved entryPoint target => exact ⟨h.1, h.2.1, h.2.2.1, rfl, rfl⟩

theorem Hands.methodCall (h : T.Hands fs flags address flags' address') :
    flags'.methodCall = flags.methodCall := by
  rcases h with ⟨-, hmeets⟩ | ⟨-, -, rfl, -⟩
  · exact hmeets.methodCall
  · rfl

theorem Hands.awaiting (h : T.Hands fs flags address flags' address') :
    flags'.awaiting = flags.awaiting := by
  rcases h with ⟨-, hmeets⟩ | ⟨-, -, rfl, -⟩
  · exact hmeets.awaiting
  · rfl

/-- Only where the ending of the loop is moved does anything differ. -/
theorem Hands.eq_of_same (h : ResultTarget.same.Hands fs flags address flags' address') :
    flags' = flags ∧ address' = address := by
  rcases h with ⟨-, -, hflags, haddress⟩ | ⟨-, -, hflags, haddress | ⟨hmoved, -⟩⟩
  · exact ⟨hflags, haddress⟩
  · exact ⟨hflags, haddress⟩
  · exact absurd rfl hmoved

/-- A call in place of the frames. -/
theorem Hands.replaced (h : T.Hands fs flags address flags' address')
    (methodCall tailCall : Bool) :
    T.Hands fs { methodCall, tailCall, entryPoint := flags.entryPoint } address
      { methodCall, tailCall, entryPoint := flags'.entryPoint } address' := by
  rcases h with ⟨hnil, hmeets⟩ | ⟨hne, hinner, rfl, haims⟩
  · exact Or.inl ⟨hnil, hmeets.replaced methodCall tailCall⟩
  · exact Or.inr ⟨hne, hinner, rfl, haims⟩

/-- A call above frames of the loop, whose result belongs to them. -/
theorem hands_of_ne_nil (hne : fs ≠ []) (hinner : flags.entryPoint = false) (address : Nat) :
    T.Hands fs flags address flags address :=
  Or.inr ⟨hne, hinner, rfl, Or.inl rfl⟩

/-- A frame that begins right above these. -/
theorem Hands.frames (h : T.Hands fs flags address flags' address') (callee : Callee)
    (base : Nat) {handlers : Handlers} (pendingArgs : List Value)
    (hplain : fs = [] → ∀ p, handlers.continuation? ≠ some (.post p)) :
    T.Frames fs { callee, base, returnAddress := address, flags, handlers, pendingArgs }
      { callee, base, returnAddress := address', flags := flags', handlers, pendingArgs } :=
  ⟨rfl, h, hplain⟩

theorem Frames.view (h : T.Frames fs f g) : g.view = f.view := by
  rw [h.like]
  rfl

theorem Frames.callee (h : T.Frames fs f g) : g.callee = f.callee := by
  rw [h.like]

theorem Frames.base (h : T.Frames fs f g) : g.base = f.base := by
  rw [h.like]

theorem Frames.handlers (h : T.Frames fs f g) : g.handlers = f.handlers := by
  rw [h.like]

theorem Frames.eq_of_same (h : ResultTarget.same.Frames fs f g) : g = f := by
  obtain ⟨hflags, haddress⟩ := h.hands.eq_of_same
  rw [h.like, hflags, haddress]

/-- The frame waits for a call that it has asked for. -/
theorem Frames.waiting (h : T.Frames fs f g) :
    T.Frames fs { f with flags := { f.flags with awaiting := true } }
      { g with flags := { g.flags with awaiting := true } } := by
  refine ⟨by rw [h.like], ?_, h.plain⟩
  rcases h.hands with ⟨hnil, hmeets⟩ | ⟨hne, hinner, hflags, haims⟩
  · refine Or.inl ⟨hnil, ?_⟩
    cases T with
    | same =>
      obtain ⟨hentry, hflags, haddress⟩ := hmeets
      exact ⟨hentry, by rw [hflags], haddress⟩
    | moved entryPoint target => exact ⟨hmeets.1, hmeets.2.1, hmeets.2.2.1, hmeets.2.2.2.1, rfl⟩
  · exact Or.inr ⟨hne, hinner, by rw [hflags], haims⟩

/-- The call that the frame waits for: it does not go on at an address. -/
theorem Frames.awaited (h : T.Frames fs f g) :
    T.Hands ({ f with flags := { f.flags with awaiting := true } } :: fs) {} f.returnAddress {}
      g.returnAddress := by
  refine Or.inr ⟨List.cons_ne_nil _ _, rfl, rfl, ?_⟩
  by_cases hsame : T = .same
  · subst hsame
    exact Or.inl h.hands.eq_of_same.2
  · exact Or.inr ⟨hsame, _, rfl, rfl⟩

/-- The frame has other variables. -/
theorem Frames.updated (h : T.Frames fs f g) (locals : Array CellRef)
    (pendingArgs : List Value) :
    T.Frames fs { f with locals, pendingArgs } { g with locals, pendingArgs } := by
  refine ⟨?_, h.hands, h.plain⟩
  rw [h.like]

theorem Stacks.length_eq (h : T.Stacks fs gs) : gs.length = fs.length := by
  induction h with
  | nil => rfl
  | cons hframes h ih => simp [ih]

theorem Stacks.nil_of_nil (h : T.Stacks [] gs) : gs = [] := by
  cases h
  rfl

theorem Stacks.eq_of_same (h : ResultTarget.same.Stacks fs gs) : gs = fs := by
  induction h with
  | nil => rfl
  | cons hframes h ih => rw [hframes.eq_of_same, ih]

/-- Below the topmost frames is the rest of the loop. -/
theorem Stacks.exists_cons (h : T.Stacks fs gs) (hne : fs ≠ []) :
    ∃ f fs' g gs', fs = f :: fs' ∧ gs = g :: gs' ∧ T.Frames fs' f g ∧ T.Stacks fs' gs' := by
  cases h with
  | nil => exact absurd rfl hne
  | cons hframes h => exact ⟨_, _, _, _, rfl, rfl, hframes, h⟩

end ResultTarget

namespace LoopPlacement

variable {H : HostTypes}

/-- The two processors, with the frames of the loop. -/
structure Beside (P : LoopPlacement) (fs gs : List Frame) (p q : Processor) : Prop where
  stack : q.stack = p.stack
  ip : q.ip = p.ip
  chunk : q.chunk? = p.chunk?
  canYield : q.canYield = p.canYield
  yielded : q.yielded? = p.yielded?
  nesting : p.nesting = P.nesting + 1
  nesting' : q.nesting = P.nesting
  frames : p.frames.items = fs ++ P.lower
  frames' : q.frames.items = gs ++ (P.rest ++ P.lower')
  framesAlike : P.resultTarget.Stacks fs gs

/-- The same world around the two processors. -/
structure Meets (P : LoopPlacement) (fs gs : List Frame) (c c' : Core H) : Prop where
  world : c'.world = c.world
  beside : P.Beside fs gs c.proc c'.proc

variable {P : LoopPlacement} {fs gs : List Frame} {p q : Processor} {c c' : Core H}

theorem Beside.height_le (h : P.Beside fs gs p q) : q.frames.height ≤ p.frames.height := by
  have hlength := h.framesAlike.length_eq
  have hshort := P.short
  simp only [p.frames.height_eq, q.frames.height_eq, h.frames, h.frames', List.length_append]
    at hshort ⊢
  omega

/-- Other operands. -/
theorem Meets.withStack (h : P.Meets fs gs c c') (stack : Stack Value) :
    P.Meets fs gs { c with proc := { c.proc with stack } }
      { c' with proc := { c'.proc with stack } } := by
  refine ⟨h.world, ?_⟩
  exact { h.beside with stack := rfl }

theorem Meets.withIp (h : P.Meets fs gs c c') (ip : Nat) :
    P.Meets fs gs { c with proc := { c.proc with ip } }
      { c' with proc := { c'.proc with ip } } := by
  refine ⟨h.world, ?_⟩
  exact { h.beside with ip := rfl }

theorem Meets.withWorld (h : P.Meets fs gs c c') (w : World H) :
    P.Meets fs gs { c with world := w } { c' with world := w } :=
  ⟨rfl, h.beside⟩

/-- Other frames of the loop. -/
theorem Meets.withFrames (h : P.Meets fs gs c c') {fs' gs' : List Frame}
    {frames frames' : Stack Frame} (hst : P.resultTarget.Stacks fs' gs')
    (hframes : frames.items = fs' ++ P.lower)
    (hframes' : frames'.items = gs' ++ (P.rest ++ P.lower')) :
    P.Meets fs' gs' { c with proc := { c.proc with frames } }
      { c' with proc := { c'.proc with frames := frames' } } := by
  refine ⟨h.world, ?_⟩
  exact { h.beside with
    frames := hframes
    frames' := hframes'
    framesAlike := hst }

/-- The topmost frames, if the loop has any. -/
theorem Meets.exists_top (h : P.Meets fs gs c c') (hne : fs ≠ []) :
    ∃ f fs' g gs', ∃ rest rest' : Stack Frame, fs = f :: fs' ∧ gs = g :: gs' ∧
      c.proc.frames = rest.push f ∧ c'.proc.frames = rest'.push g ∧
      rest.items = fs' ++ P.lower ∧ rest'.items = gs' ++ (P.rest ++ P.lower') ∧
      P.resultTarget.Frames fs' f g ∧ P.resultTarget.Stacks fs' gs' := by
  obtain ⟨f, fs', g, gs', rfl, rfl, hframes, hst⟩ := h.beside.framesAlike.exists_cons hne
  refine ⟨f, fs', g, gs', ⟨fs' ++ P.lower, _, rfl⟩, ⟨gs' ++ (P.rest ++ P.lower'), _, rfl⟩,
    rfl, rfl, Stack.ext ?_, Stack.ext ?_, rfl, rfl, hframes, hst⟩
  · exact h.beside.frames
  · exact h.beside.frames'

/-! ## Simple programs -/

/-- The same has happened in the loop. -/
inductive Keeps (P : LoopPlacement) {α : Type} :
    EStateM.Result RuntimeError (Core H) α → EStateM.Result RuntimeError (Core H) α → Prop where
  | ok {fs gs : List Frame} {c c' : Core H} (a : α) (hne : fs ≠ []) (h : P.Meets fs gs c c') :
      Keeps P (.ok a c) (.ok a c')
  | error {fs gs : List Frame} {c c' : Core H} (e : RuntimeError) (hne : fs ≠ [])
      (h : P.Meets fs gs c c') : Keeps P (.error e c) (.error e c')

end LoopPlacement

namespace Exec

variable {H : HostTypes} {α β : Type} {P : LoopPlacement} {fs gs : List Frame} {c c' : Core H}

/-- The program does the same in both places, as long as the loop has frames. -/
def Kept (P : LoopPlacement) (x : Exec H α) : Prop :=
  ∀ (fs gs : List Frame) (c c' : Core H), fs ≠ [] → P.Meets fs gs c c' → P.Keeps (x c) (x c')

theorem Kept.bind {x : Exec H α} {f : α → Exec H β} (hx : Kept P x) (hf : ∀ a, Kept P (f a)) :
    Kept P (x >>= f) := by
  intro fs gs c c' hne h
  have hfirst := hx _ _ _ _ hne h
  rw [run_bind, run_bind]
  generalize x c = r at hfirst
  generalize x c' = r' at hfirst
  cases hfirst with
  | ok a hne' h' => exact hf a _ _ _ _ hne' h'
  | error e hne' h' => exact .error e hne' h'

theorem kept_pure (a : α) : Kept P (pure a : Exec H α) := by
  intro _ _ _ _ hne h
  exact .ok a hne h

theorem kept_throw (e : RuntimeError) : Kept P (throw e : Exec H α) := by
  intro _ _ _ _ hne h
  exact .error e hne h

theorem kept_changeWorld (f : World H → α × World H) : Kept P (changeWorld f) := by
  rintro fs gs ⟨w, p⟩ ⟨w', q⟩ hne h
  obtain rfl : w' = w := h.world
  exact .ok _ hne (h.withWorld (f w').2)

theorem kept_modifyWorld (f : World H → World H) : Kept P (modifyWorld f) := by
  rintro fs gs ⟨w, p⟩ ⟨w', q⟩ hne h
  obtain rfl : w' = w := h.world
  exact .ok () hne (h.withWorld (f w'))

theorem kept_ask (f : World H → α) : Kept P (ask f) := by
  intro fs gs c c' hne h
  rw [ask_run, ask_run, h.world]
  exact .ok _ hne h

theorem kept_askStack : Kept P (askProc (·.stack) : Exec H (Stack Value)) := by
  intro fs gs c c' hne h
  rw [askProc_run, askProc_run, h.beside.stack]
  exact .ok _ hne h

theorem kept_modifyStack (f : Stack Value → Stack Value) :
    Kept P (modifyProc fun p => { p with stack := f p.stack } : Exec H Unit) := by
  intro fs gs c c' hne h
  rw [modifyProc_run, modifyProc_run, h.beside.stack]
  exact .ok () hne (h.withStack _)

theorem kept_addOffsets (a b : Nat) : Kept P (addOffsets a b : Exec H Nat) := by
  unfold addOffsets
  split
  · exact kept_pure _
  · exact kept_throw _

theorem kept_pop : Kept P (pop : Exec H Value) := by
  refine kept_askStack.bind fun stack => ?_
  cases stack.pop? with
  | none => exact kept_throw _
  | some p => exact (kept_modifyStack fun _ => p.2).bind fun _ => kept_pure p.1

theorem kept_popMany (n : Nat) : Kept P (popMany n : Exec H (List Value)) := by
  refine kept_askStack.bind fun stack => ?_
  cases stack.popMany? n with
  | none => exact kept_throw _
  | some p => exact (kept_modifyStack fun _ => p.2).bind fun _ => kept_pure p.1

theorem kept_peek (offset : Nat) : Kept P (peek offset : Exec H Value) := by
  refine (kept_addOffsets _ _).bind fun _ => kept_askStack.bind fun stack => ?_
  cases stack.get? offset with
  | none => exact kept_throw _
  | some v => exact kept_pure v

theorem kept_swap (i : Instruction) : Kept P (swap i : Exec H Unit) := by
  refine (kept_addOffsets _ _).bind fun _ => (kept_addOffsets _ _).bind fun _ =>
    kept_askStack.bind fun stack => ?_
  cases stack.swap? i.num i.num2 with
  | none => exact kept_throw _
  | some stack => exact kept_modifyStack fun _ => stack

theorem kept_numberOperand (offset : Nat) : Kept P (numberOperand offset : Exec H Float) := by
  refine (kept_peek offset).bind fun v => ?_
  cases v with
  | number n => exact kept_pure n
  | _ => exact kept_throw _

theorem kept_forStep : Kept P (forStep : Exec H Unit) := by
  have hstate : Kept P (forState : Exec H (Float × Float × Float)) :=
    (kept_numberOperand 2).bind fun var => (kept_numberOperand 1).bind fun limit =>
      (kept_numberOperand 0).bind fun step => kept_pure (var, limit, step)
  exact hstate.bind fun state =>
    kept_modifyStack fun stack => stack.set 2 (.number (state.1 + state.2.2))

theorem kept_jumpTo (ip : Nat) : Kept P (jumpTo ip : Exec H Unit) := by
  intro _ _ _ _ hne h
  exact .ok () hne (h.withIp ip)

theorem kept_fetch : Kept P (fetch : Exec H (Chunk × Instruction)) := by
  intro fs gs c c' hne h
  rw [fetch_run, fetch_run, h.beside.chunk, h.beside.ip]
  split
  · exact .error _ hne h
  · split
    · exact .error _ hne h
    · exact .ok _ hne (h.withIp _)

theorem kept_viewTop : Kept P (viewTop : Exec H FrameView) := by
  intro fs gs c c' hne h
  obtain ⟨f, fs', g, gs', rest, rest', rfl, rfl, htop, htop', -, -, hframes, -⟩ :=
    h.exists_top hne
  rw [viewTop_run (f := f) (by rw [htop]; rfl), viewTop_run (f := g) (by rw [htop']; rfl),
    hframes.view]
  exact .ok _ hne h

theorem kept_updateTop (locals : Array CellRef) (pendingArgs : List Value) :
    Kept P (updateTop locals pendingArgs : Exec H Unit) := by
  intro fs gs c c' hne h
  obtain ⟨f, fs', g, gs', rest, rest', rfl, rfl, htop, htop', hrest, hrest', hframes, hst⟩ :=
    h.exists_top hne
  rw [updateTop_run (f := f) (by rw [htop]; rfl), updateTop_run (f := g) (by rw [htop']; rfl)]
  refine .ok () (List.cons_ne_nil _ _)
    (h.withFrames (.cons (hframes.updated locals pendingArgs) hst) ?_ ?_)
  · rw [htop, Stack.items_set, Stack.items_push, hrest]
    rfl
  · rw [htop', Stack.items_set, Stack.items_push, hrest']
    rfl

/-- What is put together from simple operations keeps to the loop. -/
theorem Simple.kept {x : Exec H α} (hx : Simple x) : Kept P x := by
  induction hx with
  | pure a => exact kept_pure a
  | throw e => exact kept_throw e
  | bind hx hf ihx ihf => exact ihx.bind ihf
  | ask hf => exact kept_ask _
  | modifyWorld hf => exact kept_modifyWorld _
  | changeWorld hf => exact kept_changeWorld _
  | push v => exact kept_modifyStack fun stack => stack.push v
  | pushAll vs => exact kept_modifyStack fun stack => stack.pushAll vs
  | pop => exact kept_pop
  | popMany n => exact kept_popMany n
  | peek offset => exact kept_peek offset
  | swap i => exact kept_swap i
  | forStep => exact kept_forStep
  | jumpTo ip => exact kept_jumpTo ip
  | viewTop => exact kept_viewTop
  | updateTop locals pendingArgs => exact kept_updateTop locals pendingArgs
  | fetch => exact kept_fetch

end Exec

end ScriptEngine
