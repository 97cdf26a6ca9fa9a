import ScriptEngine.Machine.Execute
import ScriptEngine.Proofs.World.ScriptView

/-!
# Simple programs

Most of what an instruction does is put together from a few operations on
operands, variables and the objects of the world.  They leave the frames alone
but for the variables of the topmost one.  `Exec.Simple` is the class of such
programs: a fact about its operations, by induction, is a fact about all of
them.
-/

namespace ScriptEngine

/-- What an instruction sees of the frame it runs in. -/
structure FrameView where
  callee : Callee
  locals : Array CellRef
  pendingArgs : List Value

def Frame.view (f : Frame) : FrameView := ⟨f.callee, f.locals, f.pendingArgs⟩

namespace Exec

variable {H : HostTypes}

def viewTop : Exec H FrameView := do pure (← topFrame).view

/-- Gives the topmost frame other variables and pending arguments. -/
def updateTop (locals : Array CellRef) (pendingArgs : List Value) :
    Exec H Unit :=
  modifyProc fun p =>
    match p.frames.top? with
    | some f => { p with frames := p.frames.set 0 { f with locals, pendingArgs } }
    | none => p

/-- Fetches the instruction to come. -/
def fetch : Exec H (Chunk × Instruction) := do
  match ← askProc (·.chunk?) with
  | none => internal "no bytecode loaded"
  | some chunk =>
    let ip ← askProc (·.ip)
    match chunk.code[ip]? with
    | none => internal ("instruction pointer " ++ toString ip ++ " out of range")
    | some i =>
      jumpTo (ip + 1)
      pure (chunk, i)

/-! ## Runs of single operations -/

theorem run_bind {α β : Type} (x : Exec H α) (f : α → Exec H β) (c : Core H) :
    (x >>= f) c =
      match x c with
      | .ok a c' => f a c'
      | .error e c' => .error e c' := by
  change EStateM.bind x f c = _
  unfold EStateM.bind
  cases x c <;> rfl

theorem modifyProc_run (f : Processor → Processor) (c : Core H) :
    modifyProc f c = .ok () { c with proc := f c.proc } := rfl

theorem run_bind_of_ok {α β : Type} {x : Exec H α} {f : α → Exec H β}
    {a : α} {c c' : Core H} (h : x c = .ok a c') : (x >>= f) c = f a c' := by
  rw [run_bind, h]

theorem run_bind_of_error {α β : Type} {x : Exec H α} {f : α → Exec H β}
    {e : RuntimeError} {c c' : Core H} (h : x c = .error e c') :
    (x >>= f) c = .error e c' := by
  rw [run_bind, h]

theorem addOffsets_run (a b : Nat) (c : Core H) :
    addOffsets a b c =
      if a + b < wordLimit then .ok (a + b) c
      else .error (.fault .offsetOverflow) c := by
  unfold addOffsets
  split <;> rfl

theorem ask_run {α : Type} (f : World H → α) (c : Core H) :
    ask f c = .ok (f c.world) c := rfl

theorem askProc_run {α : Type} (f : Processor → α) (c : Core H) :
    askProc f c = .ok (f c.proc) c := rfl

theorem pop_run (c : Core H) :
    pop c =
      match c.proc.stack.pop? with
      | some (v, stack) => .ok v { c with proc := { c.proc with stack } }
      | none => .error (.internal "value stack underflow") c := by
  rw [pop, run_bind_of_ok (askProc_run _ c)]
  cases c.proc.stack.pop? with
  | none => rfl
  | some p => rfl

theorem popMany_run (n : Nat) (c : Core H) :
    popMany n c =
      match c.proc.stack.popMany? n with
      | some (vs, stack) => .ok vs { c with proc := { c.proc with stack } }
      | none => .error (.internal "value stack underflow") c := by
  rw [popMany, run_bind_of_ok (askProc_run _ c)]
  cases c.proc.stack.popMany? n with
  | none => rfl
  | some p => rfl

theorem peek_run (offset : Nat) (c : Core H) :
    peek offset c =
      if offset + 1 < wordLimit then
        match c.proc.stack.get? offset with
        | some v => .ok v c
        | none => .error (.internal "value stack underflow") c
      else .error (.fault .offsetOverflow) c := by
  by_cases hword : offset + 1 < wordLimit
  · have hsum : addOffsets offset 1 c = .ok (offset + 1) c := by
      rw [addOffsets_run, if_pos hword]
    rw [peek, run_bind_of_ok hsum, run_bind_of_ok (askProc_run _ c),
      if_pos hword]
    cases c.proc.stack.get? offset <;> rfl
  · have hsum : addOffsets offset 1 c = .error (.fault .offsetOverflow) c := by
      rw [addOffsets_run, if_neg hword]
    rw [peek, run_bind_of_error hsum, if_neg hword]

theorem swap_run (i : Instruction) (c : Core H) :
    swap i c =
      if i.num + 1 < wordLimit ∧ i.num2 + 1 < wordLimit then
        match c.proc.stack.swap? i.num i.num2 with
        | some stack => .ok () { c with proc := { c.proc with stack } }
        | none => .error (.internal "value stack underflow") c
      else .error (.fault .offsetOverflow) c := by
  by_cases hfirst : i.num + 1 < wordLimit
  · have hsum : addOffsets i.num 1 c = .ok (i.num + 1) c := by
      rw [addOffsets_run, if_pos hfirst]
    rw [swap, run_bind_of_ok hsum]
    by_cases hsecond : i.num2 + 1 < wordLimit
    · have hsum' : addOffsets i.num2 1 c = .ok (i.num2 + 1) c := by
        rw [addOffsets_run, if_pos hsecond]
      rw [run_bind_of_ok hsum', run_bind_of_ok (askProc_run _ c),
        if_pos ⟨hfirst, hsecond⟩]
      cases c.proc.stack.swap? i.num i.num2 <;> rfl
    · have hsum' :
          addOffsets i.num2 1 c = .error (.fault .offsetOverflow) c := by
        rw [addOffsets_run, if_neg hsecond]
      rw [run_bind_of_error hsum', if_neg fun h => hsecond h.2]
  · have hsum : addOffsets i.num 1 c = .error (.fault .offsetOverflow) c := by
      rw [addOffsets_run, if_neg hfirst]
    rw [swap, run_bind_of_error hsum, if_neg fun h => hfirst h.1]

/-- The instruction to come, if there is one. -/
theorem fetch_run (c : Core H) :
    fetch c =
      match c.proc.chunk? with
      | none => .error (.internal "no bytecode loaded") c
      | some chunk =>
        match chunk.code[c.proc.ip]? with
        | none =>
          .error
            (.internal ("instruction pointer " ++ toString c.proc.ip ++
              " out of range")) c
        | some i =>
          .ok (chunk, i) { c with proc := { c.proc with ip := c.proc.ip + 1 } }
      := by
  rw [fetch, run_bind_of_ok (askProc_run _ c)]
  cases c.proc.chunk? with
  | none => rfl
  | some chunk =>
      simp only
      rw [run_bind_of_ok (askProc_run _ c)]
      cases chunk.code[c.proc.ip]? with
      | none => rfl
      | some i => rfl

theorem fetch_run_of_code {c : Core H} {chunk : Chunk} {i : Instruction}
    (hchunk : c.proc.chunk? = some chunk) (hcode : chunk.code[c.proc.ip]? = some i) :
    fetch c = .ok (chunk, i) { c with proc := { c.proc with ip := c.proc.ip + 1 } } := by
  rw [fetch_run, hchunk]
  dsimp only
  rw [hcode]

theorem fetch_run_of_no_code {c : Core H} {chunk : Chunk}
    (hchunk : c.proc.chunk? = some chunk) (hcode : chunk.code[c.proc.ip]? = none) :
    fetch c =
      .error (.internal ("instruction pointer " ++ toString c.proc.ip ++ " out of range")) c := by
  rw [fetch_run, hchunk]
  dsimp only
  rw [hcode]

/-- The number at an offset from the top. -/
def numberOperand (offset : Nat) : Exec H Float := do
  match ← peek offset with
  | .number n => pure n
  | _ => internal "numeric for state is not numeric"

theorem numberOperand_run (offset : Nat) (c : Core H) :
    (∃ n, c.proc.stack.get? offset = some (.number n) ∧
      numberOperand offset c = .ok n c) ∨
    ∃ e, numberOperand offset c = .error e c := by
  have hpeek := peek_run offset c
  by_cases hword : offset + 1 < wordLimit
  · rw [if_pos hword] at hpeek
    cases hget : c.proc.stack.get? offset with
    | none =>
        rw [hget] at hpeek
        exact Or.inr ⟨_, run_bind_of_error hpeek⟩
    | some v =>
        rw [hget] at hpeek
        rw [numberOperand, run_bind_of_ok hpeek]
        cases v with
        | number n => exact Or.inl ⟨n, rfl, rfl⟩
        | _ => exact Or.inr ⟨_, rfl⟩
  · rw [if_neg hword] at hpeek
    exact Or.inr ⟨_, run_bind_of_error hpeek⟩

theorem forState_run (c : Core H) :
    (∃ var limit step, c.proc.stack.get? 2 = some (.number var) ∧
      c.proc.stack.get? 1 = some (.number limit) ∧
      c.proc.stack.get? 0 = some (.number step) ∧
      forState c = .ok (var, limit, step) c) ∨
    ∃ e, forState c = .error e c := by
  have heq : (forState : Exec H (Float × Float × Float)) = (do
      let var ← numberOperand 2
      let limit ← numberOperand 1
      let step ← numberOperand 0
      pure (var, limit, step)) := rfl
  rw [heq]
  rcases numberOperand_run 2 c with ⟨var, hvar, hrun⟩ | ⟨e, he⟩
  · rw [run_bind_of_ok hrun]
    rcases numberOperand_run 1 c with ⟨limit, hlimit, hrun⟩ | ⟨e, he⟩
    · rw [run_bind_of_ok hrun]
      rcases numberOperand_run 0 c with ⟨step, hstep, hrun⟩ | ⟨e, he⟩
      · rw [run_bind_of_ok hrun]
        exact Or.inl ⟨var, limit, step, hvar, hlimit, hstep, rfl⟩
      · exact Or.inr ⟨e, run_bind_of_error he⟩
    · exact Or.inr ⟨e, run_bind_of_error he⟩
  · exact Or.inr ⟨e, run_bind_of_error he⟩

/-- The lowest of three numbers gets the topmost one added. -/
theorem forStep_run (c : Core H) :
    (∃ var limit step, c.proc.stack.get? 2 = some (.number var) ∧
      c.proc.stack.get? 1 = some (.number limit) ∧
      c.proc.stack.get? 0 = some (.number step) ∧
      forStep c = .ok () { c with
        proc := { c.proc with
          stack := c.proc.stack.set 2 (.number (var + step)) } }) ∨
    ∃ e, forStep c = .error e c := by
  rcases forState_run c with ⟨var, limit, step, hvar, hlimit, hstep, hrun⟩ | ⟨e, he⟩
  · rw [forStep, run_bind_of_ok hrun]
    exact Or.inl ⟨var, limit, step, hvar, hlimit, hstep, rfl⟩
  · exact Or.inr ⟨e, run_bind_of_error he⟩

theorem topFrame_run {c : Core H} {f : Frame}
    (h : c.proc.frames.top? = some f) : topFrame c = .ok f c := by
  simp only [topFrame, askProc, run_bind]
  change (match c.proc.frames.top? with
    | some f => (pure f : Exec H Frame)
    | none => internal "no active call frame") c = _
  rw [h]
  rfl

theorem topFrame_run_none {c : Core H} (h : c.proc.frames.top? = none) :
    topFrame c = .error (.internal "no active call frame") c := by
  simp only [topFrame, askProc, run_bind]
  change (match c.proc.frames.top? with
    | some f => (pure f : Exec H Frame)
    | none => internal "no active call frame") c = _
  rw [h]
  rfl

theorem viewTop_run {c : Core H} {f : Frame}
    (h : c.proc.frames.top? = some f) : viewTop c = .ok f.view c := by
  rw [viewTop, run_bind, topFrame_run h]
  rfl

theorem viewTop_run_none {c : Core H} (h : c.proc.frames.top? = none) :
    viewTop c = .error (.internal "no active call frame") c := by
  rw [viewTop, run_bind, topFrame_run_none h]

/-! ## Simple programs -/

inductive Simple : {α : Type} → Exec H α → Prop where
  | pure {α : Type} (a : α) : Simple (pure a)
  | throw {α : Type} (e : RuntimeError) : Simple (throw e : Exec H α)
  | bind {α β : Type} {x : Exec H α} {f : α → Exec H β} (hx : Simple x)
      (hf : ∀ a, Simple (f a)) : Simple (x >>= f)
  | ask {α : Type} {f : World H → α} (hf : World.Blind f) : Simple (ask f)
  | modifyWorld {f : World H → World H} (hf : World.Tame f) :
      Simple (modifyWorld f)
  | changeWorld {α : Type} {f : World H → α × World H}
      (hf : World.TameWith f) : Simple (changeWorld f)
  | push (v : Value) : Simple (push v)
  | pushAll (vs : List Value) : Simple (pushAll vs)
  | pop : Simple pop
  | popMany (n : Nat) : Simple (popMany n)
  | peek (offset : Nat) : Simple (peek offset)
  | swap (i : Instruction) : Simple (swap i)
  | forStep : Simple forStep
  | jumpTo (ip : Nat) : Simple (jumpTo ip)
  | viewTop : Simple viewTop
  | updateTop (locals : Array CellRef) (pendingArgs : List Value) :
      Simple (updateTop locals pendingArgs)
  | fetch : Simple fetch

namespace Simple

variable {α : Type}

theorem ofResult (r : Except RuntimeError α) :
    Simple (ofResult r : Exec H α) := by
  cases r with
  | ok a => exact .pure a
  | error e => exact .throw e

theorem internal (reason : String) : Simple (internal reason : Exec H α) :=
  .throw _

theorem addOffsets (a b : Nat) : Simple (addOffsets a b : Exec H Nat) := by
  unfold Exec.addOffsets
  split
  · exact .pure _
  · exact .throw _

theorem popPair : Simple (popPair : Exec H (Value × Value)) := by
  refine .bind .pop fun _ => ?_
  refine .bind .pop fun _ => ?_
  exact .pure _

end Simple

/-! ## Variables -/

theorem symbolCell_eq (s : Symbol) :
    (symbolCell s : Exec H CellRef) = (do
      let view ← viewTop
      match s with
      | .slot index _ =>
        match view.locals[index]? with
        | some c => pure c
        | none => outOfRange s
      | .captured index _ =>
        match view.callee with
        | .function f =>
          match (← ask (·.closure f)).upvalues[index]? with
          | some c => pure c
          | none => outOfRange s
        | .native _ => outOfRange s
      | .global _ _ =>
        internal (s.display ++ " cannot be used as a variable cell")) := by
  simp only [symbolCell, viewTop, bind_assoc, pure_bind]
  cases s <;> rfl

theorem simple_symbolCell (s : Symbol) :
    Simple (symbolCell s : Exec H CellRef) := by
  rw [symbolCell_eq]
  apply Simple.bind .viewTop
  intro view
  cases s with
  | slot index name =>
      simp only
      split
      · exact .pure _
      · exact .internal _
  | captured index name =>
      simp only
      split
      · apply Simple.bind (.ask (fun w => World.closure_bare w _))
        intro closure
        split
        · exact .pure _
        · exact .internal _
      · exact .internal _
  | global name env => exact .internal _

theorem simple_readSymbol (s : Symbol) :
    Simple (readSymbol s : Exec H Value) := by
  refine .bind (simple_symbolCell s) fun c => ?_
  refine .ask fun w => ?_
  exact World.cell_bare w c

theorem simple_freshLocals (first n : Nat) (locals : Array CellRef) :
    Simple (freshLocals first n locals : Exec H (Array CellRef)) := by
  induction n generalizing first locals with
  | zero => exact .pure _
  | succ n ih =>
      apply Simple.bind (.changeWorld (World.tameWith_newCell .nil))
      intro c
      exact ih _ _

theorem simple_captureAll (symbols : List Symbol) :
    Simple (captureAll symbols : Exec H (List CellRef)) := by
  induction symbols with
  | nil => exact .pure _
  | cons s rest ih =>
      apply Simple.bind (simple_symbolCell s)
      intro c
      exact .bind ih fun cs => .pure _

theorem simple_bindParams (locals : Array CellRef) (args : List Value)
    (position : Nat) (params : List Symbol) :
    Simple (bindParams locals args position params : Exec H Unit) := by
  induction params generalizing position with
  | nil => exact .pure _
  | cons param rest ih =>
      unfold bindParams
      cases param with
      | slot index name =>
          simp only
          split
          · exact .bind (.modifyWorld (World.tame_setCell _ _)) fun _ => ih _
          · exact .internal _
      | captured index name => exact .internal _
      | global name env => exact .internal _

/-! ## The variables of the topmost frame -/

/-- Nothing but the world changes. -/
def KeepsProc {α : Type} (x : Exec H α) : Prop :=
  ∀ c a c', x c = .ok a c' → c'.proc = c.proc

theorem KeepsProc.bind {α β : Type} {x : Exec H α} {f : α → Exec H β}
    (hx : KeepsProc x) (hf : ∀ a, KeepsProc (f a)) : KeepsProc (x >>= f) := by
  intro c b c' h
  rw [run_bind] at h
  cases hrun : x c with
  | ok a d =>
      rw [hrun] at h
      exact (hf a d b c' h).trans (hx c a d hrun)
  | error e d =>
      rw [hrun] at h
      cases h

theorem keepsProc_changeWorld {α : Type} (f : World H → α × World H) :
    KeepsProc (changeWorld f) := by
  intro c a c' h
  cases h
  rfl

theorem keepsProc_addOffsets (a b : Nat) :
    KeepsProc (addOffsets a b : Exec H Nat) := by
  intro c n c' h
  unfold addOffsets at h
  split at h
  · cases h
    rfl
  · cases h

theorem keepsProc_freshLocals (first n : Nat) (locals : Array CellRef) :
    KeepsProc (freshLocals first n locals : Exec H (Array CellRef)) := by
  induction n generalizing first locals with
  | zero =>
      intro c a c' h
      cases h
      rfl
  | succ n ih => exact (keepsProc_changeWorld _).bind fun c => ih _ _

theorem updateTop_run_none {c : Core H} (h : c.proc.frames.top? = none)
    (locals : Array CellRef) (pendingArgs : List Value) :
    updateTop locals pendingArgs c = .ok () c := by
  simp only [updateTop, modifyProc_run, h]

theorem updateTop_run {c : Core H} {f : Frame}
    (h : c.proc.frames.top? = some f) (locals : Array CellRef)
    (pendingArgs : List Value) :
    updateTop locals pendingArgs c =
      setTopFrame { f with locals, pendingArgs } c := by
  simp only [updateTop, setTopFrame, modifyProc_run, h]

/-- New variables for the topmost frame, found while the frames stay. -/
theorem setTopFrame_eq_updateTop {x : FrameView → Exec H (Array CellRef)}
    (hx : ∀ v, KeepsProc (x v)) :
    (do
      let frame ← topFrame
      let locals ← x frame.view
      setTopFrame { frame with locals }) =
    (do
      let view ← viewTop
      let locals ← x view
      updateTop locals view.pendingArgs) := by
  funext c
  cases htop : c.proc.frames.top? with
  | none =>
      simp only [run_bind, topFrame_run_none htop, viewTop_run_none htop]
  | some f =>
      simp only [run_bind, topFrame_run htop, viewTop_run htop]
      cases hrun : x f.view c with
      | error e c' => rfl
      | ok locals c' =>
          have hsame := hx f.view c locals c' hrun
          have htop' : c'.proc.frames.top? = some f := by rw [hsame, htop]
          exact (updateTop_run htop' locals f.pendingArgs).symm

theorem simple_clean (i : Instruction) : Simple (clean i : Exec H Unit) := by
  have heq : (clean i : Exec H Unit) = (do
      let view ← viewTop
      let locals ← (do
        let last ← addOffsets i.num i.num2
        freshLocals i.num (min last view.locals.size - i.num) view.locals)
      updateTop locals view.pendingArgs) := by
    rw [← setTopFrame_eq_updateTop]
    · simp only [clean, bind_assoc]
      rfl
    · intro view
      exact (keepsProc_addOffsets _ _).bind fun last => keepsProc_freshLocals _ _ _
  rw [heq]
  apply Simple.bind .viewTop
  intro view
  apply Simple.bind
  · exact .bind (.addOffsets _ _) fun last => simple_freshLocals _ _ _
  · exact fun locals => .updateTop _ _

theorem simple_beginFunction (i : Instruction) :
    Simple (beginFunction i : Exec H Unit) := by
  by_cases hlimit : localLimit ≤ i.num
  · have heq : (beginFunction i : Exec H Unit) = (do
        let _ ← viewTop
        throw (.fault .tooManyLocals)) := by
      funext c
      cases htop : c.proc.frames.top? with
      | none =>
          simp only [beginFunction, run_bind, topFrame_run_none htop,
            viewTop_run_none htop]
      | some f =>
          simp only [beginFunction, run_bind, topFrame_run htop,
            viewTop_run htop, if_pos hlimit]
          rfl
    rw [heq]
    exact .bind .viewTop fun _ => .throw _
  · have heq : (beginFunction i : Exec H Unit) = (do
        let view ← viewTop
        let locals ← changeWorld (·.newCells i.num)
        updateTop locals view.pendingArgs) := by
      rw [← setTopFrame_eq_updateTop (x := fun _ => changeWorld (·.newCells i.num))]
      · simp only [beginFunction, if_neg hlimit]
      · exact fun view => keepsProc_changeWorld _
    rw [heq]
    apply Simple.bind .viewTop
    intro view
    exact .bind (.changeWorld (World.tameWith_newCells _)) fun locals =>
      .updateTop _ _

theorem simple_bindArgs (i : Instruction) :
    Simple (bindArgs i : Exec H Unit) := by
  have heq : (bindArgs i : Exec H Unit) = (do
      let view ← viewTop
      updateTop view.locals []
      bindParams view.locals view.pendingArgs 0 i.symbols) := by
    funext c
    cases htop : c.proc.frames.top? with
    | none =>
        simp only [bindArgs, run_bind, topFrame_run_none htop,
          viewTop_run_none htop]
    | some f =>
        simp only [bindArgs, run_bind, topFrame_run htop, viewTop_run htop,
          updateTop_run htop]
        rfl
  rw [heq]
  apply Simple.bind .viewTop
  intro view
  exact .bind (.updateTop _ _) fun _ => simple_bindParams _ _ _ _

theorem simple_makeClosure (chunk : Chunk) (i : Instruction) :
    Simple (makeClosure chunk i : Exec H Unit) := by
  apply Simple.bind (simple_captureAll _)
  intro upvalues
  exact .bind (.changeWorld (World.tameWith_addClosure _)) fun f => .push _

/-! ## Operations that go on with the next instruction -/

theorem simple_tableOperand : Simple (tableOperand : Exec H TableRef) := by
  apply Simple.bind (.peek 0)
  intro v
  cases v with
  | table t => exact .pure t
  | _ => exact .internal _

theorem simple_initField : Simple (initField : Exec H Unit) := by
  apply Simple.bind .pop
  intro value
  apply Simple.bind .pop
  intro key
  apply Simple.bind simple_tableOperand
  intro t
  split
  · exact .modifyWorld (World.tame_modifyTable _ _)
  · exact .throw _

theorem simple_fillItems (t : TableRef) (i : Int) (values : List Value) :
    Simple (fillItems t i values : Exec H Unit) := by
  induction values generalizing i with
  | nil => exact .pure _
  | cons v rest ih =>
      unfold fillItems
      split
      · exact .bind (.modifyWorld (World.tame_modifyTable _ _)) fun _ => ih _
      · exact .throw _

theorem simple_initItem (i : Instruction) : Simple (initItem i : Exec H Unit) := by
  apply Simple.bind .pop
  intro value
  apply Simple.bind simple_tableOperand
  intro t
  split
  · exact simple_fillItems _ _ _
  · exact simple_fillItems _ _ _

theorem simple_numberOperand (offset : Nat) :
    Simple (numberOperand offset : Exec H Float) := by
  apply Simple.bind (.peek offset)
  intro v
  cases v with
  | number n => exact .pure n
  | _ => exact .internal _

theorem simple_forState : Simple (forState : Exec H (Float × Float × Float)) := by
  apply Simple.bind (simple_numberOperand 2)
  intro var
  apply Simple.bind (simple_numberOperand 1)
  intro limit
  exact .bind (simple_numberOperand 0) fun step => .pure _

theorem simple_forCheck (i : Instruction) : Simple (forCheck i : Exec H Unit) := by
  apply Simple.bind simple_forState
  intro state
  dsimp only
  split
  · split
    · exact .jumpTo _
    · exact .pure _
  · split
    · exact .jumpTo _
    · exact .pure _

theorem simple_toNumber (i : Instruction) : Simple (toNumber i : Exec H Unit) := by
  apply Simple.bind .pop
  intro v
  split
  · exact .push _
  · exact .throw _

theorem simple_iterPrepare : Simple (iterPrepare : Exec H Unit) := by
  refine .bind .pop fun _ => ?_
  exact .pushAll _

theorem simple_iterUpdate : Simple (iterUpdate : Exec H Unit) := by
  refine .bind .pop fun _ => ?_
  refine .bind .pop fun _ => ?_
  exact .push _

theorem simple_jumpWhen (i : Instruction) (condition : Value → Bool) :
    Simple (jumpWhen i condition : Exec H Unit) := by
  apply Simple.bind .pop
  intro v
  split
  · exact .jumpTo _
  · exact .pure _

theorem simple_jumpOrPop (i : Instruction) (truth : Bool) :
    Simple (jumpOrPop i truth : Exec H Unit) := by
  apply Simple.bind (.peek 0)
  intro v
  split
  · exact .jumpTo _
  · exact .bind .pop fun _ => .pure _

theorem simple_assigned (i : Instruction) : Simple (assigned i : Exec H Value) := by
  refine .bind (.peek _) fun _ => ?_
  exact .pure _

theorem simple_valueOperand (i : Instruction) :
    Simple (valueOperand i : Exec H Value) := by
  unfold valueOperand
  split
  · exact .pure _
  · exact .internal _

theorem simple_symbolOperand (i : Instruction) :
    Simple (symbolOperand i : Exec H Symbol) := by
  unfold symbolOperand
  split
  · exact .pure _
  · exact .internal _

variable [HostObjects H]

theorem simple_getMulti : Simple (getMulti : Exec H Unit) := by
  apply Simple.bind .pop
  intro keys
  apply Simple.bind .pop
  intro object
  dsimp only
  split
  · apply Simple.bind (.ask fun w => World.userIndex_bare w _ _)
    intro r
    exact .bind (.ofResult r) fun v => .push v
  · exact .throw _

theorem simple_setMulti (i : Instruction) : Simple (setMulti i : Exec H Unit) := by
  apply Simple.bind .pop
  intro keys
  apply Simple.bind .pop
  intro object
  apply Simple.bind (simple_assigned i)
  intro value
  split
  · apply Simple.bind (.ask fun w => World.userAssign_bare w _ _ _)
    intro r
    exact .bind (.ofResult r) fun o =>
      .modifyWorld (World.tame_setUserObject _ _)
  · exact .throw _

end Exec

end ScriptEngine
