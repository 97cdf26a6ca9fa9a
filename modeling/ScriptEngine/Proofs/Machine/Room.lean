import ScriptEngine.Proofs.Machine.Results

/-!
# The room of a frame

The number of variables that a frame has is set when its function begins.  Of all other
instructions only two touch the frame before anything happens to the frames as such: one
puts fresh variables in the place of old ones, the other takes the pending arguments.
Neither changes their number.
-/

namespace ScriptEngine.Exec

variable {H : HostTypes} {α β : Type}

/-! ## Programs that leave frames alone -/

def LeavesFrames (x : Exec H α) : Prop :=
  ∀ c : Core H, (resultCore (x c)).proc.frames = c.proc.frames

theorem leaves_pure (a : α) : LeavesFrames (pure a : Exec H α) := by
  intro _
  rfl

theorem leaves_throw (e : RuntimeError) : LeavesFrames (throw e : Exec H α) := by
  intro _
  rfl

theorem leaves_internal (reason : String) : LeavesFrames (internal reason : Exec H α) :=
  leaves_throw _

theorem LeavesFrames.bind {x : Exec H α} {f : α → Exec H β} (hx : LeavesFrames x)
    (hf : ∀ a, LeavesFrames (f a)) : LeavesFrames (x >>= f) := by
  intro c
  have hfirst := hx c
  cases hrun : x c with
  | ok a c' =>
      rw [hrun] at hfirst
      rw [run_bind_of_ok hrun]
      exact (hf a c').trans hfirst
  | error e c' =>
      rw [hrun] at hfirst
      rw [run_bind_of_error hrun]
      exact hfirst

theorem leaves_ofResult (r : Except RuntimeError α) : LeavesFrames (ofResult r : Exec H α) := by
  cases r with
  | ok a => exact leaves_pure a
  | error e => exact leaves_throw e

theorem leaves_ask (f : World H → α) : LeavesFrames (ask f) := by
  intro _
  rfl

theorem leaves_askProc (f : Processor → α) : LeavesFrames (askProc f : Exec H α) := by
  intro _
  rfl

theorem leaves_modifyWorld (f : World H → World H) : LeavesFrames (modifyWorld f) := by
  intro _
  rfl

theorem leaves_changeWorld (f : World H → α × World H) : LeavesFrames (changeWorld f) := by
  intro _
  rfl

theorem leaves_jumpTo (ip : Nat) : LeavesFrames (jumpTo ip : Exec H Unit) := by
  intro _
  rfl

theorem leaves_addOffsets (a b : Nat) : LeavesFrames (addOffsets a b : Exec H Nat) := by
  unfold addOffsets
  split
  · exact leaves_pure _
  · exact leaves_throw _

theorem leaves_topFrame : LeavesFrames (topFrame : Exec H Frame) := by
  refine (leaves_askProc _).bind fun frames => ?_
  split
  · exact leaves_pure _
  · exact leaves_internal _

/-! ### Operands -/

theorem leaves_setStack (stack : Stack Value) : LeavesFrames (setStack stack : Exec H Unit) := by
  intro _
  rfl

theorem leaves_push (v : Value) : LeavesFrames (push v : Exec H Unit) := by
  intro _
  rfl

theorem leaves_pushAll (vs : List Value) : LeavesFrames (pushAll vs : Exec H Unit) := by
  intro _
  rfl

theorem leaves_pop : LeavesFrames (pop : Exec H Value) := by
  refine (leaves_askProc _).bind fun stack => ?_
  split
  · exact (leaves_setStack _).bind fun _ => leaves_pure _
  · exact leaves_internal _

theorem leaves_popMany (n : Nat) : LeavesFrames (popMany n : Exec H (List Value)) := by
  refine (leaves_askProc _).bind fun stack => ?_
  split
  · exact (leaves_setStack _).bind fun _ => leaves_pure _
  · exact leaves_internal _

theorem leaves_peek (offset : Nat) : LeavesFrames (peek offset : Exec H Value) := by
  refine (leaves_addOffsets _ _).bind fun _ => (leaves_askProc _).bind fun stack => ?_
  split
  · exact leaves_pure _
  · exact leaves_internal _

theorem leaves_swap (i : Instruction) : LeavesFrames (swap i : Exec H Unit) := by
  refine (leaves_addOffsets _ _).bind fun _ => (leaves_addOffsets _ _).bind fun _ =>
    (leaves_askProc _).bind fun stack => ?_
  split
  · exact leaves_setStack _
  · exact leaves_internal _

theorem leaves_assigned (i : Instruction) : LeavesFrames (assigned i : Exec H Value) := by
  refine (leaves_peek _).bind fun _ => ?_
  exact leaves_pure _

theorem leaves_valueOperand (i : Instruction) : LeavesFrames (valueOperand i : Exec H Value) := by
  unfold valueOperand
  split
  · exact leaves_pure _
  · exact leaves_internal _

theorem leaves_symbolOperand (i : Instruction) :
    LeavesFrames (symbolOperand i : Exec H Symbol) := by
  unfold symbolOperand
  split
  · exact leaves_pure _
  · exact leaves_internal _

/-! ### Variables and functions -/

theorem leaves_symbolCell (s : Symbol) : LeavesFrames (symbolCell s : Exec H CellRef) := by
  refine leaves_topFrame.bind fun frame => ?_
  cases s with
  | slot index name =>
      dsimp only
      split
      · exact leaves_pure _
      · exact leaves_internal _
  | captured index name =>
      dsimp only
      split
      · refine (leaves_ask _).bind fun closure => ?_
        split
        · exact leaves_pure _
        · exact leaves_internal _
      · exact leaves_internal _
  | global name env => exact leaves_internal _

theorem leaves_readSymbol (s : Symbol) : LeavesFrames (readSymbol s : Exec H Value) := by
  refine (leaves_symbolCell s).bind fun _ => ?_
  exact leaves_ask _

theorem leaves_captureAll (symbols : List Symbol) :
    LeavesFrames (captureAll symbols : Exec H (List CellRef)) := by
  induction symbols with
  | nil => exact leaves_pure _
  | cons s rest ih =>
      exact (leaves_symbolCell s).bind fun _ => ih.bind fun _ => leaves_pure _

theorem leaves_makeClosure (chunk : Chunk) (i : Instruction) :
    LeavesFrames (makeClosure chunk i : Exec H Unit) := by
  refine (leaves_captureAll _).bind fun _ => ?_
  refine (leaves_changeWorld _).bind fun _ => ?_
  exact leaves_push _

theorem leaves_bindParams (locals : Array CellRef) (args : List Value) (position : Nat)
    (params : List Symbol) :
    LeavesFrames (bindParams locals args position params : Exec H Unit) := by
  induction params generalizing position with
  | nil => exact leaves_pure _
  | cons param rest ih =>
      unfold bindParams
      cases param with
      | slot index name =>
          dsimp only
          split
          · exact (leaves_modifyWorld _).bind fun _ => ih _
          · exact leaves_internal _
      | captured index name => exact leaves_internal _
      | global name env => exact leaves_internal _

/-! ### Tables -/

theorem leaves_tableOperand : LeavesFrames (tableOperand : Exec H TableRef) := by
  refine (leaves_peek 0).bind fun v => ?_
  split
  · exact leaves_pure _
  · exact leaves_internal _

theorem leaves_initField : LeavesFrames (initField : Exec H Unit) := by
  refine leaves_pop.bind fun _ => leaves_pop.bind fun _ => leaves_tableOperand.bind fun _ => ?_
  split
  · exact leaves_modifyWorld _
  · exact leaves_throw _

theorem leaves_fillItems (t : TableRef) (i : Int) (values : List Value) :
    LeavesFrames (fillItems t i values : Exec H Unit) := by
  induction values generalizing i with
  | nil => exact leaves_pure _
  | cons v rest ih =>
      unfold fillItems
      split
      · exact (leaves_modifyWorld _).bind fun _ => ih _
      · exact leaves_throw _

theorem leaves_initItem (i : Instruction) : LeavesFrames (initItem i : Exec H Unit) := by
  refine leaves_pop.bind fun _ => leaves_tableOperand.bind fun _ => ?_
  split <;> exact leaves_fillItems _ _ _

/-! ### Loops and jumps -/

theorem leaves_numberOperand (offset : Nat) :
    LeavesFrames (numberOperand offset : Exec H Float) := by
  refine (leaves_peek _).bind fun v => ?_
  split
  · exact leaves_pure _
  · exact leaves_internal _

theorem leaves_forState : LeavesFrames (forState : Exec H (Float × Float × Float)) := by
  refine (leaves_numberOperand 2).bind fun _ => ?_
  refine (leaves_numberOperand 1).bind fun _ => ?_
  refine (leaves_numberOperand 0).bind fun _ => ?_
  exact leaves_pure _

theorem leaves_forStep : LeavesFrames (forStep : Exec H Unit) := by
  refine leaves_forState.bind fun _ _ => ?_
  rfl

theorem leaves_jumpIf (p : Prop) [Decidable p] (ip : Nat) :
    LeavesFrames (if p then jumpTo ip else pure () : Exec H Unit) := by
  split
  · exact leaves_jumpTo _
  · exact leaves_pure _

theorem leaves_forCheck (i : Instruction) : LeavesFrames (forCheck i : Exec H Unit) := by
  refine leaves_forState.bind fun _ => ?_
  exact leaves_jumpIf _ _

theorem leaves_jumpWhen (i : Instruction) (condition : Value → Bool) :
    LeavesFrames (jumpWhen i condition : Exec H Unit) := by
  refine leaves_pop.bind fun _ => ?_
  exact leaves_jumpIf _ _

theorem leaves_jumpOrPop (i : Instruction) (truth : Bool) :
    LeavesFrames (jumpOrPop i truth : Exec H Unit) := by
  refine (leaves_peek 0).bind fun _ => ?_
  split
  · exact leaves_jumpTo _
  · exact leaves_pop.bind fun _ => leaves_pure _

theorem leaves_toNumber (i : Instruction) : LeavesFrames (toNumber i : Exec H Unit) := by
  refine leaves_pop.bind fun _ => ?_
  split
  · exact leaves_push _
  · exact leaves_throw _

/-! ### Intents -/

theorem leaves_andIntend {x : Exec H Unit} (hx : LeavesFrames x) : LeavesFrames (andIntend x) := by
  refine hx.bind fun _ => ?_
  exact leaves_pure _

theorem leaves_intendResolved (r : Resolved) : LeavesFrames (intendResolved r : Exec H Intent) := by
  cases r with
  | value v => exact (leaves_push v).bind fun _ => leaves_pure _
  | call p => exact leaves_pure _

/-- What follows from a question to the world that is about operators. -/
theorem leaves_resolve (f : World H → Except RuntimeError Resolved) :
    LeavesFrames (do
      let resolved ← ofResult (← ask f)
      intendResolved resolved) := by
  refine (leaves_ask f).bind fun r => ?_
  exact (leaves_ofResult r).bind leaves_intendResolved

theorem leaves_intendBinary (f : World H → Value → Value → Except RuntimeError Resolved) :
    LeavesFrames (intendBinary f) := by
  refine (leaves_pop.bind fun _ => leaves_pop.bind fun _ => leaves_pure _).bind fun _ => ?_
  exact leaves_resolve _

theorem leaves_intendCall (i : Instruction) (methodCall : Bool) :
    LeavesFrames (intendCall i methodCall : Exec H Intent) := by
  refine (leaves_popMany _).bind fun _ => ?_
  refine leaves_pop.bind fun _ => ?_
  exact leaves_pure _

theorem leaves_intendReturn (i : Instruction) : LeavesFrames (intendReturn i : Exec H Intent) := by
  unfold intendReturn
  split
  · exact leaves_pop.bind fun _ => leaves_pure _
  · exact leaves_pure _

section

variable [HostObjects H]

theorem leaves_intendLoad (s : Symbol) : LeavesFrames (intendLoad s : Exec H Intent) := by
  have hvariable : LeavesFrames (do
      push (← readSymbol s)
      pure .proceed : Exec H Intent) :=
    (leaves_readSymbol s).bind fun _ => (leaves_push _).bind fun _ => leaves_pure _
  cases s with
  | global name env => exact (leaves_readSymbol env).bind fun _ => leaves_resolve _
  | slot index name => exact hvariable
  | captured index name => exact hvariable

theorem leaves_intendSetIndex (object key value : Value) :
    LeavesFrames (intendSetIndex object key value : Exec H Intent) := by
  refine (leaves_ask _).bind fun r => (leaves_ofResult r).bind fun a => ?_
  split
  · exact leaves_pure _
  · exact (leaves_modifyWorld _).bind fun _ => leaves_pure _

theorem leaves_intendStore (s : Symbol) (value : Value) :
    LeavesFrames (intendStore s value : Exec H Intent) := by
  have hvariable : LeavesFrames (do
      let c ← symbolCell s
      modifyWorld (·.setCell c value)
      pure .proceed : Exec H Intent) :=
    (leaves_symbolCell s).bind fun _ => (leaves_modifyWorld _).bind fun _ => leaves_pure _
  cases s with
  | global name env => exact (leaves_readSymbol env).bind fun _ => leaves_intendSetIndex _ _ _
  | slot index name => exact hvariable
  | captured index name => exact hvariable

theorem leaves_getMulti : LeavesFrames (getMulti : Exec H Unit) := by
  refine leaves_pop.bind fun _ => leaves_pop.bind fun _ => ?_
  dsimp only
  split
  · exact (leaves_ask _).bind fun r => (leaves_ofResult r).bind fun _ => leaves_push _
  · exact leaves_throw _

theorem leaves_setMulti (i : Instruction) : LeavesFrames (setMulti i : Exec H Unit) := by
  refine leaves_pop.bind fun _ => leaves_pop.bind fun _ => (leaves_assigned i).bind fun _ => ?_
  split
  · exact (leaves_ask _).bind fun r => (leaves_ofResult r).bind fun _ => leaves_modifyWorld _
  · exact leaves_throw _

/-- Three instructions touch their frame before anything else happens to the frames. -/
theorem leaves_intent (chunk : Chunk) {i : Instruction} (hclean : i.op ≠ .clean)
    (hbegin : i.op ≠ .beginFunction) (hbind : i.op ≠ .bindArgs) :
    LeavesFrames (intent chunk i : Exec H Intent) := by
  unfold intent
  cases hop : i.op with
  | clean => exact absurd hop hclean
  | beginFunction => exact absurd hop hbegin
  | bindArgs => exact absurd hop hbind
  | nop => exact leaves_pure _
  | pop => exact leaves_andIntend ((leaves_popMany _).bind fun _ => leaves_pure _)
  | copy => exact leaves_andIntend ((leaves_peek _).bind fun _ => leaves_push _)
  | swap => exact leaves_andIntend (leaves_swap i)
  | literal => exact leaves_andIntend ((leaves_valueOperand i).bind fun _ => leaves_push _)
  | makeTuple => exact leaves_andIntend ((leaves_popMany _).bind fun _ => leaves_push _)
  | toScalar => exact leaves_andIntend (leaves_pop.bind fun _ => leaves_push _)
  | load => exact (leaves_symbolOperand i).bind fun s => leaves_intendLoad s
  | store =>
      exact (leaves_assigned i).bind fun v =>
        (leaves_symbolOperand i).bind fun s => leaves_intendStore s v
  | closure => exact leaves_andIntend (leaves_makeClosure chunk i)
  | call => exact leaves_intendCall i false
  | methodCall => exact leaves_intendCall i true
  | ret => exact leaves_intendReturn i
  | newTable => exact leaves_andIntend ((leaves_changeWorld _).bind fun _ => leaves_push _)
  | initField => exact leaves_andIntend leaves_initField
  | initItem => exact leaves_andIntend (leaves_initItem i)
  | getIndex => exact leaves_pop.bind fun _ => leaves_pop.bind fun _ => leaves_resolve _
  | getField =>
      exact leaves_pop.bind fun _ => (leaves_valueOperand i).bind fun _ => leaves_resolve _
  | getMulti => exact leaves_andIntend leaves_getMulti
  | setIndex =>
      exact leaves_pop.bind fun _ => leaves_pop.bind fun _ => (leaves_assigned i).bind fun _ =>
        leaves_intendSetIndex _ _ _
  | setField =>
      exact leaves_pop.bind fun _ => (leaves_assigned i).bind fun _ =>
        (leaves_valueOperand i).bind fun _ => leaves_intendSetIndex _ _ _
  | setMulti => exact leaves_andIntend (leaves_setMulti i)
  | jump => exact leaves_andIntend (leaves_jumpTo _)
  | jumpIfFalse => exact leaves_andIntend (leaves_jumpWhen i _)
  | jumpIfNil => exact leaves_andIntend (leaves_jumpWhen i _)
  | jumpIfTrueOrPop => exact leaves_andIntend (leaves_jumpOrPop i true)
  | jumpIfFalseOrPop => exact leaves_andIntend (leaves_jumpOrPop i false)
  | forCheck => exact leaves_andIntend (leaves_forCheck i)
  | forStep => exact leaves_andIntend leaves_forStep
  | toNumber => exact leaves_andIntend (leaves_toNumber i)
  | toBoolean => exact leaves_andIntend (leaves_pop.bind fun _ => leaves_push _)
  | iterPrepare => exact leaves_andIntend (leaves_pop.bind fun _ => leaves_pushAll _)
  | iterUpdate =>
      exact leaves_andIntend (leaves_pop.bind fun _ => leaves_pop.bind fun _ => leaves_push _)
  | neg => exact leaves_pop.bind fun _ => leaves_resolve _
  | not => exact leaves_andIntend (leaves_pop.bind fun _ => leaves_push _)
  | length =>
      exact leaves_pop.bind fun _ => (leaves_modifyWorld _).bind fun _ => leaves_resolve _
  | invalid => exact leaves_internal _
  | _ => exact leaves_intendBinary _

end

/-! ## The number of variables -/

/-- The frame that runs has as many variables as before. -/
def KeepsRoom (x : Exec H α) : Prop :=
  ∀ (c : Core H) f, c.proc.frames.top? = some f →
    ∃ f', (resultCore (x c)).proc.frames.top? = some f' ∧ f'.locals.size = f.locals.size

theorem LeavesFrames.keepsRoom {x : Exec H α} (hx : LeavesFrames x) : KeepsRoom x := by
  intro c f htop
  refine ⟨f, ?_, rfl⟩
  rw [hx c]
  exact htop

/-- A frame put on top stays there if what follows leaves the frames alone. -/
theorem top?_setTopFrame_bind {c : Core H} {f f' : Frame}
    (htop : c.proc.frames.top? = some f) {x : Exec H α} (hx : LeavesFrames x) :
    (resultCore ((do setTopFrame f'; x) c)).proc.frames.top? = some f' := by
  have hrun : setTopFrame f' c =
      .ok () { c with proc := { c.proc with frames := c.proc.frames.set 0 f' } } := rfl
  rw [run_bind_of_ok hrun, hx]
  unfold Stack.top? at htop ⊢
  rw [Stack.items_set]
  cases hitems : c.proc.frames.items with
  | nil =>
      rw [hitems] at htop
      cases htop
  | cons g rest => rfl

/-- Fresh variables come in the places of old ones. -/
theorem freshLocals_run (first n : Nat) (locals : Array CellRef) (c : Core H) :
    ∃ locals' w, freshLocals first n locals c = .ok locals' { c with world := w } ∧
      locals'.size = locals.size := by
  induction n generalizing first locals c with
  | zero => exact ⟨locals, c.world, rfl, rfl⟩
  | succ n ih =>
      obtain ⟨locals', w, hrun, hsize⟩ := ih (first + 1)
        (locals.setIfInBounds first (c.world.newCell .nil).1)
        { c with world := (c.world.newCell .nil).2 }
      exact ⟨locals', w, hrun, hsize.trans (Array.size_setIfInBounds ..)⟩

theorem keepsRoom_clean (i : Instruction) : KeepsRoom (clean i : Exec H Unit) := by
  intro c f htop
  rw [clean, run_bind_of_ok (topFrame_run htop)]
  by_cases hword : i.num + i.num2 < wordLimit
  · have hsum : addOffsets i.num i.num2 c = .ok (i.num + i.num2) c := by
      rw [addOffsets_run, if_pos hword]
    obtain ⟨locals, w, hrun, hsize⟩ := freshLocals_run i.num
      (min (i.num + i.num2) f.locals.size - i.num) f.locals c
    rw [run_bind_of_ok hsum, run_bind_of_ok hrun]
    exact ⟨{ f with locals },
      top?_setTopFrame_bind (c := { c with world := w }) htop (leaves_pure ()), hsize⟩
  · have hsum : addOffsets i.num i.num2 c = .error (.fault .offsetOverflow) c := by
      rw [addOffsets_run, if_neg hword]
    rw [run_bind_of_error hsum]
    exact ⟨f, htop, rfl⟩

theorem keepsRoom_bindArgs (i : Instruction) : KeepsRoom (bindArgs i : Exec H Unit) := by
  intro c f htop
  rw [bindArgs, run_bind_of_ok (topFrame_run htop)]
  exact ⟨{ f with pendingArgs := [] },
    top?_setTopFrame_bind htop (leaves_bindParams _ _ _ _), rfl⟩

theorem KeepsRoom.andIntend {x : Exec H Unit} (hx : KeepsRoom x) : KeepsRoom (andIntend x) := by
  intro c f htop
  obtain ⟨f', htop', hsize⟩ := hx c f htop
  refine ⟨f', ?_, hsize⟩
  unfold Exec.andIntend
  cases hrun : x c with
  | ok a c' =>
      rw [hrun] at htop'
      rw [run_bind_of_ok hrun]
      exact htop'
  | error e c' =>
      rw [hrun] at htop'
      rw [run_bind_of_error hrun]
      exact htop'

/-- Only the beginning of a function sets the number of its variables. -/
theorem keepsRoom_intent [HostObjects H] (chunk : Chunk) {i : Instruction}
    (hbegin : i.op ≠ .beginFunction) : KeepsRoom (intent chunk i : Exec H Intent) := by
  by_cases hclean : i.op = .clean
  · have hintent : (intent chunk i : Exec H Intent) = andIntend (clean i) := by
      rw [intent, hclean]
    rw [hintent]
    exact (keepsRoom_clean i).andIntend
  · by_cases hbind : i.op = .bindArgs
    · have hintent : (intent chunk i : Exec H Intent) = andIntend (bindArgs i) := by
        rw [intent, hbind]
      rw [hintent]
      exact (keepsRoom_bindArgs i).andIntend
    · exact (leaves_intent chunk hclean hbegin hbind).keepsRoom

end ScriptEngine.Exec
