import ScriptEngine.Proofs.Machine.Results

/-!
# Where errors come from

An operator or an instruction fails with a script error, because its chunk is
not sound, because an operand leaves the range of the machine, because it does
not find what it needs on the processor, or because an object of the host fails.
`Covers E` says that the set `E` leaves none of these out; then every step that
works on the frames and operands only fails within `E`.  `Tolerates E` leaves out
what an instruction can be found to object to before it runs, and `Withstands E` also
leaves out the faults of the machine, which only instructions that reckon with their
operands have.
-/

namespace ScriptEngine

variable {H : HostTypes} {α β : Type} {E : RuntimeError → Prop}

/-- A result that is an error only within a set of errors. -/
def ErrorsIn (E : RuntimeError → Prop) (r : Except RuntimeError α) : Prop :=
  ∀ e, r = .error e → E e

/-- A set with all errors that the engine itself has for a script and all that
the objects of its host fail with. -/
structure Covers (H : HostTypes) [HostObjects H] (E : RuntimeError → Prop) :
    Prop where
  script (e : ScriptError) : E (.script e)
  internal (reason : String) : E (.internal reason)
  fault (f : MachineFault) : E (.fault f)
  index (s : H.State) (o : H.Object) (key : Value) :
    ErrorsIn E (HostObjects.index s o key)
  setIndex (s : H.State) (o : H.Object) (key v : Value) :
    ErrorsIn E (HostObjects.setIndex s o key v)

/-- What an operation may not find on the processor, or in the world. -/
inductive Mishap : String → Prop where
  | underflow : Mishap "value stack underflow"
  | noFrame : Mishap "no active call frame"
  | outOfRange (s : Symbol) : Mishap (s.display ++ " out of range")
  | noTable : Mishap "table constructor target is not a table"
  | notNumeric : Mishap "numeric for state is not numeric"
  | noUserData : Mishap "no such user data"
  | nothingToReplace : Mishap "tail call without a frame"
  | nothingToLeave : Mishap "return without a frame"
  | nativeLost : Mishap "native frame lost"

/-- A set with all that can go wrong with an instruction that has its operands. -/
structure Tolerates (H : HostTypes) [HostObjects H] (E : RuntimeError → Prop) :
    Prop where
  script (e : ScriptError) : E (.script e)
  fault (f : MachineFault) : E (.fault f)
  mishap {reason : String} (h : Mishap reason) : E (.internal reason)
  index (s : H.State) (o : H.Object) (key : Value) :
    ErrorsIn E (HostObjects.index s o key)
  setIndex (s : H.State) (o : H.Object) (key v : Value) :
    ErrorsIn E (HostObjects.setIndex s o key v)

/-- A set with all that can go wrong where no operand leaves the range of the machine. -/
structure Withstands (H : HostTypes) [HostObjects H] (E : RuntimeError → Prop) :
    Prop where
  script (e : ScriptError) : E (.script e)
  mishap {reason : String} (h : Mishap reason) : E (.internal reason)
  index (s : H.State) (o : H.Object) (key : Value) :
    ErrorsIn E (HostObjects.index s o key)
  setIndex (s : H.State) (o : H.Object) (key v : Value) :
    ErrorsIn E (HostObjects.setIndex s o key v)

theorem Covers.tolerates [HostObjects H] (hE : Covers H E) : Tolerates H E where
  script := hE.script
  fault := hE.fault
  mishap _ := hE.internal _
  index := hE.index
  setIndex := hE.setIndex

theorem Tolerates.withstands [HostObjects H] (hE : Tolerates H E) : Withstands H E where
  script := hE.script
  mishap := hE.mishap
  index := hE.index
  setIndex := hE.setIndex

theorem Covers.withstands [HostObjects H] (hE : Covers H E) : Withstands H E :=
  hE.tolerates.withstands

/-- Whether the operation adds something to its operands or allocates as much as they say. -/
def Op.reckons : Op → Bool
  | .copy | .swap | .store | .clean | .beginFunction | .initItem | .setIndex | .setField
  | .setMulti => true
  | _ => false

/-- What an instruction objects to in its operands when it runs. -/
inductive Instruction.Objection (i : Instruction) : String → Prop where
  | noValue (hop : i.op = .literal ∨ i.op = .getField ∨ i.op = .setField)
      (h : i.value? = none) : Objection i (i.op.mnemonic ++ " without a value operand")
  | noSymbol (hop : i.op = .load ∨ i.op = .store) (h : i.symbol? = none) :
      Objection i (i.op.mnemonic ++ " without a symbol operand")
  | invalid (hop : i.op = .invalid) : Objection i "invalid opcode executed"
  /-- A global is no variable that a function could capture. -/
  | capture (hop : i.op = .closure) {s : Symbol} (hs : s ∈ i.symbols)
      (h : s.isGlobal = true) :
      Objection i (s.display ++ " cannot be used as a variable cell")
  /-- The environment of a global is a global itself. -/
  | environment (hop : i.op = .load ∨ i.op = .store) {name : String} {env : Symbol}
      (h : i.symbol? = some (.global name env)) (henv : env.isGlobal = true) :
      Objection i (env.display ++ " cannot be used as a variable cell")
  | parameter (hop : i.op = .bindArgs) {s : Symbol} (hs : s ∈ i.symbols) :
      Objection i ("parameter " ++ s.display ++ " is not a local")

theorem errorsIn_ok (a : α) : ErrorsIn E (.ok a) := by
  intro e h
  cases h

theorem errorsIn_error {e : RuntimeError} (h : E e) :
    ErrorsIn E (.error e : Except RuntimeError α) := by
  intro e' heq
  cases heq
  exact h

theorem ErrorsIn.map {r : Except RuntimeError α} (h : ErrorsIn E r) (f : α → β) :
    ErrorsIn E (r.map f) := by
  cases r with
  | ok a => exact errorsIn_ok _
  | error e => exact errorsIn_error (h e rfl)

namespace Withstands

variable [HostObjects H]

/-! ## Operators -/

theorem resolveArith (hE : Withstands H E) (w : World H) (op : Operator)
    (a b : Value) : ErrorsIn E (w.resolveArith op a b) := by
  unfold World.resolveArith
  dsimp only
  split
  · exact errorsIn_ok _
  · split
    · exact errorsIn_ok _
    · exact errorsIn_error (hE.script _)

theorem resolveNegate (hE : Withstands H E) (w : World H) (a : Value) :
    ErrorsIn E (w.resolveNegate a) := by
  unfold World.resolveNegate
  dsimp only
  split
  · exact errorsIn_ok _
  · split
    · exact errorsIn_ok _
    · exact errorsIn_error (hE.script _)

theorem resolveConcat (hE : Withstands H E) (w : World H) (a b : Value) :
    ErrorsIn E (w.resolveConcat a b) := by
  unfold World.resolveConcat
  dsimp only
  split
  · exact errorsIn_ok _
  · split
    · exact errorsIn_ok _
    · exact errorsIn_error (hE.script _)

theorem resolveLength (hE : Withstands H E) (w : World H) (a : Value) :
    ErrorsIn E (w.resolveLength a) := by
  unfold World.resolveLength
  split
  · exact errorsIn_ok _
  · split <;> exact errorsIn_ok _
  · split
    · exact errorsIn_ok _
    · exact errorsIn_error (hE.script _)

theorem resolveLess (hE : Withstands H E) (w : World H) (a b : Value) :
    ErrorsIn E (w.resolveLess a b) := by
  unfold World.resolveLess
  dsimp only
  split
  · exact errorsIn_ok _
  · exact errorsIn_ok _
  · split
    · exact errorsIn_ok _
    · exact errorsIn_error (hE.script _)

theorem resolveLessEqual (hE : Withstands H E) (w : World H) (a b : Value) :
    ErrorsIn E (w.resolveLessEqual a b) := by
  unfold World.resolveLessEqual
  dsimp only
  split
  · exact errorsIn_ok _
  · exact errorsIn_ok _
  · split
    · exact errorsIn_ok _
    · split
      · exact errorsIn_ok _
      · exact errorsIn_error (hE.script _)

theorem userIndex (hE : Withstands H E) (w : World H) (u : UserDataRef)
    (key : Value) : ErrorsIn E (w.userIndex u key) := by
  unfold World.userIndex
  split
  · exact hE.index _ _ _
  · exact errorsIn_error (hE.mishap .noUserData)

theorem userAssign (hE : Withstands H E) (w : World H) (u : UserDataRef)
    (key value : Value) : ErrorsIn E (w.userAssign u key value) := by
  unfold World.userAssign
  split
  · exact hE.setIndex _ _ _ _
  · exact errorsIn_error (hE.mishap .noUserData)

theorem indexWithin (hE : Withstands H E) (w : World H) (key : Value) (hops : Nat)
    (object : Value) : ErrorsIn E (w.indexWithin key hops object) := by
  induction hops generalizing object with
  | zero => exact errorsIn_error (hE.script _)
  | succ hops ih =>
      have hfollow (h : Value) : ErrorsIn E
          (if h.isCallable then .ok (.call ⟨h, [object, key], .scalar⟩)
            else w.indexWithin key hops h) := by
        split
        · exact errorsIn_ok _
        · exact ih h
      unfold World.indexWithin
      dsimp only
      split
      · split
        · exact errorsIn_ok _
        · split
          · exact hfollow _
          · exact errorsIn_ok _
      · exact (hE.userIndex w _ key).map _
      · split
        · exact hfollow _
        · exact errorsIn_error (hE.script _)

theorem resolveIndex (hE : Withstands H E) (w : World H) (object key : Value) :
    ErrorsIn E (w.resolveIndex object key) :=
  hE.indexWithin w key _ _

theorem setIndexWithin (hE : Withstands H E) (w : World H) (key value : Value)
    (hops : Nat) (object : Value) :
    ErrorsIn E (w.setIndexWithin key value hops object) := by
  induction hops generalizing object with
  | zero => exact errorsIn_error (hE.script _)
  | succ hops ih =>
      have hfollow (h : Value) : ErrorsIn E
          (if h.isCallable then .ok (.call ⟨h, [object, key, value], .discard⟩)
            else w.setIndexWithin key value hops h) := by
        split
        · exact errorsIn_ok _
        · exact ih h
      unfold World.setIndexWithin
      dsimp only
      split
      · split
        · exact hfollow _
        · split
          · exact errorsIn_ok _
          · exact errorsIn_error (hE.script _)
      · exact (hE.userAssign w _ key value).map _
      · split
        · exact hfollow _
        · exact errorsIn_error (hE.script _)

theorem resolveSetIndex (hE : Withstands H E) (w : World H)
    (object key value : Value) :
    ErrorsIn E (w.resolveSetIndex object key value) :=
  hE.setIndexWithin w key _ _ _

end Withstands

/-! ## Programs -/

/-- A program all of whose errors are within a set. -/
def Exec.Raises (E : RuntimeError → Prop) (x : Exec H α) : Prop :=
  ∀ c e c', x c = .error e c' → E e

namespace Exec

theorem raises_pure (a : α) : Raises E (pure a : Exec H α) := by
  intro c e c' h
  cases h

theorem raises_throw {e : RuntimeError} (he : E e) :
    Raises E (throw e : Exec H α) := by
  intro c e' c' h
  cases h
  exact he

theorem raises_bind {x : Exec H α} {f : α → Exec H β} (hx : Raises E x)
    (hf : ∀ a, Raises E (f a)) : Raises E (x >>= f) := by
  intro c e c' h
  rw [run_bind] at h
  cases hrun : x c with
  | ok a d =>
      rw [hrun] at h
      exact hf a d e c' h
  | error e' d =>
      rw [hrun] at h
      cases h
      exact hx c e _ hrun

theorem raises_ask (f : World H → α) : Raises E (ask f) := by
  intro c e c' h
  cases h

theorem raises_askProc (f : Processor → α) :
    Raises E (askProc f : Exec H α) := by
  intro c e c' h
  cases h

theorem raises_modifyWorld (f : World H → World H) :
    Raises E (modifyWorld f) := by
  intro c e c' h
  cases h

theorem raises_modifyProc (f : Processor → Processor) :
    Raises E (modifyProc f : Exec H Unit) := by
  intro c e c' h
  cases h

theorem raises_changeWorld (f : World H → α × World H) :
    Raises E (changeWorld f) := by
  intro c e c' h
  cases h

theorem raises_ofResult {r : Except RuntimeError α} (h : ErrorsIn E r) :
    Raises E (ofResult r : Exec H α) := by
  cases r with
  | ok a => exact raises_pure a
  | error e => exact raises_throw (h e rfl)

/-- A question to the world whose answer may be an error. -/
theorem raises_consult {f : World H → Except RuntimeError α} {g : α → Exec H β}
    (hf : ∀ w, ErrorsIn E (f w)) (hg : ∀ a, Raises E (g a)) :
    Raises E (do
      let a ← ofResult (← ask f)
      g a) := by
  intro c
  exact raises_bind (raises_ofResult (hf c.world)) hg c

theorem raises_internal {reason : String} (h : E (.internal reason)) :
    Raises E (internal reason : Exec H α) :=
  raises_throw h

theorem raises_andIntend {x : Exec H Unit} (hx : Raises E x) :
    Raises E (andIntend x) := by
  refine raises_bind hx fun _ => ?_
  exact raises_pure _

/-! ### Operands and variables -/

section

variable [HostObjects H] (hE : Withstands H E)

include hE

theorem raises_pop : Raises E (pop : Exec H Value) := by
  refine raises_bind (raises_askProc _) fun stack => ?_
  split
  · exact raises_bind (raises_modifyProc _) fun _ => raises_pure _
  · exact raises_internal (hE.mishap .underflow)

theorem raises_popMany (n : Nat) : Raises E (popMany n : Exec H (List Value)) := by
  refine raises_bind (raises_askProc _) fun stack => ?_
  split
  · exact raises_bind (raises_modifyProc _) fun _ => raises_pure _
  · exact raises_internal (hE.mishap .underflow)

theorem raises_popPair : Raises E (popPair : Exec H (Value × Value)) := by
  refine raises_bind (raises_pop hE) fun _ => ?_
  refine raises_bind (raises_pop hE) fun _ => ?_
  exact raises_pure _

omit hE [HostObjects H] in
theorem raises_addOffsets {a b : Nat} (hfault : wordLimit ≤ a + b → E (.fault .offsetOverflow)) :
    Raises E (addOffsets a b : Exec H Nat) := by
  unfold addOffsets
  split
  · exact raises_pure _
  · next h => exact raises_throw (hfault (Nat.le_of_not_lt h))

theorem raises_peek {offset : Nat} (hfault : wordLimit ≤ offset + 1 → E (.fault .offsetOverflow)) :
    Raises E (peek offset : Exec H Value) := by
  refine raises_bind (raises_addOffsets hfault) fun _ => ?_
  refine raises_bind (raises_askProc _) fun stack => ?_
  split
  · exact raises_pure _
  · exact raises_internal (hE.mishap .underflow)

/-- Looking at one of the topmost operands is no risk. -/
theorem raises_peek_near {offset : Nat} (h : offset < 3) :
    Raises E (peek offset : Exec H Value) := by
  refine raises_peek hE fun hover => absurd hover ?_
  have hlimit : 4 < wordLimit := by decide
  omega

theorem raises_swap {i : Instruction} (hfault : ∀ f, E (.fault f)) :
    Raises E (swap i : Exec H Unit) := by
  refine raises_bind (raises_addOffsets fun _ => hfault _) fun _ => ?_
  refine raises_bind (raises_addOffsets fun _ => hfault _) fun _ => ?_
  refine raises_bind (raises_askProc _) fun stack => ?_
  split
  · exact raises_modifyProc _
  · exact raises_internal (hE.mishap .underflow)

omit hE [HostObjects H] in
theorem raises_valueOperand {i : Instruction}
    (hnone : i.value? = none →
      E (.internal (i.op.mnemonic ++ " without a value operand"))) :
    Raises E (valueOperand i : Exec H Value) := by
  unfold valueOperand
  split
  · exact raises_pure _
  · next h => exact raises_internal (hnone h)

omit hE [HostObjects H] in
/-- What is done with the symbol only has to be looked at for that of the instruction. -/
theorem raises_withSymbol {i : Instruction} {f : Symbol → Exec H α}
    (hnone : i.symbol? = none →
      E (.internal (i.op.mnemonic ++ " without a symbol operand")))
    (hf : ∀ s, i.symbol? = some s → Raises E (f s)) :
    Raises E (symbolOperand i >>= f) := by
  unfold symbolOperand
  cases h : i.symbol? with
  | some s => exact hf s h
  | none => exact raises_internal (hnone h)

theorem raises_assigned {i : Instruction} (hfault : ∀ f, E (.fault f)) :
    Raises E (assigned i : Exec H Value) := by
  refine raises_bind (raises_peek hE fun _ => hfault _) fun _ => ?_
  exact raises_pure _

theorem raises_topFrame : Raises E (topFrame : Exec H Frame) := by
  refine raises_bind (raises_askProc _) fun top? => ?_
  split
  · exact raises_pure _
  · exact raises_internal (hE.mishap .noFrame)

theorem raises_symbolCell {s : Symbol}
    (hglobal : s.isGlobal = true →
      E (.internal (s.display ++ " cannot be used as a variable cell"))) :
    Raises E (symbolCell s : Exec H CellRef) := by
  have hrange := hE.mishap (.outOfRange s)
  refine raises_bind (raises_topFrame hE) fun frame => ?_
  cases s with
  | slot index name =>
      dsimp only
      split
      · exact raises_pure _
      · exact raises_internal hrange
  | captured index name =>
      dsimp only
      split
      · refine raises_bind (raises_ask _) fun closure => ?_
        split
        · exact raises_pure _
        · exact raises_internal hrange
      · exact raises_internal hrange
  | global name env => exact raises_internal (hglobal rfl)

theorem raises_readSymbol {s : Symbol}
    (hglobal : s.isGlobal = true →
      E (.internal (s.display ++ " cannot be used as a variable cell"))) :
    Raises E (readSymbol s : Exec H Value) := by
  refine raises_bind (raises_symbolCell hE hglobal) fun _ => ?_
  exact raises_ask _

omit hE [HostObjects H] in
theorem raises_freshLocals (first n : Nat) (locals : Array CellRef) :
    Raises E (freshLocals first n locals : Exec H (Array CellRef)) := by
  induction n generalizing first locals with
  | zero => exact raises_pure _
  | succ n ih => exact raises_bind (raises_changeWorld _) fun _ => ih _ _

theorem raises_clean {i : Instruction} (hfault : ∀ f, E (.fault f)) :
    Raises E (clean i : Exec H Unit) := by
  refine raises_bind (raises_topFrame hE) fun _ => ?_
  refine raises_bind (raises_addOffsets fun _ => hfault _) fun _ => ?_
  refine raises_bind (raises_freshLocals _ _ _) fun _ => ?_
  exact raises_modifyProc _

theorem raises_captureAll {symbols : List Symbol}
    (hglobal : ∀ s ∈ symbols, s.isGlobal = true →
      E (.internal (s.display ++ " cannot be used as a variable cell"))) :
    Raises E (captureAll symbols : Exec H (List CellRef)) := by
  induction symbols with
  | nil => exact raises_pure _
  | cons s rest ih =>
      rw [List.forall_mem_cons] at hglobal
      exact raises_bind (raises_symbolCell hE hglobal.1) fun _ =>
        raises_bind (ih hglobal.2) fun _ => raises_pure _

theorem raises_makeClosure (chunk : Chunk) {i : Instruction}
    (hglobal : ∀ s ∈ i.symbols, s.isGlobal = true →
      E (.internal (s.display ++ " cannot be used as a variable cell"))) :
    Raises E (makeClosure chunk i : Exec H Unit) := by
  refine raises_bind (raises_captureAll hE hglobal) fun _ => ?_
  refine raises_bind (raises_changeWorld _) fun _ => ?_
  exact raises_modifyProc _

theorem raises_beginFunction {i : Instruction} (hfault : ∀ f, E (.fault f)) :
    Raises E (beginFunction i : Exec H Unit) := by
  refine raises_bind (raises_topFrame hE) fun frame => ?_
  dsimp only
  split
  · exact raises_bind (raises_throw (hfault _)) fun _ =>
      raises_bind (raises_changeWorld _) fun _ => raises_modifyProc _
  · exact raises_bind (raises_changeWorld _) fun _ => raises_modifyProc _

theorem raises_bindParams (locals : Array CellRef) (args : List Value)
    (position : Nat) {params : List Symbol}
    (hlocal : ∀ s ∈ params, E (.internal ("parameter " ++ s.display ++ " is not a local"))) :
    Raises E (bindParams locals args position params : Exec H Unit) := by
  induction params generalizing position with
  | nil => exact raises_pure _
  | cons param rest ih =>
      rw [List.forall_mem_cons] at hlocal
      unfold bindParams
      split
      · split
        · exact raises_bind (raises_modifyWorld _) fun _ => ih _ hlocal.2
        · exact raises_internal (hE.mishap (.outOfRange _))
      · exact raises_internal hlocal.1

theorem raises_bindArgs {i : Instruction}
    (hlocal : ∀ s ∈ i.symbols,
      E (.internal ("parameter " ++ s.display ++ " is not a local"))) :
    Raises E (bindArgs i : Exec H Unit) := by
  refine raises_bind (raises_topFrame hE) fun _ => ?_
  refine raises_bind (raises_modifyProc _) fun _ => ?_
  exact raises_bindParams hE _ _ _ hlocal

/-! ### Tables and loops -/

theorem raises_tableOperand : Raises E (tableOperand : Exec H TableRef) := by
  refine raises_bind (raises_peek_near hE (by decide)) fun v => ?_
  split
  · exact raises_pure _
  · exact raises_internal (hE.mishap .noTable)

theorem raises_initField : Raises E (initField : Exec H Unit) := by
  refine raises_bind (raises_pop hE) fun value => ?_
  refine raises_bind (raises_pop hE) fun key => ?_
  refine raises_bind (raises_tableOperand hE) fun t => ?_
  split
  · exact raises_modifyWorld _
  · exact raises_throw (hE.script _)

omit hE [HostObjects H] in
theorem raises_fillItems (hfault : ∀ f, E (.fault f)) (t : TableRef) (i : Int)
    (values : List Value) : Raises E (fillItems t i values : Exec H Unit) := by
  induction values generalizing i with
  | nil => exact raises_pure _
  | cons v rest ih =>
      unfold fillItems
      split
      · exact raises_bind (raises_modifyWorld _) fun _ => ih _
      · exact raises_throw (hfault _)

theorem raises_initItem {i : Instruction} (hfault : ∀ f, E (.fault f)) :
    Raises E (initItem i : Exec H Unit) := by
  refine raises_bind (raises_pop hE) fun value => ?_
  refine raises_bind (raises_tableOperand hE) fun t => ?_
  split <;> exact raises_fillItems hfault _ _ _

theorem raises_getMulti : Raises E (getMulti : Exec H Unit) := by
  refine raises_bind (raises_pop hE) fun keys => ?_
  refine raises_bind (raises_pop hE) fun object => ?_
  dsimp only
  split
  · exact raises_consult (fun w => hE.userIndex w _ keys) fun _ =>
      raises_modifyProc _
  · exact raises_throw (hE.script _)

theorem raises_setMulti {i : Instruction} (hfault : ∀ f, E (.fault f)) :
    Raises E (setMulti i : Exec H Unit) := by
  refine raises_bind (raises_pop hE) fun keys => ?_
  refine raises_bind (raises_pop hE) fun object => ?_
  refine raises_bind (raises_assigned hE hfault) fun value => ?_
  split
  · exact raises_consult (fun w => hE.userAssign w _ keys value) fun _ =>
      raises_modifyWorld _
  · exact raises_throw (hE.script _)

theorem raises_numberOperand {offset : Nat} (h : offset < 3) :
    Raises E (numberOperand offset : Exec H Float) := by
  refine raises_bind (raises_peek_near hE h) fun v => ?_
  split
  · exact raises_pure _
  · exact raises_internal (hE.mishap .notNumeric)

theorem raises_forState : Raises E (forState : Exec H (Float × Float × Float)) := by
  refine raises_bind (raises_numberOperand hE (by decide)) fun _ => ?_
  refine raises_bind (raises_numberOperand hE (by decide)) fun _ => ?_
  refine raises_bind (raises_numberOperand hE (by decide)) fun _ => ?_
  exact raises_pure _

theorem raises_forCheck (i : Instruction) :
    Raises E (forCheck i : Exec H Unit) := by
  refine raises_bind (raises_forState hE) fun state => ?_
  dsimp only
  split <;> split
  all_goals
    first
    | exact raises_modifyProc _
    | exact raises_pure _

theorem raises_forStep : Raises E (forStep : Exec H Unit) := by
  refine raises_bind (raises_forState hE) fun _ => ?_
  exact raises_modifyProc _

theorem raises_toNumber (i : Instruction) :
    Raises E (toNumber i : Exec H Unit) := by
  refine raises_bind (raises_pop hE) fun v => ?_
  split
  · exact raises_modifyProc _
  · exact raises_throw (hE.script _)

theorem raises_jumpWhen (i : Instruction) (condition : Value → Bool) :
    Raises E (jumpWhen i condition : Exec H Unit) := by
  refine raises_bind (raises_pop hE) fun v => ?_
  split
  · exact raises_modifyProc _
  · exact raises_pure _

theorem raises_jumpOrPop (i : Instruction) (truth : Bool) :
    Raises E (jumpOrPop i truth : Exec H Unit) := by
  refine raises_bind (raises_peek_near hE (by decide)) fun v => ?_
  split
  · exact raises_modifyProc _
  · exact raises_bind (raises_pop hE) fun _ => raises_pure _

/-! ### Instructions -/

omit hE [HostObjects H] in
theorem raises_intendResolved (r : Resolved) :
    Raises E (intendResolved r : Exec H Intent) := by
  cases r with
  | value v => exact raises_bind (raises_modifyProc _) fun _ => raises_pure _
  | call p => exact raises_pure _

theorem raises_intendIndex (object key : Value) :
    Raises E (intendIndex object key : Exec H Intent) := by
  refine raises_consult ?_ raises_intendResolved
  intro w
  exact hE.resolveIndex w object key

theorem raises_intendLoad {s : Symbol}
    (henv : ∀ name env, s = .global name env → env.isGlobal = true →
      E (.internal (env.display ++ " cannot be used as a variable cell"))) :
    Raises E (intendLoad s : Exec H Intent) := by
  cases s with
  | global name env =>
      exact raises_bind (raises_readSymbol hE (henv name env rfl)) fun object =>
        raises_intendIndex hE object _
  | slot index name =>
      exact raises_bind (raises_readSymbol hE nofun) fun v =>
        raises_bind (raises_modifyProc _) fun _ => raises_pure _
  | captured index name =>
      exact raises_bind (raises_readSymbol hE nofun) fun v =>
        raises_bind (raises_modifyProc _) fun _ => raises_pure _

theorem raises_intendSetIndex (object key value : Value) :
    Raises E (intendSetIndex object key value : Exec H Intent) := by
  refine raises_consult (fun w => hE.resolveSetIndex w object key value)
    fun assignment => ?_
  split
  · exact raises_pure _
  · exact raises_bind (raises_modifyWorld _) fun _ => raises_pure _

theorem raises_intendStore {s : Symbol} (value : Value)
    (henv : ∀ name env, s = .global name env → env.isGlobal = true →
      E (.internal (env.display ++ " cannot be used as a variable cell"))) :
    Raises E (intendStore s value : Exec H Intent) := by
  cases s with
  | global name env =>
      exact raises_bind (raises_readSymbol hE (henv name env rfl)) fun object =>
        raises_intendSetIndex hE object _ value
  | slot index name =>
      exact raises_bind (raises_symbolCell hE nofun) fun c =>
        raises_bind (raises_modifyWorld _) fun _ => raises_pure _
  | captured index name =>
      exact raises_bind (raises_symbolCell hE nofun) fun c =>
        raises_bind (raises_modifyWorld _) fun _ => raises_pure _

theorem raises_intendBinary
    {f : World H → Value → Value → Except RuntimeError Resolved}
    (hf : ∀ w a b, ErrorsIn E (f w a b)) : Raises E (intendBinary f) := by
  refine raises_bind (raises_popPair hE) fun _ => ?_
  exact raises_consult (fun w => hf w _ _) raises_intendResolved

theorem raises_intendCall (i : Instruction) (methodCall : Bool) :
    Raises E (intendCall i methodCall : Exec H Intent) := by
  refine raises_bind (raises_popMany hE _) fun _ => ?_
  refine raises_bind (raises_pop hE) fun _ => ?_
  exact raises_pure _

theorem raises_intendReturn (i : Instruction) :
    Raises E (intendReturn i : Exec H Intent) := by
  unfold intendReturn
  split
  · exact raises_bind (raises_pop hE) fun _ => raises_pure _
  · exact raises_pure _

theorem raises_intent (chunk : Chunk) {i : Instruction}
    (hobjections : ∀ reason, i.Objection reason → E (.internal reason))
    (hfaults : i.op.reckons = true → ∀ f, E (.fault f)) :
    Raises E (intent chunk i : Exec H Intent) := by
  have hpop := raises_pop (H := H) hE
  have hassigned (hop : i.op.reckons = true) : Raises E (assigned i : Exec H Value) :=
    raises_assigned hE (hfaults hop)
  have hbinary := @raises_intendBinary H E _ hE
  have hvalue (hop : i.op = .literal ∨ i.op = .getField ∨ i.op = .setField) :
      Raises E (valueOperand i : Exec H Value) :=
    raises_valueOperand fun hnone => hobjections _ (.noValue hop hnone)
  have hsymbol (hop : i.op = .load ∨ i.op = .store) (hnone : i.symbol? = none) :=
    hobjections _ (.noSymbol hop hnone)
  have henv (hop : i.op = .load ∨ i.op = .store) (s : Symbol) (hs : i.symbol? = some s)
      (name : String) (env : Symbol) (h : s = .global name env)
      (hglobal : env.isGlobal = true) :=
    hobjections _ (.environment hop (hs.trans (congrArg some h)) hglobal)
  unfold intent
  cases hop : i.op with
  | nop => exact raises_pure _
  | pop =>
      exact raises_andIntend (raises_bind (raises_popMany hE _) fun _ => raises_pure _)
  | copy =>
      exact raises_andIntend
        (raises_bind (raises_peek hE fun _ => hfaults (by simp [hop, Op.reckons]) _) fun _ =>
          raises_modifyProc _)
  | swap =>
      exact raises_andIntend (raises_swap hE (hfaults (by simp [hop, Op.reckons])))
  | literal =>
      exact raises_andIntend
        (raises_bind (hvalue (.inl hop)) fun _ => raises_modifyProc _)
  | makeTuple =>
      exact raises_andIntend
        (raises_bind (raises_popMany hE _) fun _ => raises_modifyProc _)
  | toScalar => exact raises_andIntend (raises_bind hpop fun _ => raises_modifyProc _)
  | load =>
      exact raises_withSymbol (hsymbol (.inl hop)) fun s hs =>
        raises_intendLoad hE (henv (.inl hop) s hs)
  | store =>
      exact raises_bind (hassigned (by simp [hop, Op.reckons])) fun v =>
        raises_withSymbol (hsymbol (.inr hop)) fun s hs =>
          raises_intendStore hE v (henv (.inr hop) s hs)
  | clean =>
      exact raises_andIntend (raises_clean hE (hfaults (by simp [hop, Op.reckons])))
  | closure =>
      exact raises_andIntend (raises_makeClosure hE chunk fun s hs hglobal =>
        hobjections _ (.capture hop hs hglobal))
  | beginFunction =>
      exact raises_andIntend (raises_beginFunction hE (hfaults (by simp [hop, Op.reckons])))
  | bindArgs =>
      exact raises_andIntend (raises_bindArgs hE fun s hs =>
        hobjections _ (.parameter hop hs))
  | call => exact raises_intendCall hE i false
  | methodCall => exact raises_intendCall hE i true
  | ret => exact raises_intendReturn hE i
  | newTable =>
      exact raises_andIntend
        (raises_bind (raises_changeWorld _) fun _ => raises_modifyProc _)
  | initField => exact raises_andIntend (raises_initField hE)
  | initItem =>
      exact raises_andIntend (raises_initItem hE (hfaults (by simp [hop, Op.reckons])))
  | getIndex =>
      exact raises_bind hpop fun _ => raises_bind hpop fun _ =>
        raises_intendIndex hE _ _
  | getField =>
      exact raises_bind hpop fun _ => raises_bind (hvalue (.inr (.inl hop))) fun _ =>
        raises_intendIndex hE _ _
  | getMulti => exact raises_andIntend (raises_getMulti hE)
  | setIndex =>
      exact raises_bind hpop fun _ => raises_bind hpop fun _ =>
        raises_bind (hassigned (by simp [hop, Op.reckons])) fun _ => raises_intendSetIndex hE _ _ _
  | setField =>
      exact raises_bind hpop fun _ => raises_bind (hassigned (by simp [hop, Op.reckons])) fun _ =>
        raises_bind (hvalue (.inr (.inr hop))) fun _ => raises_intendSetIndex hE _ _ _
  | setMulti =>
      exact raises_andIntend (raises_setMulti hE (hfaults (by simp [hop, Op.reckons])))
  | jump => exact raises_andIntend (raises_modifyProc _)
  | jumpIfFalse => exact raises_andIntend (raises_jumpWhen hE i _)
  | jumpIfNil => exact raises_andIntend (raises_jumpWhen hE i _)
  | jumpIfTrueOrPop => exact raises_andIntend (raises_jumpOrPop hE i true)
  | jumpIfFalseOrPop => exact raises_andIntend (raises_jumpOrPop hE i false)
  | forCheck => exact raises_andIntend (raises_forCheck hE i)
  | forStep => exact raises_andIntend (raises_forStep hE)
  | toNumber => exact raises_andIntend (raises_toNumber hE i)
  | toBoolean => exact raises_andIntend (raises_bind hpop fun _ => raises_modifyProc _)
  | iterPrepare =>
      exact raises_andIntend (raises_bind hpop fun _ => raises_modifyProc _)
  | iterUpdate =>
      exact raises_andIntend
        (raises_bind hpop fun _ => raises_bind hpop fun _ => raises_modifyProc _)
  | concat => exact hbinary hE.resolveConcat
  | add => exact hbinary fun w => hE.resolveArith w .add
  | sub => exact hbinary fun w => hE.resolveArith w .sub
  | mul => exact hbinary fun w => hE.resolveArith w .mul
  | div => exact hbinary fun w => hE.resolveArith w .div
  | mod => exact hbinary fun w => hE.resolveArith w .mod
  | pow => exact hbinary fun w => hE.resolveArith w .pow
  | neg =>
      exact raises_bind hpop fun a =>
        raises_consult (fun w => hE.resolveNegate w a) raises_intendResolved
  | not => exact raises_andIntend (raises_bind hpop fun _ => raises_modifyProc _)
  | length =>
      exact raises_bind hpop fun a => raises_bind (raises_modifyWorld _) fun _ =>
        raises_consult (fun w => hE.resolveLength w a) raises_intendResolved
  | equal => exact hbinary fun w a b => errorsIn_ok _
  | less => exact hbinary hE.resolveLess
  | lessEqual => exact hbinary hE.resolveLessEqual
  | invalid => exact raises_internal (hobjections _ (.invalid hop))

omit hE in
theorem raises_stepIntent (hE : Covers H E) : Raises E (stepIntent : Exec H Intent) := by
  refine raises_bind (raises_bind (raises_askProc _) fun chunk? => ?_)
    fun fetched => raises_intent hE.withstands fetched.1 (fun _ _ => hE.internal _)
      fun _ _ => hE.fault _
  split
  · exact raises_internal (hE.internal _)
  · refine raises_bind (raises_askProc _) fun ip => ?_
    split
    · exact raises_internal (hE.internal _)
    · exact raises_bind (raises_modifyProc _) fun _ => raises_pure _

/-! ### Calls and results -/

theorem raises_failCall (e : ScriptError) (flags : FrameFlags)
    (returnAddress : Nat) (handlers : Handlers) :
    Raises E (failCall e flags returnAddress handlers : Exec H Outcome) := by
  unfold failCall
  split
  · exact raises_pure _
  · exact raises_throw (hE.script e)

theorem raises_enter (callee : Callee) (args : List Value) (flags : FrameFlags)
    (returnAddress : Nat) (handlers : Handlers) :
    Raises E (enter callee args flags returnAddress handlers : Exec H Outcome) := by
  refine raises_bind (raises_askProc _) fun depth => ?_
  refine raises_bind (raises_ask _) fun limit => ?_
  split
  · exact raises_failCall hE _ _ _ _
  · refine raises_bind (raises_askProc _) fun base => ?_
    split
    · exact raises_bind (raises_ask _) fun _ =>
        raises_bind (raises_modifyProc _) fun _ => raises_pure _
    · exact raises_bind (raises_modifyProc _) fun _ => raises_pure _

theorem raises_call (function : Value) (args : List Value) (flags : FrameFlags)
    (returnAddress : Nat) (handlers : Handlers) :
    Raises E (call function args flags returnAddress handlers : Exec H Outcome) := by
  refine raises_bind (raises_ask _) fun resolved => ?_
  split
  · exact raises_enter hE _ _ _ _ _
  · exact raises_failCall hE _ _ _ _

theorem raises_callPending (p : PendingCall) :
    Raises E (callPending p : Exec H Outcome) := by
  refine raises_bind (raises_askProc _) fun _ => ?_
  exact raises_call hE _ _ _ _ _

omit hE [HostObjects H] in
theorem raises_popFrame? : Raises E (popFrame? : Exec H (Option Frame)) := by
  refine raises_bind (raises_askProc _) fun popped => ?_
  split
  · exact raises_bind (raises_modifyProc _) fun _ => raises_pure _
  · exact raises_pure _

omit hE [HostObjects H] in
theorem raises_deliver (flags : FrameFlags) (returnAddress : Nat)
    (v? : Option Value) :
    Raises E (deliver flags returnAddress v? : Exec H Outcome) := by
  unfold deliver
  split
  · exact raises_pure _
  · refine raises_bind (raises_askProc _) fun top? => ?_
    split
    · exact raises_bind (raises_modifyProc _) fun _ =>
        raises_bind (raises_modifyProc _) fun _ => raises_pure _
    · split
      · exact raises_bind raises_popFrame? fun _ => raises_pure _
      · refine raises_bind (raises_modifyProc _) fun _ =>
          raises_bind (raises_modifyProc _) fun _ => ?_
        dsimp only
        split
        · exact raises_bind (raises_ask _) fun _ =>
            raises_bind (raises_modifyProc _) fun _ => raises_pure _
        · exact raises_pure _

theorem raises_finish (frame : Frame) (v : Value) :
    Raises E (finish frame v : Exec H Outcome) := by
  unfold finish
  split
  · exact raises_deliver _ _ _
  · refine raises_bind ?_ fun _ => raises_deliver _ _ _
    unfold ofScript
    split
    · exact raises_pure _
    · exact raises_throw (hE.script _)
  · exact raises_pure _

theorem raises_completeNative (outcome : NativeOutcome) :
    Raises E (completeNative outcome : Exec H Outcome) := by
  refine raises_bind raises_popFrame? fun frame? => ?_
  split
  · exact raises_internal (hE.mishap .nativeLost)
  · split
    · exact raises_finish hE _ _
    · exact raises_bind (raises_modifyProc _) fun _ => raises_pure _
    · unfold tailFromNative
      split
      · exact raises_pure _
      · exact raises_bind (raises_modifyProc _) fun _ => raises_pure _

theorem raises_placeCall (function : Value) (args : List Value)
    (methodCall : Bool) :
    Raises E (placeCall function args methodCall : Exec H Outcome) := by
  refine raises_bind (raises_askProc _) fun tail => ?_
  split
  · refine raises_bind raises_popFrame? fun caller? => ?_
    split
    · exact raises_internal (hE.mishap .nothingToReplace)
    · exact raises_bind (raises_modifyProc _) fun _ => raises_call hE _ _ _ _ _
  · exact raises_bind (raises_askProc _) fun _ => raises_call hE _ _ _ _ _

theorem raises_leaveFrame (v : Value) :
    Raises E (leaveFrame v : Exec H Outcome) := by
  refine raises_bind raises_popFrame? fun frame? => ?_
  split
  · exact raises_internal (hE.mishap .nothingToLeave)
  · exact raises_bind (raises_modifyProc _) fun _ => raises_finish hE _ _

theorem raises_carryOut (intent : Intent) :
    Raises E (carryOut intent : Exec H Outcome) := by
  cases intent with
  | proceed => exact raises_pure _
  | pending p => exact raises_callPending hE p
  | call function args methodCall => exact raises_placeCall hE _ _ _
  | «return» v => exact raises_leaveFrame hE v

omit hE in
theorem raises_step (hE : Covers H E) : Raises E (step : Exec H Outcome) := by
  rw [step_eq]
  exact raises_bind (raises_stepIntent hE) fun intent => raises_carryOut hE.withstands intent

end

end Exec

end ScriptEngine
