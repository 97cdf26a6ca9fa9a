import ScriptEngine.Proofs.Machine.Operands

/-!
# How far instructions reach

Every instruction looks at a fixed number of operands from the top, or takes
them.  With that many above some height it does the same whatever is below, and
leaves that where it is.  Without that many on the whole stack it fails.
-/

namespace ScriptEngine

variable {H : HostTypes}

/-- The number of operands that the instruction looks at or takes, from the top. -/
def Instruction.reach (i : Instruction) : Nat :=
  match i.op with
  | .nop | .literal | .load | .clean | .closure | .beginFunction | .bindArgs
  | .newTable | .jump | .invalid => 0
  | .toScalar | .getField | .jumpIfFalse | .jumpIfNil | .jumpIfTrueOrPop
  | .jumpIfFalseOrPop | .toNumber | .toBoolean | .iterPrepare | .neg | .not
  | .length => 1
  | .initItem | .getIndex | .getMulti | .iterUpdate | .concat | .add | .sub
  | .mul | .div | .mod | .pow | .equal | .less | .lessEqual => 2
  | .initField | .forCheck | .forStep => 3
  | .pop | .makeTuple => i.num
  | .copy | .store | .call | .methodCall => i.num + 1
  | .setField => i.num + 2
  | .setIndex | .setMulti => i.num + 3
  | .swap => max i.num i.num2 + 1
  | .ret => if i.num = 1 then 1 else 0

namespace Exec

variable {α β : Type}

/-- The result with other operands. -/
def overOperands (r : EStateM.Result RuntimeError (Core H) α) (items : List Value) :
    EStateM.Result RuntimeError (Core H) α :=
  match r with
  | .ok a c => .ok a (c.withOperands items)
  | .error e c => .error e (c.withOperands items)

/-! ## Programs without operands -/

/-- A program that neither looks at the operands nor changes them. -/
def Idle (x : Exec H α) : Prop :=
  ∀ c items, x (c.withOperands items) = overOperands (x c) items

theorem idle_pure (a : α) : Idle (pure a : Exec H α) := by
  intro _ _
  rfl

theorem idle_throw (e : RuntimeError) : Idle (throw e : Exec H α) := by
  intro _ _
  rfl

theorem idle_internal (reason : String) : Idle (internal reason : Exec H α) :=
  idle_throw _

theorem Idle.bind {x : Exec H α} {f : α → Exec H β} (hx : Idle x)
    (hf : ∀ a, Idle (f a)) : Idle (x >>= f) := by
  intro c items
  rw [run_bind, run_bind, hx c items]
  cases x c with
  | ok a c' => exact hf a c' items
  | error e c' => rfl

theorem idle_ofResult (r : Except RuntimeError α) : Idle (ofResult r : Exec H α) := by
  cases r with
  | ok a => exact idle_pure a
  | error e => exact idle_throw e

theorem idle_ofScript (r : Except ScriptError α) : Idle (ofScript r : Exec H α) := by
  cases r with
  | ok a => exact idle_pure a
  | error e => exact idle_throw _

theorem idle_ask (f : World H → α) : Idle (ask f) := by
  intro _ _
  rfl

theorem idle_modifyWorld (f : World H → World H) : Idle (modifyWorld f) := by
  intro _ _
  rfl

theorem idle_changeWorld (f : World H → α × World H) : Idle (changeWorld f) := by
  intro _ _
  rfl

theorem idle_jumpTo (ip : Nat) : Idle (jumpTo ip : Exec H Unit) := by
  intro _ _
  rfl

theorem idle_setTopFrame (f : Frame) : Idle (setTopFrame f : Exec H Unit) := by
  intro _ _
  rfl

theorem idle_addOffsets (a b : Nat) : Idle (addOffsets a b : Exec H Nat) := by
  unfold addOffsets
  split
  · exact idle_pure _
  · exact idle_throw _

theorem idle_topFrame : Idle (topFrame : Exec H Frame) := by
  intro c items
  cases htop : c.proc.frames.top? with
  | none =>
      rw [topFrame_run_none htop, topFrame_run_none (c := c.withOperands items) htop]
      rfl
  | some f =>
      rw [topFrame_run htop, topFrame_run (c := c.withOperands items) htop]
      rfl

theorem idle_popFrame? : Idle (popFrame? : Exec H (Option Frame)) := by
  intro c items
  have hframes : (c.withOperands items).proc.frames = c.proc.frames := rfl
  rw [popFrame?_run, popFrame?_run, hframes]
  cases c.proc.frames.pop? with
  | none => rfl
  | some p => rfl

theorem idle_symbolCell (s : Symbol) : Idle (symbolCell s : Exec H CellRef) := by
  apply idle_topFrame.bind
  intro frame
  cases s with
  | slot index name =>
      dsimp only
      split
      · exact idle_pure _
      · exact idle_internal _
  | captured index name =>
      dsimp only
      split
      · apply (idle_ask _).bind
        intro closure
        split
        · exact idle_pure _
        · exact idle_internal _
      · exact idle_internal _
  | global name env => exact idle_internal _

theorem idle_readSymbol (s : Symbol) : Idle (readSymbol s : Exec H Value) := by
  refine (idle_symbolCell s).bind fun _ => ?_
  exact idle_ask _

theorem idle_freshLocals (first n : Nat) (locals : Array CellRef) :
    Idle (freshLocals first n locals : Exec H (Array CellRef)) := by
  induction n generalizing first locals with
  | zero => exact idle_pure _
  | succ n ih => exact (idle_changeWorld _).bind fun c => ih _ _

theorem idle_captureAll (symbols : List Symbol) :
    Idle (captureAll symbols : Exec H (List CellRef)) := by
  induction symbols with
  | nil => exact idle_pure _
  | cons s rest ih =>
      exact (idle_symbolCell s).bind fun c => ih.bind fun cs => idle_pure _

theorem idle_bindParams (locals : Array CellRef) (args : List Value)
    (position : Nat) (params : List Symbol) :
    Idle (bindParams locals args position params : Exec H Unit) := by
  induction params generalizing position with
  | nil => exact idle_pure _
  | cons param rest ih =>
      unfold bindParams
      cases param with
      | slot index name =>
          dsimp only
          split
          · exact (idle_modifyWorld _).bind fun _ => ih _
          · exact idle_internal _
      | captured index name => exact idle_internal _
      | global name env => exact idle_internal _

theorem idle_clean (i : Instruction) : Idle (clean i : Exec H Unit) := by
  refine idle_topFrame.bind fun _ => ?_
  refine (idle_addOffsets _ _).bind fun _ => ?_
  refine (idle_freshLocals _ _ _).bind fun _ => ?_
  exact idle_setTopFrame _

theorem idle_beginFunction (i : Instruction) :
    Idle (beginFunction i : Exec H Unit) := by
  apply idle_topFrame.bind
  intro frame
  split
  · exact (idle_throw _).bind fun _ =>
      (idle_changeWorld _).bind fun locals => idle_setTopFrame _
  · exact (idle_changeWorld _).bind fun locals => idle_setTopFrame _

theorem idle_bindArgs (i : Instruction) : Idle (bindArgs i : Exec H Unit) := by
  refine idle_topFrame.bind fun _ => ?_
  refine (idle_setTopFrame _).bind fun _ => ?_
  exact idle_bindParams _ _ _ _

theorem idle_fillItems (t : TableRef) (i : Int) (values : List Value) :
    Idle (fillItems t i values : Exec H Unit) := by
  induction values generalizing i with
  | nil => exact idle_pure _
  | cons v rest ih =>
      unfold fillItems
      split
      · exact (idle_modifyWorld _).bind fun _ => ih _
      · exact idle_throw _

theorem idle_valueOperand (i : Instruction) :
    Idle (valueOperand i : Exec H Value) := by
  unfold valueOperand
  split
  · exact idle_pure _
  · exact idle_internal _

theorem idle_symbolOperand (i : Instruction) :
    Idle (symbolOperand i : Exec H Symbol) := by
  unfold symbolOperand
  split
  · exact idle_pure _
  · exact idle_internal _

/-! ## Programs that reach for operands -/

/-- With `n` operands above some height the program does the same whatever is
below, leaves that where it is, and of the `n` it leaves at least as many as `m`
says, unless it fails. -/
def Uses (n m : Nat) (x : Exec H α) : Prop :=
  ∀ (c : Core H) (own : List Value) (height : Nat), n ≤ own.length →
    ∃ r own', (∀ below, below.length = height →
        x (c.withOperands (own ++ below)) = overOperands r (own' ++ below)) ∧
      ∀ a c', r = .ok a c' → own.length + m ≤ own'.length + n

theorem Idle.uses {n m : Nat} {x : Exec H α} (hx : Idle x) (h : m ≤ n) :
    Uses n m x := by
  intro c own height hn
  exact ⟨x c, own, fun below _ => hx c _, fun _ _ _ => by omega⟩

theorem Uses.bind {n m k : Nat} {x : Exec H α} {f : α → Exec H β}
    (hx : Uses n m x) (hf : ∀ a, Uses m k (f a)) : Uses n k (x >>= f) := by
  intro c own height hn
  obtain ⟨r, own', hrun, hleft⟩ := hx c own height hn
  cases r with
  | ok a c' =>
      have hown := hleft a c' rfl
      obtain ⟨r', own'', hrun', hleft'⟩ := hf a c' own' height (by omega)
      refine ⟨r', own'', fun below hbelow => ?_, fun b d hd => ?_⟩
      · rw [run_bind_of_ok (hrun below hbelow)]
        exact hrun' below hbelow
      · have hrest := hleft' b d hd
        omega
  | error e c' =>
      refine ⟨.error e c', own', fun below hbelow => ?_, fun b d hd => ?_⟩
      · exact run_bind_of_error (hrun below hbelow)
      · cases hd

theorem uses_push {n m : Nat} (v : Value) (h : m ≤ n + 1) :
    Uses n m (push v : Exec H Unit) := by
  intro c own height hn
  refine ⟨.ok () c, v :: own, fun below _ => rfl, fun _ _ _ => ?_⟩
  rw [List.length_cons]
  omega

theorem uses_pushAll {n m : Nat} (vs : List Value) (h : m ≤ n) :
    Uses n m (pushAll vs : Exec H Unit) := by
  intro c own height hn
  refine ⟨.ok () c, vs.reverse ++ own, fun below _ => ?_, fun _ _ _ => ?_⟩
  · have hstack : (Stack.of (own ++ below)).pushAll vs =
        .of (vs.reverse ++ own ++ below) := by
      apply Stack.ext
      rw [Stack.items_pushAll, List.append_assoc]
      rfl
    change EStateM.Result.ok ()
      { c with proc := { c.proc with stack := (Stack.of (own ++ below)).pushAll vs } } = _
    rw [hstack]
    rfl
  · rw [List.length_append]
    omega

theorem uses_pop {n m : Nat} (h : m + 1 ≤ n) : Uses n m (pop : Exec H Value) := by
  intro c own height hn
  cases own with
  | nil =>
      rw [List.length_nil] at hn
      omega
  | cons v own =>
      refine ⟨.ok v c, own, fun below _ => ?_, fun _ _ _ => ?_⟩
      · rw [pop_run]
        rfl
      · rw [List.length_cons]
        omega

theorem uses_popMany {n m k : Nat} (h : m + k ≤ n) :
    Uses n m (popMany k : Exec H (List Value)) := by
  intro c own height hn
  have hk : k ≤ own.length := by omega
  refine ⟨.ok (own.take k).reverse c, own.drop k, fun below _ => ?_,
    fun _ _ _ => ?_⟩
  · have hle : k ≤ (Stack.of (own ++ below)).height := by
      change k ≤ (own ++ below).length
      rw [List.length_append]
      omega
    have hpop : (Stack.of (own ++ below)).popMany? k =
        some ((own.take k).reverse, .of (own.drop k ++ below)) := by
      rw [popMany?_of_le hle]
      change some (((own ++ below).take k).reverse, Stack.of ((own ++ below).drop k)) = _
      rw [List.take_append_of_le_length hk, List.drop_append_of_le_length hk]
    have hstack : (c.withOperands (own ++ below)).proc.stack = .of (own ++ below) := rfl
    rw [popMany_run, hstack, hpop]
    rfl
  · rw [List.length_drop]
    omega

theorem get?_of_append {own below : List Value} {offset : Nat}
    (h : offset < own.length) :
    (Stack.of (own ++ below)).get? offset = some own[offset] := by
  change (own ++ below)[offset]? = _
  rw [List.getElem?_append_left h, List.getElem?_eq_getElem h]

theorem uses_peek {n m offset : Nat} (h : offset + 1 ≤ n) (hm : m ≤ n) :
    Uses n m (peek offset : Exec H Value) := by
  intro c own height hn
  have hoffset : offset < own.length := by omega
  by_cases hword : offset + 1 < wordLimit
  · refine ⟨.ok own[offset] c, own, fun below _ => ?_, fun _ _ _ => by omega⟩
    have hstack : (c.withOperands (own ++ below)).proc.stack = .of (own ++ below) := rfl
    rw [peek_run, if_pos hword, hstack, get?_of_append hoffset]
    rfl
  · refine ⟨.error (.fault .offsetOverflow) c, own, fun below _ => ?_,
      fun _ _ hok => ?_⟩
    · rw [peek_run, if_neg hword]
      rfl
    · cases hok

theorem set_of_append {own below : List Value} {offset : Nat} (v : Value)
    (h : offset < own.length) :
    (Stack.of (own ++ below)).set offset v = .of (own.set offset v ++ below) := by
  apply Stack.ext
  rw [Stack.items_set]
  exact List.set_append_left offset v h

theorem uses_swap {n m : Nat} (i : Instruction) (h : max i.num i.num2 + 1 ≤ n)
    (hm : m ≤ n) : Uses n m (swap i : Exec H Unit) := by
  intro c own height hn
  have hfirst : i.num < own.length := by omega
  have hsecond : i.num2 < own.length := by omega
  by_cases hword : i.num + 1 < wordLimit ∧ i.num2 + 1 < wordLimit
  · refine ⟨.ok () c, (own.set i.num own[i.num2]).set i.num2 own[i.num],
      fun below _ => ?_, fun _ _ _ => ?_⟩
    · have hset : i.num2 < (own.set i.num own[i.num2]).length := by
        rw [List.length_set]
        exact hsecond
      have hswap : (Stack.of (own ++ below)).swap? i.num i.num2 =
          some (.of ((own.set i.num own[i.num2]).set i.num2 own[i.num] ++ below)) := by
        rw [swap?_of_get? (get?_of_append hfirst) (get?_of_append hsecond),
          set_of_append _ hfirst, set_of_append _ hset]
      have hstack : (c.withOperands (own ++ below)).proc.stack = .of (own ++ below) := rfl
      rw [swap_run, if_pos hword, hstack, hswap]
      rfl
    · rw [List.length_set, List.length_set]
      omega
  · refine ⟨.error (.fault .offsetOverflow) c, own, fun below _ => ?_,
      fun _ _ hok => ?_⟩
    · rw [swap_run, if_neg hword]
      rfl
    · cases hok

theorem uses_numberOperand {n m offset : Nat} (h : offset + 1 ≤ n) (hm : m ≤ n) :
    Uses n m (numberOperand offset : Exec H Float) := by
  apply (uses_peek h (Nat.le_refl n)).bind
  intro v
  cases v with
  | number x => exact (idle_pure x).uses hm
  | _ => exact (idle_internal _).uses hm

theorem uses_forState {n m : Nat} (h : 3 ≤ n) (hm : m ≤ n) :
    Uses n m (forState : Exec H (Float × Float × Float)) := by
  apply (uses_numberOperand (by omega) (Nat.le_refl n)).bind
  intro var
  apply (uses_numberOperand (by omega) (Nat.le_refl n)).bind
  intro limit
  apply (uses_numberOperand (by omega) (Nat.le_refl n)).bind
  intro step
  exact (idle_pure _).uses hm

theorem uses_setOperand {n m offset : Nat} (v : Value) (h : offset + 1 ≤ n)
    (hm : m ≤ n) :
    Uses n m (modifyProc fun p => { p with stack := p.stack.set offset v } :
      Exec H Unit) := by
  intro c own height hn
  refine ⟨.ok () c, own.set offset v, fun below _ => ?_, fun _ _ _ => ?_⟩
  · have hoffset : offset < own.length := by omega
    rw [modifyProc_run]
    change EStateM.Result.ok () { c with
      proc := { c.proc with stack := (Stack.of (own ++ below)).set offset v } } = _
    rw [set_of_append v hoffset]
    rfl
  · rw [List.length_set]
    omega

theorem uses_forStep {n m : Nat} (h : 3 ≤ n) (hm : m ≤ n) :
    Uses n m (forStep : Exec H Unit) := by
  refine (uses_forState h (Nat.le_refl n)).bind fun _ => ?_
  exact uses_setOperand _ h hm

theorem uses_tableOperand {n m : Nat} (h : 1 ≤ n) (hm : m ≤ n) :
    Uses n m (tableOperand : Exec H TableRef) := by
  apply (uses_peek h (Nat.le_refl n)).bind
  intro v
  cases v with
  | table t => exact (idle_pure t).uses hm
  | _ => exact (idle_internal _).uses hm

theorem uses_assigned {n m : Nat} (i : Instruction) (h : i.num + 1 ≤ n)
    (hm : m ≤ n) : Uses n m (assigned i : Exec H Value) := by
  refine (uses_peek h (Nat.le_refl n)).bind fun _ => ?_
  exact (idle_pure _).uses hm

/-! ## Instructions -/

theorem uses_andIntend {n : Nat} {x : Exec H Unit} (hx : Uses n 0 x) :
    Uses n 0 (andIntend x) := by
  refine hx.bind fun _ => ?_
  exact (idle_pure _).uses (Nat.le_refl 0)

theorem uses_intendResolved (r : Resolved) :
    Uses 0 0 (intendResolved r : Exec H Intent) := by
  cases r with
  | value v =>
      exact (uses_push v (Nat.zero_le _)).bind fun _ =>
        (idle_pure _).uses (Nat.le_refl 0)
  | call p => exact (idle_pure _).uses (Nat.le_refl 0)

theorem uses_initField : Uses 3 0 (initField : Exec H Unit) := by
  apply (uses_pop (Nat.le_refl 3)).bind
  intro value
  apply (uses_pop (Nat.le_refl 2)).bind
  intro key
  apply (uses_tableOperand (Nat.le_refl 1) (Nat.zero_le 1)).bind
  intro t
  split
  · exact (idle_modifyWorld _).uses (Nat.le_refl 0)
  · exact (idle_throw _).uses (Nat.le_refl 0)

theorem uses_initItem (i : Instruction) : Uses 2 0 (initItem i : Exec H Unit) := by
  apply (uses_pop (Nat.le_refl 2)).bind
  intro value
  apply (uses_tableOperand (Nat.le_refl 1) (Nat.zero_le 1)).bind
  intro t
  split
  · exact (idle_fillItems _ _ _).uses (Nat.le_refl 0)
  · exact (idle_fillItems _ _ _).uses (Nat.le_refl 0)

theorem uses_forCheck (i : Instruction) : Uses 3 0 (forCheck i : Exec H Unit) := by
  apply (uses_forState (Nat.le_refl 3) (Nat.zero_le 3)).bind
  intro state
  dsimp only
  split
  · split
    · exact (idle_jumpTo _).uses (Nat.le_refl 0)
    · exact (idle_pure _).uses (Nat.le_refl 0)
  · split
    · exact (idle_jumpTo _).uses (Nat.le_refl 0)
    · exact (idle_pure _).uses (Nat.le_refl 0)

theorem uses_toNumber (i : Instruction) : Uses 1 0 (toNumber i : Exec H Unit) := by
  apply (uses_pop (Nat.le_refl 1)).bind
  intro v
  split
  · exact uses_push _ (Nat.zero_le _)
  · exact (idle_throw _).uses (Nat.le_refl 0)

theorem uses_iterPrepare : Uses 1 0 (iterPrepare : Exec H Unit) := by
  refine (uses_pop (Nat.le_refl 1)).bind fun _ => ?_
  exact uses_pushAll _ (Nat.le_refl 0)

theorem uses_iterUpdate : Uses 2 0 (iterUpdate : Exec H Unit) := by
  refine (uses_pop (Nat.le_refl 2)).bind fun _ => ?_
  refine (uses_pop (Nat.le_refl 1)).bind fun _ => ?_
  exact uses_push _ (Nat.zero_le _)

theorem uses_jumpWhen (i : Instruction) (condition : Value → Bool) :
    Uses 1 0 (jumpWhen i condition : Exec H Unit) := by
  apply (uses_pop (Nat.le_refl 1)).bind
  intro v
  split
  · exact (idle_jumpTo _).uses (Nat.le_refl 0)
  · exact (idle_pure _).uses (Nat.le_refl 0)

theorem uses_jumpOrPop (i : Instruction) (truth : Bool) :
    Uses 1 0 (jumpOrPop i truth : Exec H Unit) := by
  apply (uses_peek (Nat.le_refl 1) (Nat.le_refl 1)).bind
  intro v
  split
  · exact (idle_jumpTo _).uses (Nat.zero_le 1)
  · exact (uses_pop (Nat.le_refl 1)).bind fun _ =>
      (idle_pure _).uses (Nat.le_refl 0)

theorem uses_intendCall (i : Instruction) (methodCall : Bool) :
    Uses (i.num + 1) 0 (intendCall i methodCall : Exec H Intent) := by
  refine (uses_popMany (Nat.le_of_eq (Nat.add_comm 1 i.num))).bind fun _ => ?_
  refine (uses_pop (Nat.le_refl 1)).bind fun _ => ?_
  exact (idle_pure _).uses (Nat.le_refl 0)

theorem uses_intendReturn (i : Instruction) :
    Uses (if i.num = 1 then 1 else 0) 0 (intendReturn i : Exec H Intent) := by
  unfold intendReturn
  split
  · exact (uses_pop (Nat.le_refl 1)).bind fun v =>
      (idle_pure _).uses (Nat.le_refl 0)
  · exact (idle_pure _).uses (Nat.le_refl 0)

section

variable [HostObjects H]

theorem uses_intendIndex (object key : Value) :
    Uses 0 0 (intendIndex object key : Exec H Intent) := by
  refine ((idle_ask _).uses (Nat.le_refl 0)).bind fun r => ?_
  exact ((idle_ofResult r).uses (Nat.le_refl 0)).bind uses_intendResolved

theorem uses_intendLoad (s : Symbol) :
    Uses 0 0 (intendLoad s : Exec H Intent) := by
  have hvariable : Uses 0 0 (do
      push (← readSymbol s)
      pure .proceed : Exec H Intent) :=
    ((idle_readSymbol s).uses (Nat.le_refl 0)).bind fun v =>
      (uses_push v (Nat.zero_le _)).bind fun _ =>
        (idle_pure _).uses (Nat.le_refl 0)
  cases s with
  | global name env =>
      exact ((idle_readSymbol env).uses (Nat.le_refl 0)).bind fun object =>
        uses_intendIndex _ _
  | slot index name => exact hvariable
  | captured index name => exact hvariable

theorem idle_intendSetIndex (object key value : Value) :
    Idle (intendSetIndex object key value : Exec H Intent) := by
  apply (idle_ask _).bind
  intro r
  apply (idle_ofResult r).bind
  intro a
  cases a with
  | call p => exact idle_pure _
  | entry t k written v => exact (idle_modifyWorld _).bind fun _ => idle_pure _
  | object u o => exact (idle_modifyWorld _).bind fun _ => idle_pure _

theorem idle_intendStore (s : Symbol) (value : Value) :
    Idle (intendStore s value : Exec H Intent) := by
  have hvariable : Idle (do
      let c ← symbolCell s
      modifyWorld (·.setCell c value)
      pure .proceed : Exec H Intent) :=
    (idle_symbolCell s).bind fun c =>
      (idle_modifyWorld _).bind fun _ => idle_pure _
  cases s with
  | global name env =>
      exact (idle_readSymbol env).bind fun object => idle_intendSetIndex _ _ _
  | slot index name => exact hvariable
  | captured index name => exact hvariable

omit [HostObjects H] in
theorem uses_intendBinary
    (f : World H → Value → Value → Except RuntimeError Resolved) :
    Uses 2 0 (intendBinary f) := by
  have hpair : Uses 2 0 (popPair : Exec H (Value × Value)) :=
    (uses_pop (Nat.le_refl 2)).bind fun _ =>
      (uses_pop (Nat.le_refl 1)).bind fun _ => (idle_pure _).uses (Nat.le_refl 0)
  apply hpair.bind
  intro operands
  exact ((idle_ask _).uses (Nat.le_refl 0)).bind fun r =>
    ((idle_ofResult r).uses (Nat.le_refl 0)).bind uses_intendResolved

theorem uses_getMulti : Uses 2 0 (getMulti : Exec H Unit) := by
  apply (uses_pop (Nat.le_refl 2)).bind
  intro keys
  apply (uses_pop (Nat.le_refl 1)).bind
  intro object
  dsimp only
  split
  · exact ((idle_ask _).uses (Nat.le_refl 0)).bind fun r =>
      ((idle_ofResult r).uses (Nat.le_refl 0)).bind fun v =>
        uses_push v (Nat.zero_le _)
  · exact (idle_throw _).uses (Nat.le_refl 0)

theorem uses_setMulti (i : Instruction) :
    Uses (i.num + 3) 0 (setMulti i : Exec H Unit) := by
  apply (uses_pop (Nat.le_refl (i.num + 3))).bind
  intro keys
  apply (uses_pop (Nat.le_refl (i.num + 2))).bind
  intro object
  apply (uses_assigned i (Nat.le_refl (i.num + 1)) (Nat.zero_le _)).bind
  intro value
  split
  · exact ((idle_ask _).uses (Nat.le_refl 0)).bind fun r =>
      ((idle_ofResult r).uses (Nat.le_refl 0)).bind fun o =>
        (idle_modifyWorld _).uses (Nat.le_refl 0)
  · exact (idle_throw _).uses (Nat.le_refl 0)

/-- An instruction keeps to the operands it reaches. -/
theorem uses_intent (chunk : Chunk) (i : Instruction) :
    Uses i.reach 0 (intent chunk i : Exec H Intent) := by
  have hpushed {n : Nat} (v : Value) : Uses n 0 (push v : Exec H Unit) :=
    uses_push v (Nat.zero_le _)
  have hidle {α : Type} {x : Exec H α} (hx : Idle x) : Uses 0 0 x :=
    hx.uses (Nat.le_refl 0)
  unfold intent Instruction.reach
  cases i.op with
  | nop => exact hidle (idle_pure _)
  | pop =>
      exact uses_andIntend ((uses_popMany (Nat.le_of_eq (Nat.zero_add _))).bind
        fun _ => hidle (idle_pure _))
  | copy =>
      exact uses_andIntend ((uses_peek (Nat.le_refl _) (Nat.zero_le _)).bind hpushed)
  | swap => exact uses_andIntend (uses_swap i (Nat.le_refl _) (Nat.zero_le _))
  | literal => exact uses_andIntend ((hidle (idle_valueOperand i)).bind hpushed)
  | makeTuple =>
      exact uses_andIntend ((uses_popMany (Nat.le_of_eq (Nat.zero_add _))).bind
        fun vs => hpushed _)
  | toScalar =>
      exact uses_andIntend ((uses_pop (Nat.le_refl 1)).bind fun v => hpushed _)
  | load => exact (hidle (idle_symbolOperand i)).bind uses_intendLoad
  | store =>
      exact (uses_assigned i (Nat.le_refl _) (Nat.zero_le _)).bind fun v =>
        hidle ((idle_symbolOperand i).bind fun s => idle_intendStore s v)
  | clean => exact uses_andIntend (hidle (idle_clean i))
  | closure =>
      exact uses_andIntend ((hidle (idle_captureAll _)).bind fun upvalues =>
        (hidle (idle_changeWorld _)).bind fun f => hpushed _)
  | beginFunction => exact uses_andIntend (hidle (idle_beginFunction i))
  | bindArgs => exact uses_andIntend (hidle (idle_bindArgs i))
  | call => exact uses_intendCall i false
  | methodCall => exact uses_intendCall i true
  | ret => exact uses_intendReturn i
  | newTable =>
      exact uses_andIntend ((hidle (idle_changeWorld _)).bind fun t => hpushed _)
  | initField => exact uses_andIntend uses_initField
  | initItem => exact uses_andIntend (uses_initItem i)
  | getIndex =>
      exact (uses_pop (Nat.le_refl 2)).bind fun key =>
        (uses_pop (Nat.le_refl 1)).bind fun object => uses_intendIndex _ _
  | getField =>
      exact (uses_pop (Nat.le_refl 1)).bind fun object =>
        (hidle (idle_valueOperand i)).bind fun key => uses_intendIndex _ _
  | getMulti => exact uses_andIntend uses_getMulti
  | setIndex =>
      exact (uses_pop (Nat.le_refl (i.num + 3))).bind fun key =>
        (uses_pop (Nat.le_refl (i.num + 2))).bind fun object =>
          (uses_assigned i (Nat.le_refl _) (Nat.zero_le _)).bind fun v =>
            hidle (idle_intendSetIndex _ _ _)
  | setField =>
      exact (uses_pop (Nat.le_refl (i.num + 2))).bind fun object =>
        (uses_assigned i (Nat.le_refl _) (Nat.zero_le _)).bind fun v =>
          hidle ((idle_valueOperand i).bind fun key => idle_intendSetIndex _ _ _)
  | setMulti => exact uses_andIntend (uses_setMulti i)
  | jump => exact uses_andIntend (hidle (idle_jumpTo _))
  | jumpIfFalse => exact uses_andIntend (uses_jumpWhen i _)
  | jumpIfNil => exact uses_andIntend (uses_jumpWhen i _)
  | jumpIfTrueOrPop => exact uses_andIntend (uses_jumpOrPop i true)
  | jumpIfFalseOrPop => exact uses_andIntend (uses_jumpOrPop i false)
  | forCheck => exact uses_andIntend (uses_forCheck i)
  | forStep => exact uses_andIntend (uses_forStep (Nat.le_refl 3) (Nat.zero_le 3))
  | toNumber => exact uses_andIntend (uses_toNumber i)
  | toBoolean =>
      exact uses_andIntend ((uses_pop (Nat.le_refl 1)).bind fun v => hpushed _)
  | iterPrepare => exact uses_andIntend uses_iterPrepare
  | iterUpdate => exact uses_andIntend uses_iterUpdate
  | neg =>
      exact (uses_pop (Nat.le_refl 1)).bind fun a =>
        (hidle (idle_ask _)).bind fun r =>
          (hidle (idle_ofResult r)).bind uses_intendResolved
  | not =>
      exact uses_andIntend ((uses_pop (Nat.le_refl 1)).bind fun v => hpushed _)
  | length =>
      exact (uses_pop (Nat.le_refl 1)).bind fun a =>
        (hidle (idle_modifyWorld _)).bind fun _ =>
          (hidle (idle_ask _)).bind fun r =>
            (hidle (idle_ofResult r)).bind uses_intendResolved
  | invalid => exact hidle (idle_internal _)
  | _ => exact uses_intendBinary _

end

/-! ## Too few operands -/

/-- An operand that is not there was asked for, or an offset is no machine word. -/
def Starves (r : EStateM.Result RuntimeError (Core H) α) : Prop :=
  ∃ c, r = .error (.internal "value stack underflow") c ∨
    r = .error (.fault .offsetOverflow) c

/-- With fewer operands than `n` the program fails for want of them. -/
def Demands (n : Nat) (x : Exec H α) : Prop :=
  ∀ c : Core H, c.proc.stack.height < n → Starves (x c)

theorem demands_zero (x : Exec H α) : Demands 0 x := by
  intro _ h
  exact absurd h (Nat.not_lt_zero _)

theorem Starves.bind {x : Exec H α} {c : Core H} (h : Starves (x c))
    (f : α → Exec H β) : Starves ((x >>= f) c) := by
  obtain ⟨c', h | h⟩ := h
  · exact ⟨c', Or.inl (run_bind_of_error h)⟩
  · exact ⟨c', Or.inr (run_bind_of_error h)⟩

theorem Demands.bind {n : Nat} {x : Exec H α} (hx : Demands n x) (f : α → Exec H β) :
    Demands n (x >>= f) := by
  intro c h
  exact (hx c h).bind f

theorem demands_peek (offset : Nat) :
    Demands (offset + 1) (peek offset : Exec H Value) := by
  intro c h
  rw [peek_run]
  split
  · have hnone : c.proc.stack.get? offset = none := by
      apply List.getElem?_eq_none
      rw [← c.proc.stack.height_eq]
      omega
    rw [hnone]
    exact ⟨c, Or.inl rfl⟩
  · exact ⟨c, Or.inr rfl⟩

theorem demands_popMany_bind {n k : Nat} {f : List Value → Exec H β}
    (hf : ∀ vs, Demands n (f vs)) : Demands (n + k) (popMany k >>= f) := by
  intro c h
  by_cases hk : k ≤ c.proc.stack.height
  · have hrun : popMany k c = .ok (c.proc.stack.items.take k).reverse
        (c.withOperands (c.proc.stack.items.drop k)) := by
      rw [popMany_run, popMany?_of_le hk]
      rfl
    rw [run_bind_of_ok hrun]
    apply hf
    change (c.proc.stack.items.drop k).length < n
    rw [List.length_drop, ← c.proc.stack.height_eq]
    omega
  · have hnone : c.proc.stack.popMany? k = none := if_neg hk
    apply Starves.bind
    rw [popMany_run, hnone]
    exact ⟨c, Or.inl rfl⟩

theorem demands_pop_bind {n : Nat} {f : Value → Exec H β} (hf : ∀ v, Demands n (f v)) :
    Demands (n + 1) (pop >>= f) := by
  intro c h
  cases hpop : c.proc.stack.pop? with
  | none =>
      apply Starves.bind
      rw [pop_run, hpop]
      exact ⟨c, Or.inl rfl⟩
  | some popped =>
      obtain ⟨v, rest⟩ := popped
      have hpush : c.proc.stack = rest.push v := Stack.pop?_eq_some_iff.mp hpop
      rw [run_bind_of_ok (pop_run_of_push hpush)]
      apply hf
      rw [hpush] at h
      exact Nat.lt_of_succ_lt_succ h

theorem demands_swap (i : Instruction) :
    Demands (max i.num i.num2 + 1) (swap i : Exec H Unit) := by
  intro c h
  rw [swap_run]
  split
  · have hnone : c.proc.stack.swap? i.num i.num2 = none := by
      unfold Stack.swap? Stack.get?
      by_cases hfirst : i.num < c.proc.stack.items.length
      · have hsecond : c.proc.stack.items[i.num2]? = none := by
          apply List.getElem?_eq_none
          rw [← c.proc.stack.height_eq] at hfirst ⊢
          omega
        rw [hsecond]
        cases c.proc.stack.items[i.num]? <;> rfl
      · rw [List.getElem?_eq_none (Nat.le_of_not_lt hfirst)]
    rw [hnone]
    exact ⟨c, Or.inl rfl⟩
  · exact ⟨c, Or.inr rfl⟩

theorem demands_forState :
    Demands 3 (forState : Exec H (Float × Float × Float)) :=
  ((demands_peek 2).bind _).bind _

theorem demands_assigned (i : Instruction) :
    Demands (i.num + 1) (assigned i : Exec H Value) :=
  (demands_peek i.num).bind _

theorem demands_intendCall (i : Instruction) (methodCall : Bool) :
    Demands (i.num + 1) (intendCall i methodCall : Exec H Intent) := by
  rw [Nat.add_comm]
  exact demands_popMany_bind fun _ => demands_pop_bind fun _ => demands_zero _

theorem demands_intendReturn (i : Instruction) :
    Demands (if i.num = 1 then 1 else 0) (intendReturn i : Exec H Intent) := by
  unfold intendReturn
  split
  · exact demands_pop_bind fun _ => demands_zero _
  · exact demands_zero _

theorem demands_intendBinary
    (f : World H → Value → Value → Except RuntimeError Resolved) :
    Demands 2 (intendBinary f) := by
  have hpair : Demands 2 (popPair : Exec H (Value × Value)) :=
    demands_pop_bind fun _ => demands_pop_bind fun _ => demands_zero _
  exact hpair.bind _

/-- With fewer operands than it reaches an instruction fails. -/
theorem demands_intent [HostObjects H] (chunk : Chunk) (i : Instruction) :
    Demands i.reach (intent chunk i : Exec H Intent) := by
  have hpop {f : Value → Exec H Intent} : Demands 1 (pop >>= f) :=
    demands_pop_bind fun _ => demands_zero _
  have hpopIntend {x : Exec H Unit} {f : Value → Exec H Unit} (hx : x = pop >>= f) :
      Demands 1 (andIntend x) := by
    rw [hx]
    exact (demands_pop_bind fun _ => demands_zero _).bind _
  unfold intent Instruction.reach
  cases i.op with
  | pop =>
      have hpops : Demands (0 + i.num)
          (popMany i.num >>= fun _ => pure () : Exec H Unit) :=
        demands_popMany_bind fun _ => demands_zero _
      rw [Nat.zero_add] at hpops
      exact hpops.bind _
  | copy => exact ((demands_peek i.num).bind _).bind _
  | swap => exact (demands_swap i).bind _
  | makeTuple =>
      have hpops : Demands (0 + i.num)
          (popMany i.num >>= fun vs => push (.tupled vs) : Exec H Unit) :=
        demands_popMany_bind fun _ => demands_zero _
      rw [Nat.zero_add] at hpops
      exact hpops.bind _
  | toScalar => exact hpopIntend rfl
  | store => exact (demands_assigned i).bind _
  | call => exact demands_intendCall i false
  | methodCall => exact demands_intendCall i true
  | ret => exact demands_intendReturn i
  | initField =>
      have hfield : Demands 3 (initField : Exec H Unit) :=
        demands_pop_bind fun _ => demands_pop_bind fun _ =>
          ((demands_peek 0).bind _).bind _
      exact hfield.bind _
  | initItem =>
      have hitem : Demands 2 (initItem i : Exec H Unit) :=
        demands_pop_bind fun _ => ((demands_peek 0).bind _).bind _
      exact hitem.bind _
  | getIndex => exact demands_pop_bind fun _ => hpop
  | getField => exact hpop
  | getMulti =>
      have hmulti : Demands 2 (getMulti : Exec H Unit) :=
        demands_pop_bind fun _ => demands_pop_bind fun _ => demands_zero _
      exact hmulti.bind _
  | setIndex =>
      exact demands_pop_bind fun _ => demands_pop_bind fun _ =>
        (demands_assigned i).bind _
  | setField => exact demands_pop_bind fun _ => (demands_assigned i).bind _
  | setMulti =>
      have hmulti : Demands (i.num + 3) (setMulti i : Exec H Unit) :=
        demands_pop_bind fun _ => demands_pop_bind fun _ => (demands_assigned i).bind _
      exact hmulti.bind _
  | jumpIfFalse => exact hpopIntend rfl
  | jumpIfNil => exact hpopIntend rfl
  | jumpIfTrueOrPop => exact ((demands_peek 0).bind _).bind _
  | jumpIfFalseOrPop => exact ((demands_peek 0).bind _).bind _
  | forCheck => exact (demands_forState.bind _).bind _
  | forStep => exact (demands_forState.bind _).bind _
  | toNumber => exact hpopIntend rfl
  | toBoolean => exact hpopIntend rfl
  | iterPrepare => exact hpopIntend rfl
  | iterUpdate =>
      have hupdate : Demands 2 (iterUpdate : Exec H Unit) :=
        demands_pop_bind fun _ => demands_pop_bind fun _ => demands_zero _
      exact hupdate.bind _
  | neg => exact hpop
  | not => exact hpopIntend rfl
  | length => exact hpop
  | concat => exact demands_intendBinary _
  | add => exact demands_intendBinary _
  | sub => exact demands_intendBinary _
  | mul => exact demands_intendBinary _
  | div => exact demands_intendBinary _
  | mod => exact demands_intendBinary _
  | pow => exact demands_intendBinary _
  | equal => exact demands_intendBinary _
  | less => exact demands_intendBinary _
  | lessEqual => exact demands_intendBinary _
  | _ => exact demands_zero _

end Exec

end ScriptEngine
