import ScriptEngine.Proofs.Machine.Results

/-!
# Where instructions go on, and which functions they make

An instruction goes on at the next one, unless it is a jump; that goes on there or
at its target.  The functions it makes are of its own chunk.  So in a sound chunk
every target is one of its instructions, and every function begins where one may.
-/

namespace ScriptEngine

variable {H : HostTypes}

/-! ## Sound chunks -/

namespace Chunk

variable {chunk : Chunk} {ip : Nat} {i : Instruction}

theorem faultOf?_of_isSound (h : chunk.IsSound) (hi : chunk.code[ip]? = some i) :
    chunk.faultOf? i = none := by
  have hlist : chunk.code.toList[ip]? = some i := by
    rw [Array.getElem?_toList]
    exact hi
  have hmem : (i, ip) ∈ chunk.code.toList.zipIdx :=
    List.mem_zipIdx_iff_getElem?.mpr hlist
  unfold IsSound faults at h
  split at h
  · cases h
  · have hnone := List.filterMap_eq_nil_iff.mp (List.append_eq_nil_iff.mp h).2 (i, ip) hmem
    exact Option.map_eq_none_iff.mp hnone

/-- Jumps stay inside. -/
theorem lt_size_of_isJump (h : chunk.IsSound) (hi : chunk.code[ip]? = some i)
    (hjump : i.op.isJump = true) : i.num < chunk.size := by
  have hfault := faultOf?_of_isSound h hi
  refine Nat.lt_of_not_le fun hsize => ?_
  unfold faultOf? at hfault
  cases hop : i.op <;> rw [hop] at hjump hfault <;> simp [Op.isJump, hsize] at hjump hfault

/-- Functions begin where one may. -/
theorem isEntry_of_closure (h : chunk.IsSound) (hi : chunk.code[ip]? = some i)
    (hclosure : i.op = .closure) : chunk.isEntry i.num = true := by
  have hfault := faultOf?_of_isSound h hi
  unfold faultOf? at hfault
  rw [hclosure] at hfault
  dsimp only at hfault
  split at hfault
  · cases hfault
  · split at hfault
    · cases hfault
    · split at hfault
      · assumption
      · cases hfault

theorem lt_size_of_isEntry (h : chunk.isEntry ip = true) : ip < chunk.size := by
  unfold isEntry at h
  split at h
  · next i hi => exact (Array.getElem?_eq_some_iff.mp hi).1
  · cases h

theorem isEntry_zero (h : chunk.IsSound) : chunk.isEntry 0 = true := by
  unfold IsSound faults at h
  split at h
  · cases h
  · have hnil := (List.append_eq_nil_iff.mp h).1
    split at hnil
    · assumption
    · cases hnil

end Chunk

/-- The function is one of a chunk that may run, and begins where one may. -/
structure Closure.IsSound (k : Closure) : Prop where
  chunk : k.chunk.IsSound
  entry : k.chunk.isEntry k.entry = true

theorem Closure.IsSound.entry_le {k : Closure} (h : k.IsSound) : k.entry ≤ k.chunk.size := by
  have hlt := Chunk.lt_size_of_isEntry h.entry
  exact Nat.le_of_lt hlt

namespace World

/-- The function is an object of the world. -/
def HasClosure (w : World H) (r : FunctionRef) (k : Closure) : Prop :=
  w.object? r.id = some (.closure k)

theorem HasClosure.closure_eq {w : World H} {r : FunctionRef} {k : Closure}
    (h : w.HasClosure r k) : w.closure r = k := by
  unfold closure
  rw [show w.object? r.id = _ from h]

/-- Functions of scripts stay what they are. -/
def KeepsClosures (w w' : World H) : Prop :=
  ∀ r k, w.HasClosure r k → w'.HasClosure r k

theorem KeepsClosures.of_eq {w w' : World H} (h : w' = w) : w.KeepsClosures w' := by
  rw [h]
  exact fun _ _ hk => hk

theorem Extends.keepsClosures {w w' : World H} (h : w.Extends w') : w.KeepsClosures w' := by
  intro r k hk
  obtain ⟨o, ho, hcontinues⟩ := h.old _ _ hk
  cases hcontinues
  exact ho

theorem keepsClosures_modifyCoroutine (w : World H) (r : CoroutineRef)
    (f : Coroutine → Coroutine) : w.KeepsClosures (w.modifyCoroutine r f) := by
  intro s k hk
  unfold HasClosure modifyCoroutine at *
  rw [object?_modifyObject, hk]
  split <;> rfl

/-- All functions of scripts are sound. -/
def IsSound (w : World H) : Prop :=
  ∀ r k, w.HasClosure r k → k.IsSound

/-- The new functions of scripts are sound. -/
def Admits (w w' : World H) : Prop :=
  ∀ r k, w'.HasClosure r k → w.HasClosure r k ∨ k.IsSound

theorem IsSound.of_admits {w w' : World H} (h : w.IsSound) (hw : w.Admits w') : w'.IsSound := by
  intro r k hk
  exact (hw r k hk).elim (h r k) id

theorem Admits.refl (w : World H) : w.Admits w := by
  intro _ _ h
  exact Or.inl h

theorem Admits.trans {u v w : World H} (h : u.Admits v) (h' : v.Admits w) : u.Admits w := by
  intro r k hk
  exact (h' r k hk).elim (h r k) Or.inr

theorem Admits.of_objects {w w' : World H} (h : w'.objects = w.objects) : w.Admits w' := by
  intro r k hk
  left
  unfold HasClosure object? at hk ⊢
  rw [h] at hk
  exact hk

theorem Admits.modifyObject (w : World H) (id : Nat) {f : Object H → Object H}
    (hf : ∀ o k, f o = .closure k → o = .closure k) : w.Admits (w.modifyObject id f) := by
  intro r k hk
  left
  unfold HasClosure at hk ⊢
  rw [object?_modifyObject] at hk
  split at hk
  · obtain ⟨o, ho, hsame⟩ := Option.map_eq_some_iff.mp hk
    rw [ho, hf o k hsame]
  · exact hk

theorem Admits.modifyTable (w : World H) (r : TableRef) (f : Table → Table) :
    w.Admits (w.modifyTable r f) := by
  refine .modifyObject w r.id fun o k h => ?_
  cases o with
  | table t => cases h
  | _ => exact h

theorem Admits.setUserObject (w : World H) (r : UserDataRef) (o : H.Object) :
    w.Admits (w.setUserObject r o) := by
  refine .modifyObject w r.id fun other k h => ?_
  cases other with
  | userData old => cases h
  | _ => exact h

theorem Admits.modifyCoroutine (w : World H) (r : CoroutineRef) (f : Coroutine → Coroutine) :
    w.Admits (w.modifyCoroutine r f) := by
  refine .modifyObject w r.id fun o k h => ?_
  cases o with
  | coroutine c => cases h
  | _ => exact h

theorem Admits.noteLength (w : World H) (v : Value) : w.Admits (w.noteLength v) := by
  unfold World.noteLength
  split
  · exact .modifyTable w _ _
  · exact .refl w

theorem Admits.assign (w : World H) (a : Assignment H) : w.Admits (w.assign a) := by
  cases a with
  | entry t key written value => exact .modifyTable w t _
  | object u o => exact .setUserObject w u o
  | call p => exact .refl w

theorem Admits.add (w : World H) {o : Object H} (ho : ∀ k, o = .closure k → k.IsSound) :
    w.Admits (w.add o) := by
  intro r k hk
  unfold HasClosure at hk ⊢
  by_cases hid : r.id = w.nextId
  · rw [hid, object?_add_nextId] at hk
    exact Or.inr (ho k (Option.some.inj hk))
  · rw [object?_add_of_ne w o hid] at hk
    exact Or.inl hk

theorem Admits.setCell (w : World H) (c : CellRef) (v : Value) : w.Admits (w.setCell c v) :=
  .of_objects rfl

end World

/-! ## Programs -/

/-- The processor goes on where it was going to, or at one of the targets, and new
functions are sound. -/
structure Core.Follows (target : Nat → Prop) (c c' : Core H) : Prop where
  ip : c'.proc.ip = c.proc.ip ∨ target c'.proc.ip
  world : c.world.Admits c'.world

namespace Core

variable {target : Nat → Prop} {a b c : Core H}

theorem Follows.refl (c : Core H) : c.Follows target c :=
  ⟨Or.inl rfl, .refl _⟩

theorem Follows.trans (h : a.Follows target b) (h' : b.Follows target c) :
    a.Follows target c := by
  refine ⟨?_, h.world.trans h'.world⟩
  rcases h'.ip with hsame | htarget
  · rw [hsame]
    exact h.ip
  · exact Or.inr htarget

theorem Follows.of_stack (c : Core H) (stack : Stack Value) :
    c.Follows target { c with proc := { c.proc with stack } } :=
  ⟨Or.inl rfl, .refl _⟩

end Core

namespace Exec

variable {α β : Type} {target : Nat → Prop}

def Steers (target : Nat → Prop) (x : Exec H α) : Prop :=
  ∀ c : Core H, c.Follows target (resultCore (x c))

theorem steers_pure (a : α) : Steers target (pure a : Exec H α) := by
  intro c
  exact .refl c

theorem steers_throw (e : RuntimeError) : Steers target (throw e : Exec H α) := by
  intro c
  exact .refl c

theorem steers_internal (reason : String) : Steers target (internal reason : Exec H α) :=
  steers_throw _

theorem Steers.bind {x : Exec H α} {f : α → Exec H β} (hx : Steers target x)
    (hf : ∀ a, Steers target (f a)) : Steers target (x >>= f) := by
  intro c
  have hfirst := hx c
  cases hrun : x c with
  | ok a c' =>
      rw [hrun] at hfirst
      rw [run_bind_of_ok hrun]
      exact hfirst.trans (hf a c')
  | error e c' =>
      rw [hrun] at hfirst
      rw [run_bind_of_error hrun]
      exact hfirst

theorem steers_ofResult (r : Except RuntimeError α) :
    Steers target (ofResult r : Exec H α) := by
  cases r with
  | ok a => exact steers_pure a
  | error e => exact steers_throw e

theorem steers_ask (f : World H → α) : Steers target (ask f) := by
  intro c
  exact .refl c

theorem steers_modifyWorld {f : World H → World H} (hf : ∀ w : World H, w.Admits (f w)) :
    Steers target (modifyWorld f) := by
  intro c
  exact ⟨Or.inl rfl, hf c.world⟩

theorem steers_changeWorld {f : World H → α × World H}
    (hf : ∀ w : World H, w.Admits (f w).2) : Steers target (changeWorld f) := by
  intro c
  exact ⟨Or.inl rfl, hf c.world⟩

theorem steers_jumpTo {ip : Nat} (h : target ip) :
    Steers target (jumpTo ip : Exec H Unit) := by
  intro _
  exact ⟨Or.inr h, .refl _⟩

theorem steers_setTopFrame (f : Frame) : Steers target (setTopFrame f : Exec H Unit) := by
  intro _
  exact ⟨Or.inl rfl, .refl _⟩

theorem steers_topFrame : Steers target (topFrame : Exec H Frame) := by
  intro c
  cases htop : c.proc.frames.top? with
  | none =>
      rw [topFrame_run_none htop]
      exact .refl c
  | some f =>
      rw [topFrame_run htop]
      exact .refl c

theorem steers_addOffsets (a b : Nat) : Steers target (addOffsets a b : Exec H Nat) := by
  unfold addOffsets
  split
  · exact steers_pure _
  · exact steers_throw _

/-! ### Operands -/

theorem steers_push (v : Value) : Steers target (push v : Exec H Unit) := by
  intro c
  exact .of_stack c _

theorem steers_pushAll (vs : List Value) : Steers target (pushAll vs : Exec H Unit) := by
  intro c
  exact .of_stack c _

theorem steers_pop : Steers target (pop : Exec H Value) := by
  intro c
  rw [pop_run]
  cases c.proc.stack.pop? with
  | none => exact .refl c
  | some p => exact .of_stack c p.2

theorem steers_popMany (n : Nat) : Steers target (popMany n : Exec H (List Value)) := by
  intro c
  rw [popMany_run]
  cases c.proc.stack.popMany? n with
  | none => exact .refl c
  | some p => exact .of_stack c p.2

theorem steers_peek (offset : Nat) : Steers target (peek offset : Exec H Value) := by
  intro c
  rw [peek_run]
  split
  · split <;> exact .refl c
  · exact .refl c

theorem steers_swap (i : Instruction) : Steers target (swap i : Exec H Unit) := by
  intro c
  rw [swap_run]
  split
  · split
    · exact .of_stack c _
    · exact .refl c
  · exact .refl c

theorem steers_forState : Steers target (forState : Exec H (Float × Float × Float)) := by
  intro c
  rcases forState_run c with ⟨var, limit, step, -, -, -, hrun⟩ | ⟨e, hrun⟩
  · rw [hrun]
    exact .refl c
  · rw [hrun]
    exact .refl c

theorem steers_forStep : Steers target (forStep : Exec H Unit) := by
  intro c
  rcases forStep_run c with ⟨var, limit, step, -, -, -, hrun⟩ | ⟨e, hrun⟩
  · rw [hrun]
    exact .of_stack c _
  · rw [hrun]
    exact .refl c

theorem steers_assigned (i : Instruction) : Steers target (assigned i : Exec H Value) := by
  refine (steers_peek _).bind fun _ => ?_
  exact steers_pure _

theorem steers_valueOperand (i : Instruction) :
    Steers target (valueOperand i : Exec H Value) := by
  unfold valueOperand
  split
  · exact steers_pure _
  · exact steers_internal _

theorem steers_symbolOperand (i : Instruction) :
    Steers target (symbolOperand i : Exec H Symbol) := by
  unfold symbolOperand
  split
  · exact steers_pure _
  · exact steers_internal _

theorem steers_tableOperand : Steers target (tableOperand : Exec H TableRef) := by
  apply (steers_peek 0).bind
  intro v
  cases v with
  | table t => exact steers_pure t
  | _ => exact steers_internal _

/-! ### Variables and functions -/

theorem steers_symbolCell (s : Symbol) : Steers target (symbolCell s : Exec H CellRef) := by
  apply steers_topFrame.bind
  intro frame
  cases s with
  | slot index name =>
      dsimp only
      split
      · exact steers_pure _
      · exact steers_internal _
  | captured index name =>
      dsimp only
      split
      · apply (steers_ask _).bind
        intro k
        split
        · exact steers_pure _
        · exact steers_internal _
      · exact steers_internal _
  | global name env => exact steers_internal _

theorem steers_readSymbol (s : Symbol) : Steers target (readSymbol s : Exec H Value) := by
  refine (steers_symbolCell s).bind fun _ => ?_
  exact steers_ask _

theorem steers_freshLocals (first n : Nat) (locals : Array CellRef) :
    Steers target (freshLocals first n locals : Exec H (Array CellRef)) := by
  induction n generalizing first locals with
  | zero => exact steers_pure _
  | succ n ih =>
      exact (steers_changeWorld fun w => .of_objects rfl).bind fun c => ih _ _

theorem steers_captureAll (symbols : List Symbol) :
    Steers target (captureAll symbols : Exec H (List CellRef)) := by
  induction symbols with
  | nil => exact steers_pure _
  | cons s rest ih =>
      exact (steers_symbolCell s).bind fun c => ih.bind fun cs => steers_pure _

theorem steers_bindParams (locals : Array CellRef) (args : List Value) (position : Nat)
    (params : List Symbol) :
    Steers target (bindParams locals args position params : Exec H Unit) := by
  induction params generalizing position with
  | nil => exact steers_pure _
  | cons param rest ih =>
      unfold bindParams
      cases param with
      | slot index name =>
          dsimp only
          split
          · exact (steers_modifyWorld fun w => .setCell w _ _).bind fun _ => ih _
          · exact steers_internal _
      | captured index name => exact steers_internal _
      | global name env => exact steers_internal _

theorem steers_clean (i : Instruction) : Steers target (clean i : Exec H Unit) := by
  refine steers_topFrame.bind fun _ => ?_
  refine (steers_addOffsets _ _).bind fun _ => ?_
  refine (steers_freshLocals _ _ _).bind fun _ => ?_
  exact steers_setTopFrame _

theorem steers_beginFunction (i : Instruction) :
    Steers target (beginFunction i : Exec H Unit) := by
  apply steers_topFrame.bind
  intro frame
  have hlocals : Steers target (do
      let locals ← changeWorld (·.newCells i.num)
      setTopFrame { frame with locals } : Exec H Unit) :=
    (steers_changeWorld fun w => .of_objects rfl).bind fun _ => steers_setTopFrame _
  dsimp only
  split
  · exact (steers_throw _).bind fun _ => hlocals
  · exact hlocals

theorem steers_bindArgs (i : Instruction) : Steers target (bindArgs i : Exec H Unit) := by
  refine steers_topFrame.bind fun _ => ?_
  refine (steers_setTopFrame _).bind fun _ => ?_
  exact steers_bindParams _ _ _ _

theorem steers_makeClosure {chunk : Chunk} {i : Instruction} (hsound : chunk.IsSound)
    (hentry : chunk.isEntry i.num = true) :
    Steers target (makeClosure chunk i : Exec H Unit) := by
  apply (steers_captureAll _).bind
  intro upvalues
  have hadd : Steers target (changeWorld (·.addClosure
      { chunk, entry := i.num, upvalues := upvalues.toArray
        upvalueNames := i.symbols.map Symbol.name, name? := i.name? }) :
      Exec H FunctionRef) := by
    refine steers_changeWorld fun w => .add w fun k hk => ?_
    cases hk
    exact ⟨hsound, hentry⟩
  exact hadd.bind fun f => steers_push _

/-! ### Tables -/

theorem steers_initField : Steers target (initField : Exec H Unit) := by
  apply steers_pop.bind
  intro value
  apply steers_pop.bind
  intro key
  apply steers_tableOperand.bind
  intro t
  split
  · exact steers_modifyWorld fun w => .modifyTable w _ _
  · exact steers_throw _

theorem steers_fillItems (t : TableRef) (i : Int) (values : List Value) :
    Steers target (fillItems t i values : Exec H Unit) := by
  induction values generalizing i with
  | nil => exact steers_pure _
  | cons v rest ih =>
      unfold fillItems
      split
      · exact (steers_modifyWorld fun w => .modifyTable w _ _).bind fun _ => ih _
      · exact steers_throw _

theorem steers_initItem (i : Instruction) : Steers target (initItem i : Exec H Unit) := by
  apply steers_pop.bind
  intro value
  apply steers_tableOperand.bind
  intro t
  split
  · exact steers_fillItems _ _ _
  · exact steers_fillItems _ _ _

/-! ### Loops and jumps -/

theorem steers_forCheck {i : Instruction} (h : target i.num) :
    Steers target (forCheck i : Exec H Unit) := by
  apply steers_forState.bind
  intro state
  dsimp only
  split
  · split
    · exact steers_jumpTo h
    · exact steers_pure _
  · split
    · exact steers_jumpTo h
    · exact steers_pure _

theorem steers_toNumber (i : Instruction) : Steers target (toNumber i : Exec H Unit) := by
  apply steers_pop.bind
  intro v
  split
  · exact steers_push _
  · exact steers_throw _

theorem steers_iterPrepare : Steers target (iterPrepare : Exec H Unit) := by
  refine steers_pop.bind fun _ => ?_
  exact steers_pushAll _

theorem steers_iterUpdate : Steers target (iterUpdate : Exec H Unit) := by
  refine steers_pop.bind fun _ => ?_
  refine steers_pop.bind fun _ => ?_
  exact steers_push _

theorem steers_jumpWhen {i : Instruction} (h : target i.num) (condition : Value → Bool) :
    Steers target (jumpWhen i condition : Exec H Unit) := by
  apply steers_pop.bind
  intro v
  split
  · exact steers_jumpTo h
  · exact steers_pure _

theorem steers_jumpOrPop {i : Instruction} (h : target i.num) (truth : Bool) :
    Steers target (jumpOrPop i truth : Exec H Unit) := by
  apply (steers_peek 0).bind
  intro v
  split
  · exact steers_jumpTo h
  · exact steers_pop.bind fun _ => steers_pure _

/-! ### Intents -/

theorem steers_andIntend {x : Exec H Unit} (hx : Steers target x) :
    Steers target (andIntend x) := by
  refine hx.bind fun _ => ?_
  exact steers_pure _

theorem steers_intendResolved (r : Resolved) :
    Steers target (intendResolved r : Exec H Intent) := by
  cases r with
  | value v => exact (steers_push v).bind fun _ => steers_pure _
  | call p => exact steers_pure _

theorem steers_intendCall (i : Instruction) (methodCall : Bool) :
    Steers target (intendCall i methodCall : Exec H Intent) := by
  refine (steers_popMany _).bind fun _ => ?_
  refine steers_pop.bind fun _ => ?_
  exact steers_pure _

theorem steers_intendReturn (i : Instruction) :
    Steers target (intendReturn i : Exec H Intent) := by
  unfold intendReturn
  split
  · exact steers_pop.bind fun _ => steers_pure _
  · exact steers_pure _

theorem steers_intendBinary (f : World H → Value → Value → Except RuntimeError Resolved) :
    Steers target (intendBinary f) := by
  have hpair : Steers target (popPair : Exec H (Value × Value)) :=
    steers_pop.bind fun _ => steers_pop.bind fun _ => steers_pure _
  apply hpair.bind
  intro operands
  exact (steers_ask _).bind fun r => (steers_ofResult r).bind steers_intendResolved

/-! ### Jumps that fail -/

/-- Where the processor is changes last, if it does. -/
def FailsInPlace (x : Exec H α) : Prop :=
  ∀ c e c', x c = .error e c' → c'.proc.ip = c.proc.ip

/-- What has no targets stays where it is. -/
theorem FailsInPlace.of_steers {x : Exec H α} (hx : Steers (fun _ => False) x) :
    FailsInPlace x := by
  intro c e c' hrun
  have hip := (hx c).ip.resolve_right id
  rw [hrun] at hip
  exact hip

theorem failsInPlace_jumpTo (ip : Nat) : FailsInPlace (jumpTo ip : Exec H Unit) := by
  intro c e c' hrun
  cases hrun

theorem FailsInPlace.bind {x : Exec H α} {f : α → Exec H β}
    (hx : Steers (fun _ => False) x) (hf : ∀ a, FailsInPlace (f a)) :
    FailsInPlace (x >>= f) := by
  intro c e c' hrun
  have hip := (hx c).ip.resolve_right id
  cases hfirst : x c with
  | ok a d =>
      rw [run_bind_of_ok hfirst] at hrun
      rw [hfirst] at hip
      exact (hf a d e c' hrun).trans hip
  | error e' d =>
      rw [run_bind_of_error hfirst] at hrun
      rw [hfirst] at hip
      cases hrun
      exact hip

theorem failsInPlace_andIntend {x : Exec H Unit} (hx : FailsInPlace x) :
    FailsInPlace (andIntend x) := by
  intro c e c' hrun
  cases hfirst : x c with
  | ok a d => cases (run_bind_of_ok hfirst).symm.trans hrun
  | error e' d =>
      cases (run_bind_of_error hfirst).symm.trans hrun
      exact hx c _ _ hfirst

theorem failsInPlace_jumpWhen (i : Instruction) (condition : Value → Bool) :
    FailsInPlace (jumpWhen i condition : Exec H Unit) := by
  refine .bind steers_pop fun v => ?_
  split
  · exact failsInPlace_jumpTo _
  · exact .of_steers (steers_pure _)

theorem failsInPlace_jumpOrPop (i : Instruction) (truth : Bool) :
    FailsInPlace (jumpOrPop i truth : Exec H Unit) := by
  refine .bind (steers_peek 0) fun v => ?_
  split
  · exact failsInPlace_jumpTo _
  · exact .of_steers (steers_pop.bind fun _ => steers_pure _)

theorem failsInPlace_forCheck (i : Instruction) :
    FailsInPlace (forCheck i : Exec H Unit) := by
  refine .bind steers_forState fun state => ?_
  have hjump {p : Prop} [Decidable p] :
      FailsInPlace (if p then jumpTo i.num else pure () : Exec H Unit) := by
    split
    · exact failsInPlace_jumpTo _
    · exact .of_steers (steers_pure _)
  dsimp only
  split <;> exact hjump

section

variable [HostObjects H]

theorem steers_intendIndex (object key : Value) :
    Steers target (intendIndex object key : Exec H Intent) := by
  refine (steers_ask _).bind fun r => ?_
  exact (steers_ofResult r).bind steers_intendResolved

theorem steers_intendLoad (s : Symbol) : Steers target (intendLoad s : Exec H Intent) := by
  have hvariable : Steers target (do
      push (← readSymbol s)
      pure .proceed : Exec H Intent) :=
    (steers_readSymbol s).bind fun v => (steers_push v).bind fun _ => steers_pure _
  cases s with
  | global name env =>
      exact (steers_readSymbol env).bind fun object => steers_intendIndex _ _
  | slot index name => exact hvariable
  | captured index name => exact hvariable

theorem steers_intendSetIndex (object key value : Value) :
    Steers target (intendSetIndex object key value : Exec H Intent) := by
  apply (steers_ask _).bind
  intro r
  apply (steers_ofResult r).bind
  intro a
  cases a with
  | call p => exact steers_pure _
  | entry t k written v =>
      exact (steers_modifyWorld fun w => .assign w _).bind fun _ => steers_pure _
  | object u o =>
      exact (steers_modifyWorld fun w => .assign w _).bind fun _ => steers_pure _

theorem steers_intendStore (s : Symbol) (value : Value) :
    Steers target (intendStore s value : Exec H Intent) := by
  have hvariable : Steers target (do
      let c ← symbolCell s
      modifyWorld (·.setCell c value)
      pure .proceed : Exec H Intent) :=
    (steers_symbolCell s).bind fun c =>
      (steers_modifyWorld fun w => .setCell w _ _).bind fun _ => steers_pure _
  cases s with
  | global name env =>
      exact (steers_readSymbol env).bind fun object => steers_intendSetIndex _ _ _
  | slot index name => exact hvariable
  | captured index name => exact hvariable

theorem steers_getMulti : Steers target (getMulti : Exec H Unit) := by
  apply steers_pop.bind
  intro keys
  apply steers_pop.bind
  intro object
  dsimp only
  split
  · exact (steers_ask _).bind fun r => (steers_ofResult r).bind fun v => steers_push v
  · exact steers_throw _

theorem steers_setMulti (i : Instruction) : Steers target (setMulti i : Exec H Unit) := by
  apply steers_pop.bind
  intro keys
  apply steers_pop.bind
  intro object
  apply (steers_assigned i).bind
  intro value
  split
  · exact (steers_ask _).bind fun r => (steers_ofResult r).bind fun o =>
      steers_modifyWorld fun w => .setUserObject w _ _
  · exact steers_throw _

/-- An instruction of a sound chunk goes on at its target only if it is a jump. -/
theorem steers_intent {chunk : Chunk} {ip : Nat} {i : Instruction} (hsound : chunk.IsSound)
    (hi : chunk.code[ip]? = some i) :
    Steers (fun address => i.op.isJump = true ∧ address = i.num)
      (intent chunk i : Exec H Intent) := by
  unfold intent
  cases hop : i.op with
  | nop => exact steers_pure _
  | pop => exact steers_andIntend ((steers_popMany _).bind fun _ => steers_pure _)
  | copy => exact steers_andIntend ((steers_peek _).bind steers_push)
  | swap => exact steers_andIntend (steers_swap i)
  | literal => exact steers_andIntend ((steers_valueOperand i).bind steers_push)
  | makeTuple => exact steers_andIntend ((steers_popMany _).bind fun _ => steers_push _)
  | toScalar => exact steers_andIntend (steers_pop.bind fun _ => steers_push _)
  | load => exact (steers_symbolOperand i).bind steers_intendLoad
  | store =>
      exact (steers_assigned i).bind fun v =>
        (steers_symbolOperand i).bind fun s => steers_intendStore s v
  | clean => exact steers_andIntend (steers_clean i)
  | closure =>
      exact steers_andIntend
        (steers_makeClosure hsound (Chunk.isEntry_of_closure hsound hi hop))
  | beginFunction => exact steers_andIntend (steers_beginFunction i)
  | bindArgs => exact steers_andIntend (steers_bindArgs i)
  | call => exact steers_intendCall i false
  | methodCall => exact steers_intendCall i true
  | ret => exact steers_intendReturn i
  | newTable =>
      exact steers_andIntend
        ((steers_changeWorld fun w => .add w fun _ h => by cases h).bind
          fun _ => steers_push _)
  | initField => exact steers_andIntend steers_initField
  | initItem => exact steers_andIntend (steers_initItem i)
  | getIndex =>
      exact steers_pop.bind fun _ => steers_pop.bind fun _ => steers_intendIndex _ _
  | getField =>
      exact steers_pop.bind fun _ =>
        (steers_valueOperand i).bind fun _ => steers_intendIndex _ _
  | getMulti => exact steers_andIntend steers_getMulti
  | setIndex =>
      exact steers_pop.bind fun _ => steers_pop.bind fun _ =>
        (steers_assigned i).bind fun _ => steers_intendSetIndex _ _ _
  | setField =>
      exact steers_pop.bind fun _ => (steers_assigned i).bind fun _ =>
        (steers_valueOperand i).bind fun _ => steers_intendSetIndex _ _ _
  | setMulti => exact steers_andIntend (steers_setMulti i)
  | jump => exact steers_andIntend (steers_jumpTo ⟨rfl, rfl⟩)
  | jumpIfFalse => exact steers_andIntend (steers_jumpWhen ⟨rfl, rfl⟩ _)
  | jumpIfNil => exact steers_andIntend (steers_jumpWhen ⟨rfl, rfl⟩ _)
  | jumpIfTrueOrPop => exact steers_andIntend (steers_jumpOrPop ⟨rfl, rfl⟩ true)
  | jumpIfFalseOrPop => exact steers_andIntend (steers_jumpOrPop ⟨rfl, rfl⟩ false)
  | forCheck => exact steers_andIntend (steers_forCheck ⟨rfl, rfl⟩)
  | forStep => exact steers_andIntend steers_forStep
  | toNumber => exact steers_andIntend (steers_toNumber i)
  | toBoolean => exact steers_andIntend (steers_pop.bind fun _ => steers_push _)
  | iterPrepare => exact steers_andIntend steers_iterPrepare
  | iterUpdate => exact steers_andIntend steers_iterUpdate
  | neg =>
      exact steers_pop.bind fun _ => (steers_ask _).bind fun r =>
        (steers_ofResult r).bind steers_intendResolved
  | not => exact steers_andIntend (steers_pop.bind fun _ => steers_push _)
  | length =>
      exact steers_pop.bind fun _ => (steers_modifyWorld fun w => .noteLength w _).bind
        fun _ => (steers_ask _).bind fun r => (steers_ofResult r).bind steers_intendResolved
  | invalid => exact steers_internal _
  | _ => exact steers_intendBinary _

/-- A jump intends nothing but to go on. -/
theorem eq_proceed_of_isJump {chunk : Chunk} {i : Instruction} (hjump : i.op.isJump = true)
    {c c' : Core H} {next : Intent} (hrun : intent chunk i c = .ok next c') :
    next = .proceed := by
  have hproceed {x : Exec H Unit} (h : andIntend x c = .ok next c') : next = .proceed := by
    unfold andIntend at h
    rw [run_bind] at h
    cases hx : x c with
    | ok a d =>
        rw [hx] at h
        cases h
        rfl
    | error e d =>
        rw [hx] at h
        cases h
  unfold intent at hrun
  cases hop : i.op <;> rw [hop] at hjump hrun <;> first | exact hproceed hrun | cases hjump

/-- What is fetched from a sound chunk goes on within the chunk, and with the next
instruction unless it only goes on. -/
theorem stepIntent_steers {c : Core H} {chunk : Chunk} (hchunk : c.proc.chunk? = some chunk)
    (hsound : chunk.IsSound) :
    c.world.Admits (resultCore (stepIntent c)).world ∧
      ∀ next c', stepIntent c = .ok next c' →
        c'.proc.ip ≤ chunk.size ∧ (next ≠ .proceed → c'.proc.ip = c.proc.ip + 1) := by
  have hfetch := fetch_run c
  rw [hchunk] at hfetch
  dsimp only at hfetch
  cases hi : chunk.code[c.proc.ip]? with
  | none =>
      rw [hi] at hfetch
      have hrun := run_bind_of_error (f := fun p => intent p.1 p.2) hfetch
      refine ⟨?_, fun next c' h => ?_⟩
      · change c.world.Admits (resultCore ((fetch >>= fun p => intent p.1 p.2) c)).world
        rw [hrun]
        exact .refl _
      · cases hrun.symm.trans h
  | some i =>
      rw [hi] at hfetch
      have hrun : stepIntent c =
          intent chunk i { c with proc := { c.proc with ip := c.proc.ip + 1 } } :=
        run_bind_of_ok hfetch
      have hfollows := steers_intent (H := H) hsound hi
        { c with proc := { c.proc with ip := c.proc.ip + 1 } }
      rw [← hrun] at hfollows
      have hsize : c.proc.ip < chunk.size := (Array.getElem?_eq_some_iff.mp hi).1
      refine ⟨hfollows.world, fun next c' h => ?_⟩
      have hjumped := h
      rw [hrun] at hjumped
      rw [h] at hfollows
      rcases hfollows.ip with hsame | ⟨hjump, htarget⟩
      · rw [show c'.proc.ip = c.proc.ip + 1 from hsame]
        exact ⟨hsize, fun _ => rfl⟩
      · refine ⟨?_, fun hne => absurd (eq_proceed_of_isJump hjump hjumped) hne⟩
        rw [show c'.proc.ip = i.num from htarget]
        exact Nat.le_of_lt (Chunk.lt_size_of_isJump hsound hi hjump)

/-- A jump that fails has not jumped. -/
theorem failsInPlace_of_isJump {chunk : Chunk} {i : Instruction} (hjump : i.op.isJump = true) :
    FailsInPlace (intent chunk i : Exec H Intent) := by
  unfold intent
  cases hop : i.op <;> rw [hop] at hjump
  case jump => exact failsInPlace_andIntend (failsInPlace_jumpTo _)
  case jumpIfFalse => exact failsInPlace_andIntend (failsInPlace_jumpWhen i _)
  case jumpIfNil => exact failsInPlace_andIntend (failsInPlace_jumpWhen i _)
  case jumpIfTrueOrPop => exact failsInPlace_andIntend (failsInPlace_jumpOrPop i true)
  case jumpIfFalseOrPop => exact failsInPlace_andIntend (failsInPlace_jumpOrPop i false)
  case forCheck => exact failsInPlace_andIntend (failsInPlace_forCheck i)
  all_goals cases hjump

/-- An instruction that does more than to go on leaves the processor right behind it. -/
theorem ip_of_stepIntent {c : Core H} {chunk : Chunk} {i : Instruction}
    (hchunk : c.proc.chunk? = some chunk)
    (hcode : chunk.code[c.proc.ip]? = some i) (hsound : chunk.IsSound)
    (hnext : ∀ c', stepIntent c ≠ .ok .proceed c') :
    (resultCore (stepIntent c)).proc.ip = c.proc.ip + 1 := by
  have hrun : stepIntent c =
      intent chunk i { c with proc := { c.proc with ip := c.proc.ip + 1 } } :=
    run_bind_of_ok (fetch_run_of_code hchunk hcode)
  rw [hrun] at hnext ⊢
  have hfollows := steers_intent (H := H) hsound hcode
    { c with proc := { c.proc with ip := c.proc.ip + 1 } }
  rcases hfollows.ip with hsame | ⟨hjump, -⟩
  · exact hsame
  · cases hintent : intent chunk i { c with proc := { c.proc with ip := c.proc.ip + 1 } } with
    | ok next c' =>
        obtain rfl := eq_proceed_of_isJump hjump hintent
        exact absurd hintent (hnext c')
    | error e c' => exact failsInPlace_of_isJump hjump _ e c' hintent

end

end Exec

end ScriptEngine
