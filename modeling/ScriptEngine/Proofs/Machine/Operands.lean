import ScriptEngine.Proofs.Machine.Results

/-!
# Operands out of reach

A simple program that does not underflow when it runs on the topmost operands
alone does the same with any operands below them, and leaves those as they are.
An instruction that runs on the operands of its own frame alone therefore never
touches those of the frames below.
-/

namespace ScriptEngine

def Stack.of {α : Type} (items : List α) : Stack α := ⟨items, items.length, rfl⟩

variable {H : HostTypes}

def Core.withOperands (c : Core H) (items : List Value) : Core H :=
  { c with proc := { c.proc with stack := .of items } }

namespace Exec

variable {α β : Type}

def Underflows (r : EStateM.Result RuntimeError (Core H) α) : Prop :=
  ∃ c, r = .error (.internal "value stack underflow") c

/-- The same result twice, the second time with more operands below. -/
inductive Framed (below : List Value) :
    EStateM.Result RuntimeError (Core H) α →
      EStateM.Result RuntimeError (Core H) α → Prop where
  | ok (a : α) (c : Core H) (items : List Value)
      (h : c.proc.stack.items = items ++ below) :
      Framed below (.ok a (c.withOperands items)) (.ok a c)
  | error (e : RuntimeError) (c : Core H) (items : List Value)
      (h : c.proc.stack.items = items ++ below) :
      Framed below (.error e (c.withOperands items)) (.error e c)

/-- A program for which operands below make no difference. -/
def Local (x : Exec H α) : Prop :=
  ∀ c items below, c.proc.stack.items = items ++ below →
    Underflows (x (c.withOperands items)) ∨
      Framed below (x (c.withOperands items)) (x c)

theorem Framed.suffix {below : List Value}
    {r r' : EStateM.Result RuntimeError (Core H) α} (h : Framed below r r') :
    below <:+ (resultCore r').proc.stack.items := by
  cases h with
  | ok a c items h => exact ⟨items, h.symm⟩
  | error e c items h => exact ⟨items, h.symm⟩

theorem local_pure (a : α) : Local (pure a : Exec H α) := by
  intro c items _ h
  exact Or.inr (.ok a c items h)

theorem local_throw (e : RuntimeError) : Local (throw e : Exec H α) := by
  intro c items _ h
  exact Or.inr (.error e c items h)

theorem local_bind {x : Exec H α} {f : α → Exec H β} (hx : Local x)
    (hf : ∀ a, Local (f a)) : Local (x >>= f) := by
  intro c items below h
  rcases hx c items below h with ⟨c', hunder⟩ | hframed
  · exact Or.inl ⟨c', run_bind_of_error hunder⟩
  · rw [run_bind, run_bind]
    generalize x (c.withOperands items) = r at hframed ⊢
    generalize x c = r' at hframed ⊢
    cases hframed with
    | ok a c' items' h' => exact hf a c' items' below h'
    | error e c' items' h' => exact Or.inr (.error e c' items' h')

/-! ## Operations on operands -/

theorem local_push (v : Value) : Local (push v : Exec H Unit) := by
  intro c items below h
  right
  have hafter : (c.proc.stack.push v).items = (v :: items) ++ below := by
    rw [Stack.items_push, h]
    rfl
  exact .ok () { c with proc := { c.proc with stack := c.proc.stack.push v } }
    (v :: items) hafter

theorem local_pushAll (vs : List Value) : Local (pushAll vs : Exec H Unit) := by
  intro c items below h
  right
  have hafter : (c.proc.stack.pushAll vs).items =
      (vs.reverse ++ items) ++ below := by
    rw [Stack.items_pushAll, h, List.append_assoc]
  have hitems : (Stack.of items).pushAll vs = .of (vs.reverse ++ items) :=
    Stack.ext (Stack.items_pushAll _ _)
  have hrun : pushAll vs (c.withOperands items) = .ok ()
      (c.withOperands (vs.reverse ++ items)) := by
    unfold Core.withOperands
    rw [← hitems]
    rfl
  rw [hrun]
  exact .ok () { c with proc := { c.proc with stack := c.proc.stack.pushAll vs } }
    _ hafter

theorem local_pop : Local (pop : Exec H Value) := by
  intro c items below h
  rw [pop_run, pop_run]
  cases items with
  | nil => exact Or.inl ⟨_, rfl⟩
  | cons v items =>
      right
      have hstack : c.proc.stack = (Stack.of (items ++ below)).push v :=
        Stack.ext h
      have halone : (c.withOperands (v :: items)).proc.stack =
          (Stack.of items).push v := Stack.ext rfl
      rw [halone, hstack, Stack.pop?_push, Stack.pop?_push]
      exact .ok v
        { c with proc := { c.proc with stack := .of (items ++ below) } } items rfl

theorem popMany?_of_le {s : Stack Value} {n : Nat} (h : n ≤ s.height) :
    s.popMany? n = some ((s.items.take n).reverse, .of (s.items.drop n)) := by
  unfold Stack.popMany?
  rw [if_pos h]
  exact congrArg some (Prod.ext rfl (Stack.ext rfl))

theorem local_popMany (n : Nat) : Local (popMany n : Exec H (List Value)) := by
  intro c items below h
  rw [popMany_run, popMany_run]
  by_cases hn : n ≤ items.length
  · right
    have hheight : n ≤ c.proc.stack.height := by
      rw [c.proc.stack.height_eq, h, List.length_append]
      omega
    have halone : (c.withOperands items).proc.stack.popMany? n =
        some ((items.take n).reverse, .of (items.drop n)) :=
      popMany?_of_le (s := .of items) hn
    have hwhole : c.proc.stack.popMany? n =
        some ((items.take n).reverse, .of (items.drop n ++ below)) := by
      rw [popMany?_of_le hheight, h, List.take_append_of_le_length hn,
        List.drop_append_of_le_length hn]
    rw [halone, hwhole]
    exact .ok _
      { c with proc := { c.proc with stack := .of (items.drop n ++ below) } }
      (items.drop n) rfl
  · left
    have halone : (c.withOperands items).proc.stack.popMany? n = none :=
      if_neg hn
    rw [halone]
    exact ⟨_, rfl⟩

theorem get?_append {c : Core H} {items below : List Value} {offset : Nat}
    {v : Value} (h : c.proc.stack.items = items ++ below)
    (hget : (c.withOperands items).proc.stack.get? offset = some v) :
    c.proc.stack.get? offset = some v := by
  have hlt : offset < items.length := (List.getElem?_eq_some_iff.mp hget).1
  unfold Stack.get?
  rw [h, List.getElem?_append_left hlt]
  exact hget

theorem local_peek (offset : Nat) : Local (peek offset : Exec H Value) := by
  intro c items below h
  rw [peek_run, peek_run]
  by_cases hword : offset + 1 < wordLimit
  · rw [if_pos hword, if_pos hword]
    cases hget : (c.withOperands items).proc.stack.get? offset with
    | none => exact Or.inl ⟨_, rfl⟩
    | some v =>
        rw [get?_append h hget]
        exact Or.inr (.ok v c items h)
  · rw [if_neg hword, if_neg hword]
    exact Or.inr (.error _ c items h)

theorem set_append {c : Core H} {items below : List Value} {offset : Nat}
    {w : Value} (v : Value) (h : c.proc.stack.items = items ++ below)
    (hget : (c.withOperands items).proc.stack.get? offset = some w) :
    (c.proc.stack.set offset v).items = items.set offset v ++ below := by
  have hlt : offset < items.length := (List.getElem?_eq_some_iff.mp hget).1
  rw [Stack.items_set, h, List.set_append_left offset v hlt]

theorem swap?_of_get? {s : Stack Value} {i j : Nat} {a b : Value}
    (hi : s.get? i = some a) (hj : s.get? j = some b) :
    s.swap? i j = some ((s.set i b).set j a) := by
  unfold Stack.swap?
  rw [hi, hj]

theorem local_swap (i : Instruction) : Local (swap i : Exec H Unit) := by
  intro c items below h
  rw [swap_run, swap_run]
  by_cases hword : i.num + 1 < wordLimit ∧ i.num2 + 1 < wordLimit
  · rw [if_pos hword, if_pos hword]
    cases hfirst : (c.withOperands items).proc.stack.get? i.num with
    | none =>
        have hnone : (c.withOperands items).proc.stack.swap? i.num i.num2 =
            none := by
          unfold Stack.swap?
          rw [hfirst]
        rw [hnone]
        exact Or.inl ⟨_, rfl⟩
    | some a =>
        cases hsecond : (c.withOperands items).proc.stack.get? i.num2 with
        | none =>
            have hnone : (c.withOperands items).proc.stack.swap? i.num i.num2 =
                none := by
              unfold Stack.swap?
              rw [hfirst, hsecond]
            rw [hnone]
            exact Or.inl ⟨_, rfl⟩
        | some b =>
            rw [swap?_of_get? hfirst hsecond,
              swap?_of_get? (get?_append h hfirst) (get?_append h hsecond)]
            right
            have hset := set_append b h hfirst
            have hafter : ((c.proc.stack.set i.num b).set i.num2 a).items =
                (items.set i.num b).set i.num2 a ++ below := by
              have hlt : i.num2 < (items.set i.num b).length := by
                rw [List.length_set]
                exact (List.getElem?_eq_some_iff.mp hsecond).1
              rw [Stack.items_set, hset, List.set_append_left i.num2 a hlt]
            have halone : ((c.withOperands items).proc.stack.set i.num b).set
                i.num2 a = .of ((items.set i.num b).set i.num2 a) :=
              Stack.ext rfl
            rw [halone]
            exact .ok () { c with
              proc := { c.proc with
                stack := (c.proc.stack.set i.num b).set i.num2 a } } _ hafter
  · rw [if_neg hword, if_neg hword]
    exact Or.inr (.error _ c items h)

theorem local_numberOperand (offset : Nat) :
    Local (numberOperand offset : Exec H Float) := by
  apply local_bind (local_peek offset)
  intro v
  cases v with
  | number n => exact local_pure n
  | _ => exact local_throw _

theorem local_forState : Local (forState : Exec H (Float × Float × Float)) := by
  apply local_bind (local_numberOperand 2)
  intro var
  apply local_bind (local_numberOperand 1)
  intro limit
  apply local_bind (local_numberOperand 0)
  intro step
  exact local_pure _

theorem Framed.of_ok {below : List Value} {a : α} {d : Core H}
    {r : EStateM.Result RuntimeError (Core H) α} (h : Framed below (.ok a d) r) :
    ∃ c items, r = .ok a c ∧ d = c.withOperands items ∧
      c.proc.stack.items = items ++ below := by
  generalize hleft : EStateM.Result.ok a d = left at h
  cases h with
  | ok a' c items h =>
      cases hleft
      exact ⟨c, items, rfl, rfl, h⟩
  | error e c items h => cases hleft

theorem Framed.of_error {below : List Value} {e : RuntimeError} {d : Core H}
    {r : EStateM.Result RuntimeError (Core H) α}
    (h : Framed below (.error e d) r) :
    ∃ c items, r = .error e c ∧ d = c.withOperands items ∧
      c.proc.stack.items = items ++ below := by
  generalize hleft : EStateM.Result.error e d = left at h
  cases h with
  | ok a c items h => cases hleft
  | error e' c items h =>
      cases hleft
      exact ⟨c, items, rfl, rfl, h⟩

theorem local_forStep : Local (forStep : Exec H Unit) := by
  intro c items below h
  unfold forStep
  rcases local_forState c items below h with ⟨c', hunder⟩ | hframed
  · exact Or.inl ⟨c', run_bind_of_error hunder⟩
  · right
    rcases forState_run (c.withOperands items) with
      ⟨var, limit, step, hvar, -, -, hrun⟩ | ⟨e, hrun⟩
    · rw [hrun] at hframed
      obtain ⟨d, items', hwhole, hsame, hd⟩ := hframed.of_ok
      rw [run_bind_of_ok hrun, run_bind_of_ok hwhole]
      rw [hsame] at hvar ⊢
      have halone : (d.withOperands items').proc.stack.set 2
          (.number (var + step)) = .of (items'.set 2 (.number (var + step))) :=
        Stack.ext rfl
      dsimp only
      rw [modifyProc_run, modifyProc_run, halone]
      exact .ok () { d with
        proc := { d.proc with stack := d.proc.stack.set 2 (.number (var + step)) } }
        _ (set_append _ hd hvar)
    · rw [hrun] at hframed
      obtain ⟨d, items', hwhole, hsame, hd⟩ := hframed.of_error
      rw [run_bind_of_error hrun, run_bind_of_error hwhole, hsame]
      exact .error e d items' hd

/-! ## Simple programs -/

theorem local_viewTop : Local (viewTop : Exec H FrameView) := by
  intro c items below h
  right
  cases htop : c.proc.frames.top? with
  | none =>
      rw [viewTop_run_none htop, viewTop_run_none (c := c.withOperands items) htop]
      exact .error _ c items h
  | some f =>
      rw [viewTop_run htop, viewTop_run (c := c.withOperands items) htop]
      exact .ok _ c items h

theorem local_updateTop (locals : Array CellRef) (pendingArgs : List Value) :
    Local (updateTop locals pendingArgs : Exec H Unit) := by
  intro c items below h
  right
  cases htop : c.proc.frames.top? with
  | none =>
      rw [updateTop_run_none htop,
        updateTop_run_none (c := c.withOperands items) htop]
      exact .ok _ c items h
  | some f =>
      rw [updateTop_run htop, updateTop_run (c := c.withOperands items) htop]
      exact .ok () { c with
        proc := { c.proc with
          frames := c.proc.frames.set 0 { f with locals, pendingArgs } } } items h

theorem local_fetch : Local (fetch : Exec H (Chunk × Instruction)) := by
  intro c items below h
  right
  have hchunk : (c.withOperands items).proc.chunk? = c.proc.chunk? := rfl
  have hip : (c.withOperands items).proc.ip = c.proc.ip := rfl
  rw [fetch_run, fetch_run, hchunk, hip]
  cases c.proc.chunk? with
  | none => exact .error _ c items h
  | some chunk =>
      dsimp only
      cases chunk.code[c.proc.ip]? with
      | none => exact .error _ c items h
      | some i =>
          exact .ok _ { c with proc := { c.proc with ip := c.proc.ip + 1 } }
            items h

theorem Simple.local {x : Exec H α} (hx : Simple x) : Local x := by
  induction hx with
  | pure a => exact local_pure a
  | throw e => exact local_throw e
  | bind hx hf ihx ihf => exact local_bind ihx ihf
  | ask hf => exact fun c items below h => Or.inr (.ok _ c items h)
  | @modifyWorld f hf =>
      exact fun c items below h =>
        Or.inr (.ok () { c with world := f c.world } items h)
  | @changeWorld α f hf =>
      exact fun c items below h =>
        Or.inr (.ok _ { c with world := (f c.world).2 } items h)
  | push v => exact local_push v
  | pushAll vs => exact local_pushAll vs
  | pop => exact local_pop
  | popMany n => exact local_popMany n
  | peek offset => exact local_peek offset
  | swap i => exact local_swap i
  | forStep => exact local_forStep
  | jumpTo ip =>
      exact fun c items below h =>
        Or.inr (.ok () { c with proc := { c.proc with ip } } items h)
  | viewTop => exact local_viewTop
  | updateTop locals pendingArgs => exact local_updateTop locals pendingArgs
  | fetch => exact local_fetch

end Exec

/-! ## Instructions -/

/-- Only the operands of the topmost frame. -/
def Core.alone (c : Core H) : Core H :=
  match c.proc.frames.top? with
  | some f => c.withOperands (c.proc.stack.above f.base)
  | none => c

/-- The instruction to come uses no operands but those of its own frame. -/
def Core.SelfContained [HostObjects H] (c : Core H) : Prop :=
  ¬Exec.Underflows (Exec.stepIntent c.alone)

/-- Operands below the topmost frame stay as they are. -/
theorem Core.SelfContained.suffix [HostObjects H] {c : Core H} {f : Frame}
    (h : c.SelfContained) (htop : c.proc.frames.top? = some f)
    {operands : List Value} (hoperands : operands <:+ c.proc.stack.items)
    (hbase : operands.length ≤ f.base) :
    operands <:+ (Exec.resultCore (Exec.stepIntent c)).proc.stack.items := by
  unfold Core.SelfContained Core.alone at h
  rw [htop] at h
  have hsplit : c.proc.stack.items = c.proc.stack.above f.base ++
      c.proc.stack.items.drop (c.proc.stack.height - f.base) :=
    (List.take_append_drop _ _).symm
  have hframed := (Exec.simple_stepIntent.local c _ _ hsplit).resolve_left h
  refine List.IsSuffix.trans ?_ hframed.suffix
  refine List.suffix_of_suffix_length_le hoperands (List.drop_suffix _ _) ?_
  have hlength := hoperands.length_le
  rw [← c.proc.stack.height_eq] at hlength
  rw [List.length_drop, ← c.proc.stack.height_eq]
  omega

/-- The instruction to come leaves the operands of the frames below its own
alone. -/
def Core.Sparing [HostObjects H] (c : Core H) : Prop :=
  ∀ f, c.proc.frames.top? = some f → ∀ operands, operands <:+ c.proc.stack.items →
    operands.length ≤ f.base →
      operands <:+ (Exec.resultCore (Exec.stepIntent c)).proc.stack.items

theorem Core.SelfContained.sparing [HostObjects H] {c : Core H} (h : c.SelfContained) :
    c.Sparing := by
  intro _ htop _ hoperands hbase
  exact h.suffix htop hoperands hbase

end ScriptEngine
