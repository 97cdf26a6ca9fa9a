import ScriptEngine.Proofs.Frame.Temporaries
import ScriptEngine.Proofs.Frame.Soundness

/-!
# Operands out of the range of the machine

The operands of an instruction are any words, and some instructions reckon with them: they add
one to an offset, add two operands up, count on from one, or allocate as many locals as one
says.  What `Overreaches` lists are the cases in which such a result leaves the range of the
machine.  There, and nowhere else, an instruction ends in a fault of the machine instead of an
outcome or an error.
-/

namespace ScriptEngine

variable {H : HostTypes} {α β : Type}

namespace Instruction

/-- How many positions of a table an item of its constructor fills. -/
def positionsFor (i : Instruction) : Value → Nat
  | .tuple items => if i.num2 = 1 then items.length else 1
  | _ => 1

open Exec in
/-- An operand takes the instruction out of the range of the machine, in the way the fault says,
at the point where the instruction reckons with it. -/
def Overreaches (i : Instruction) (p : Processor) (f : MachineFault) : Prop :=
  match i.op with
  | .copy | .store => wordLimit ≤ i.num + 1 ∧ f = .offsetOverflow
  | .swap => (wordLimit ≤ i.num + 1 ∨ wordLimit ≤ i.num2 + 1) ∧ f = .offsetOverflow
  -- An assignment looks at the value after it has popped the object and the key.
  | .setIndex | .setMulti =>
    ∃ key object rest, p.stack = (Stack.push rest object).push key ∧
      wordLimit ≤ i.num + 1 ∧ f = .offsetOverflow
  | .setField =>
    ∃ object rest, p.stack = Stack.push rest object ∧
      wordLimit ≤ i.num + 1 ∧ f = .offsetOverflow
  | .clean =>
    ∃ frame, p.frames.top? = some frame ∧ wordLimit ≤ i.num + i.num2 ∧ f = .offsetOverflow
  | .beginFunction =>
    ∃ frame, p.frames.top? = some frame ∧ localLimit ≤ i.num ∧ f = .tooManyLocals
  -- Positions that an item fills are signed words.
  | .initItem =>
    ∃ v t rest, p.stack = (Stack.push rest (.table t)).push v ∧
      ∃ k, k < i.positionsFor v ∧ Int.pow 2 63 ≤ Table.signedWord i.num + k ∧
        f = .indexOverflow
  | _ => False

/-- Operands and tuples of a size that occurs never overreach. -/
theorem not_overreaches {i : Instruction} {p : Processor} {f : MachineFault}
    (hnum : i.num < Exec.localLimit) (hnum2 : i.num2 < Exec.localLimit)
    (hitems : ∀ v, p.stack.top? = some v → i.positionsFor v < Exec.localLimit) :
    ¬ i.Overreaches p f := by
  have hword : Exec.wordLimit = 16 * Exec.localLimit := by decide
  have hpow : Int.pow 2 63 = 8 * (Exec.localLimit : Int) := by decide
  have hlimit : 1 < Exec.localLimit := by decide
  intro hover
  unfold Overreaches at hover
  split at hover
  · omega
  · omega
  · omega
  · obtain ⟨key, object, rest, -, hover, -⟩ := hover
    omega
  · obtain ⟨key, object, rest, -, hover, -⟩ := hover
    omega
  · obtain ⟨object, rest, -, hover, -⟩ := hover
    omega
  · obtain ⟨frame, -, hover, -⟩ := hover
    omega
  · obtain ⟨frame, -, hover, -⟩ := hover
    omega
  · obtain ⟨v, t, rest, hstack, k, hk, hover, -⟩ := hover
    have hfew := hitems v (by simp [hstack, Stack.top?])
    have hsigned : Table.signedWord i.num = i.num := by
      rw [Table.signedWord, if_pos]
      · rfl
      · have hsmall : Exec.localLimit ≤ Nat.pow 2 63 := by decide
        omega
    omega
  · exact hover

end Instruction

/-- The operands and locals that the instruction uses without another look are there. -/
def Instruction.StaysInside (i : Instruction) (p : Processor) : Prop :=
  match i.op with
  | .swap => i.num < p.stack.height ∧ i.num2 < p.stack.height
  | .forStep => 2 < p.stack.height
  | .clean => ∀ frame, p.frames.top? = some frame →
      ∀ k, k < min (i.num + i.num2) frame.locals.size - i.num → i.num + k < frame.locals.size
  | _ => True

/-- The instruction to come. -/
def Processor.next? (p : Processor) : Option Instruction :=
  p.chunk?.bind fun chunk => chunk.code[p.ip]?

namespace Exec

/-- The program ends in the fault. -/
def FaultsWith (f : MachineFault) (x : Exec H α) (c : Core H) : Prop :=
  ∃ c', x c = .error (.fault f) c'

variable {f : MachineFault} {c : Core H}

theorem FaultsWith.bind {x : Exec H α} (h : FaultsWith f x c) (g : α → Exec H β) :
    FaultsWith f (x >>= g) c := by
  obtain ⟨c', hrun⟩ := h
  exact ⟨c', run_bind_of_error hrun⟩

theorem faultsWith_bind_of_ok {x : Exec H α} {g : α → Exec H β} {a : α} {c' : Core H}
    (h : x c = .ok a c') : FaultsWith f (x >>= g) c ↔ FaultsWith f (g a) c' := by
  simp only [FaultsWith, run_bind_of_ok h]

theorem Raises.not_faultsWith {x : Exec H α} (h : Raises (· ≠ .fault f) x) :
    ¬ FaultsWith f x c := by
  rintro ⟨c', hrun⟩
  exact h c _ c' hrun rfl

/-- The fault of a program is one of its first part when the second part has none. -/
theorem faultsWith_bind_iff {x : Exec H α} {g : α → Exec H β}
    (hg : ∀ a, Raises (· ≠ .fault f) (g a)) :
    FaultsWith f (x >>= g) c ↔ FaultsWith f x c := by
  constructor
  · rintro ⟨c', hrun⟩
    cases hx : x c with
    | ok a d =>
      rw [run_bind_of_ok hx] at hrun
      exact absurd ⟨c', hrun⟩ (hg a).not_faultsWith
    | error e d =>
      rw [run_bind_of_error hx] at hrun
      cases hrun
      exact ⟨_, hx⟩
  · exact fun h => h.bind g

theorem faultsWith_andIntend {x : Exec H Unit} :
    FaultsWith f (andIntend x) c ↔ FaultsWith f x c := by
  refine faultsWith_bind_iff fun _ => ?_
  exact raises_pure _

/-- After a pop the fault is one of what follows. -/
theorem faultsWith_pop_bind {g : Value → Exec H α} :
    FaultsWith f (pop >>= g) c ↔ ∃ v stack, c.proc.stack = Stack.push stack v ∧
      FaultsWith f (g v) { c with proc := { c.proc with stack } } := by
  constructor
  · intro h
    cases hpop : c.proc.stack.pop? with
    | none =>
      obtain ⟨c', hrun⟩ := h
      rw [run_bind, pop_run, hpop] at hrun
      cases hrun
    | some popped =>
      obtain ⟨v, stack⟩ := popped
      have hstack := Stack.pop?_eq_some_iff.1 hpop
      exact ⟨v, stack, hstack, (faultsWith_bind_of_ok (pop_run_of_push hstack)).1 h⟩
  · rintro ⟨v, stack, hstack, h⟩
    exact (faultsWith_bind_of_ok (pop_run_of_push hstack)).2 h

/-- With a frame on top the fault is one of what is done with it. -/
theorem faultsWith_topFrame_bind {g : Frame → Exec H α} :
    FaultsWith f (topFrame >>= g) c ↔
      ∃ frame, c.proc.frames.top? = some frame ∧ FaultsWith f (g frame) c := by
  cases htop : c.proc.frames.top? with
  | none =>
    simp only [FaultsWith, run_bind_of_error (topFrame_run_none htop)]
    simp
  | some frame => simp [faultsWith_bind_of_ok (topFrame_run htop)]

/-! ## Operations that reckon -/

theorem faultsWith_addOffsets {a b : Nat} :
    FaultsWith f (addOffsets a b : Exec H Nat) c ↔ wordLimit ≤ a + b ∧ f = .offsetOverflow := by
  simp only [FaultsWith, addOffsets_run]
  split
  · next h => simp [Nat.not_le.2 h]
  · next h => simp [Nat.le_of_not_lt h, eq_comm]

theorem faultsWith_peek (offset : Nat) :
    FaultsWith f (peek offset : Exec H Value) c ↔
      wordLimit ≤ offset + 1 ∧ f = .offsetOverflow := by
  simp only [FaultsWith, peek_run]
  split
  · next h => cases c.proc.stack.get? offset <;> simp [Nat.not_le.2 h]
  · next h => simp [Nat.le_of_not_lt h, eq_comm]

theorem faultsWith_assigned {i : Instruction} :
    FaultsWith f (assigned i : Exec H Value) c ↔
      wordLimit ≤ i.num + 1 ∧ f = .offsetOverflow := by
  rw [← faultsWith_peek i.num (c := c)]
  exact faultsWith_bind_iff fun _ => raises_pure _

theorem faultsWith_swap {i : Instruction} :
    FaultsWith f (swap i : Exec H Unit) c ↔
      (wordLimit ≤ i.num + 1 ∨ wordLimit ≤ i.num2 + 1) ∧ f = .offsetOverflow := by
  simp only [FaultsWith, swap_run]
  split
  · next h =>
    cases c.proc.stack.swap? i.num i.num2 <;> simp [Nat.not_le.2 h.1, Nat.not_le.2 h.2]
  · next h =>
    have hover : wordLimit ≤ i.num + 1 ∨ wordLimit ≤ i.num2 + 1 := by omega
    simp [hover, eq_comm]

theorem faultsWith_clean {i : Instruction} :
    FaultsWith f (clean i : Exec H Unit) c ↔
      ∃ frame, c.proc.frames.top? = some frame ∧ wordLimit ≤ i.num + i.num2 ∧
        f = .offsetOverflow := by
  rw [clean, faultsWith_topFrame_bind]
  refine exists_congr fun frame => and_congr_right fun _ => ?_
  rw [← faultsWith_addOffsets (c := c)]
  exact faultsWith_bind_iff fun last =>
    raises_bind (raises_freshLocals _ _ _) fun _ => raises_modifyProc _

theorem faultsWith_beginFunction {i : Instruction} :
    FaultsWith f (beginFunction i : Exec H Unit) c ↔
      ∃ frame, c.proc.frames.top? = some frame ∧ localLimit ≤ i.num ∧ f = .tooManyLocals := by
  rw [beginFunction, faultsWith_topFrame_bind]
  refine exists_congr fun frame => and_congr_right fun _ => ?_
  by_cases hover : localLimit ≤ i.num
  · have hrun : ∀ g : Unit → Exec H Unit,
        ((throw (.fault .tooManyLocals) : Exec H Unit) >>= g) c =
          .error (.fault .tooManyLocals) c := fun g => run_bind_of_error rfl
    simp [FaultsWith, hrun, hover, eq_comm]
  · simp only [hover, false_and, iff_false]
    exact Raises.not_faultsWith
      (raises_bind (raises_changeWorld _) fun _ => raises_modifyProc _)

theorem faultsWith_fillItems {t : TableRef} {first : Int} {values : List Value} :
    FaultsWith f (fillItems t first values : Exec H Unit) c ↔
      ∃ k, k < values.length ∧ Int.pow 2 63 ≤ first + k ∧ f = .indexOverflow := by
  induction values generalizing first c with
  | nil =>
    have hnone : ¬ FaultsWith f (fillItems t first [] : Exec H Unit) c :=
      Raises.not_faultsWith (raises_pure ())
    simpa using hnone
  | cons v rest ih =>
    rw [fillItems]
    by_cases hfirst : first < Int.pow 2 63
    · rw [if_pos hfirst]
      refine (faultsWith_bind_of_ok (x := modifyWorld _) rfl).trans (ih.trans ?_)
      constructor
      · rintro ⟨k, hk, hover, rfl⟩
        exact ⟨k + 1, by simpa using hk, by push_cast; omega, rfl⟩
      · rintro ⟨_ | k, hk, hover, rfl⟩
        · simp only [Int.ofNat_zero, Int.add_zero] at hover
          omega
        · exact ⟨k, by simpa using hk, by push_cast at hover; omega, rfl⟩
    · rw [if_neg hfirst]
      constructor
      · rintro ⟨c', hrun⟩
        cases hrun
        exact ⟨0, by simp, by simpa using Int.not_lt.1 hfirst, rfl⟩
      · rintro ⟨k, -, -, rfl⟩
        exact ⟨c, rfl⟩

/-- After a look at the top the fault is one of what follows. -/
theorem faultsWith_peekTop_bind {g : Value → Exec H α} :
    FaultsWith f (peek 0 >>= g) c ↔
      ∃ v rest, c.proc.stack = Stack.push rest v ∧ FaultsWith f (g v) c := by
  have hpeek := peek_run 0 c
  rw [if_pos (by decide)] at hpeek
  cases hpop : c.proc.stack.pop? with
  | none =>
    have hitems := Stack.pop?_eq_none_iff.1 hpop
    have hget : c.proc.stack.get? 0 = none := by simp [Stack.get?, hitems]
    rw [hget] at hpeek
    constructor
    · rintro ⟨c', hrun⟩
      rw [run_bind_of_error hpeek] at hrun
      cases hrun
    · rintro ⟨v, rest, hstack, -⟩
      simp [hstack] at hitems
  | some popped =>
    obtain ⟨v, rest⟩ := popped
    have hstack := Stack.pop?_eq_some_iff.1 hpop
    have hget : c.proc.stack.get? 0 = some v := by simp [Stack.get?, hstack]
    rw [hget] at hpeek
    rw [faultsWith_bind_of_ok hpeek]
    constructor
    · exact fun h => ⟨v, rest, hstack, h⟩
    · rintro ⟨v', rest', hstack', h⟩
      have hsame : v' = v := by simpa [hstack', Stack.get?] using hget
      exact hsame ▸ h

/-- With a table on top the fault is one of what is done with it. -/
theorem faultsWith_tableOperand_bind {g : TableRef → Exec H α} :
    FaultsWith f (tableOperand >>= g) c ↔
      ∃ t rest, c.proc.stack = Stack.push rest (.table t) ∧ FaultsWith f (g t) c := by
  rw [tableOperand, bind_assoc, faultsWith_peekTop_bind]
  constructor
  · rintro ⟨v, rest, hstack, h⟩
    cases v with
    | table t => exact ⟨t, rest, hstack, h⟩
    | _ =>
      obtain ⟨c', hrun⟩ := h
      cases hrun
  · rintro ⟨t, rest, hstack, h⟩
    exact ⟨.table t, rest, hstack, h⟩

/-- What an item of a table constructor comes to once the table is found. -/
theorem faultsWith_initItem {i : Instruction} :
    FaultsWith f (initItem i : Exec H Unit) c ↔
      ∃ v t rest, c.proc.stack = (Stack.push rest (.table t)).push v ∧
        ∃ k, k < i.positionsFor v ∧ Int.pow 2 63 ≤ Table.signedWord i.num + k ∧
          f = .indexOverflow := by
  have hfill : ∀ (v : Value) (t : TableRef) (d : Core H),
      FaultsWith f (match v with
        | .tuple items => fillItems t (Table.signedWord i.num)
            (if i.num2 = 1 then items else [v.toStorable])
        | _ => fillItems t (Table.signedWord i.num) [v.toStorable] : Exec H Unit) d ↔
      ∃ k, k < i.positionsFor v ∧ Int.pow 2 63 ≤ Table.signedWord i.num + k ∧
        f = .indexOverflow := by
    intro v t d
    cases v with
    | tuple items =>
      by_cases hspread : i.num2 = 1
      · simp [faultsWith_fillItems, Instruction.positionsFor, hspread]
      · simp [faultsWith_fillItems, Instruction.positionsFor, hspread]
    | _ => simp [faultsWith_fillItems, Instruction.positionsFor]
  rw [initItem, faultsWith_pop_bind]
  constructor
  · rintro ⟨v, stack, hstack, h⟩
    obtain ⟨t, rest, htable, h⟩ := faultsWith_tableOperand_bind.1 h
    obtain rfl : stack = rest.push (.table t) := htable
    exact ⟨v, t, rest, hstack, (hfill v t _).1 h⟩
  · rintro ⟨v, t, rest, hstack, h⟩
    exact ⟨v, _, hstack, faultsWith_tableOperand_bind.2 ⟨t, rest, rfl, (hfill v t _).2 h⟩⟩

/-! ## Instructions -/

section

variable [HostObjects H]

theorem withstands_faultless (hhost : ¬ HostAnswers H (.fault f)) :
    Withstands H (· ≠ .fault f) where
  script _ := nofun
  mishap _ := nofun
  index s o key := by
    rintro e h rfl
    exact hhost (Or.inl ⟨s, o, key, h⟩)
  setIndex s o key v := by
    rintro e h rfl
    exact hhost (Or.inr ⟨s, o, key, v, h⟩)

theorem faultsWith_store (hhost : ¬ HostAnswers H (.fault f)) {i : Instruction} :
    FaultsWith f (do
        let v ← assigned i
        intendStore (← symbolOperand i) v : Exec H Intent) c ↔
      wordLimit ≤ i.num + 1 ∧ f = .offsetOverflow := by
  rw [← faultsWith_assigned (c := c) (i := i)]
  refine faultsWith_bind_iff fun v => raises_withSymbol (fun _ => nofun) fun s _ => ?_
  exact raises_intendStore (withstands_faultless hhost) v fun _ _ _ _ => nofun

omit [HostObjects H] in
/-- An assignment that has popped the object and the key. -/
theorem faultsWith_assigning {i : Instruction} {g : Value → Value → Value → Exec H α}
    (hg : ∀ key object v, Raises (· ≠ .fault f) (g key object v)) :
    FaultsWith f (do
        let key ← pop
        let object ← pop
        g key object (← assigned i)) c ↔
      ∃ key object rest, c.proc.stack = (Stack.push rest object).push key ∧
        wordLimit ≤ i.num + 1 ∧ f = .offsetOverflow := by
  rw [faultsWith_pop_bind]
  constructor
  · rintro ⟨key, stack, hstack, h⟩
    obtain ⟨object, rest, hrest, h⟩ := faultsWith_pop_bind.1 h
    obtain rfl : stack = rest.push object := hrest
    exact ⟨key, object, rest, hstack, faultsWith_assigned.1 ((faultsWith_bind_iff (hg _ _)).1 h)⟩
  · rintro ⟨key, object, rest, hstack, h⟩
    exact ⟨key, _, hstack, faultsWith_pop_bind.2
      ⟨object, rest, rfl, (faultsWith_assigned.2 h).bind _⟩⟩

theorem faultsWith_setIndex (hhost : ¬ HostAnswers H (.fault f)) {i : Instruction} :
    FaultsWith f (do
        let key ← pop
        let object ← pop
        intendSetIndex object key.toScalar (← assigned i) : Exec H Intent) c ↔
      ∃ key object rest, c.proc.stack = (Stack.push rest object).push key ∧
        wordLimit ≤ i.num + 1 ∧ f = .offsetOverflow := by
  refine faultsWith_assigning fun _ _ _ => ?_
  exact raises_intendSetIndex (withstands_faultless hhost) _ _ _

theorem faultsWith_setMulti (hhost : ¬ HostAnswers H (.fault f)) {i : Instruction} :
    FaultsWith f (setMulti i : Exec H Unit) c ↔
      ∃ key object rest, c.proc.stack = (Stack.push rest object).push key ∧
        wordLimit ≤ i.num + 1 ∧ f = .offsetOverflow := by
  refine faultsWith_assigning fun keys object value => ?_
  have hE := withstands_faultless hhost
  split
  · exact raises_consult (fun w => hE.userAssign w _ keys value) fun _ => raises_modifyWorld _
  · exact raises_throw nofun

theorem faultsWith_setField (hhost : ¬ HostAnswers H (.fault f)) {i : Instruction} :
    FaultsWith f (do
        let object ← pop
        let v ← assigned i
        intendSetIndex object (← valueOperand i) v : Exec H Intent) c ↔
      ∃ object rest, c.proc.stack = Stack.push rest object ∧
        wordLimit ≤ i.num + 1 ∧ f = .offsetOverflow := by
  rw [faultsWith_pop_bind]
  refine exists_congr fun object => exists_congr fun rest => and_congr_right fun _ => ?_
  rw [← faultsWith_assigned]
  refine faultsWith_bind_iff fun v => ?_
  exact raises_bind (raises_valueOperand fun _ => nofun) fun key =>
    raises_intendSetIndex (withstands_faultless hhost) _ _ _

/-- The first part of an instruction ends in a fault exactly where the instruction
overreaches. -/
theorem faultsWith_intent (hhost : ¬ HostAnswers H (.fault f)) (chunk : Chunk)
    (i : Instruction) :
    FaultsWith f (intent chunk i : Exec H Intent) c ↔ i.Overreaches c.proc f := by
  by_cases hreckons : i.op.reckons = true
  · unfold intent Instruction.Overreaches
    cases hop : i.op with
    | copy =>
      refine faultsWith_andIntend.trans ?_
      refine (faultsWith_bind_iff fun _ => ?_).trans (faultsWith_peek _)
      exact raises_modifyProc _
    | swap => exact faultsWith_andIntend.trans faultsWith_swap
    | store => exact faultsWith_store hhost
    | clean => exact faultsWith_andIntend.trans faultsWith_clean
    | beginFunction => exact faultsWith_andIntend.trans faultsWith_beginFunction
    | initItem => exact faultsWith_andIntend.trans faultsWith_initItem
    | setIndex => exact faultsWith_setIndex hhost
    | setField => exact faultsWith_setField hhost
    | setMulti => exact faultsWith_andIntend.trans (faultsWith_setMulti hhost)
    | _ => simp [hop, Op.reckons] at hreckons
  · have hraises : Raises (· ≠ .fault f) (intent chunk i : Exec H Intent) :=
      raises_intent (withstands_faultless hhost) chunk (fun _ _ h => by cases h)
        fun h => absurd h hreckons
    refine iff_of_false hraises.not_faultsWith fun hover => ?_
    unfold Instruction.Overreaches at hover
    cases hop : i.op <;> simp_all [Op.reckons]

theorem faultsWith_stepIntent (hhost : ¬ HostAnswers H (.fault f)) :
    FaultsWith f (stepIntent : Exec H Intent) c ↔
      ∃ i, c.proc.next? = some i ∧ i.Overreaches c.proc f := by
  have hfetch := fetch_run c
  cases hchunk : c.proc.chunk? with
  | none =>
    rw [hchunk] at hfetch
    simp [FaultsWith, stepIntent, run_bind_of_error hfetch, Processor.next?, hchunk]
  | some chunk =>
    rw [hchunk] at hfetch
    cases hcode : chunk.code[c.proc.ip]? with
    | none =>
      simp only [hcode] at hfetch
      simp [FaultsWith, stepIntent, run_bind_of_error hfetch, Processor.next?, hchunk, hcode]
    | some i =>
      simp only [hcode] at hfetch
      rw [stepIntent, faultsWith_bind_of_ok hfetch]
      have hnext : c.proc.next? = some i := by simp [Processor.next?, hchunk, hcode]
      simp only [hnext, Option.some.injEq, exists_eq_left']
      -- Moving on to the next instruction leaves the operands and the frames.
      exact faultsWith_intent hhost chunk i

/-- What an instruction does to the frames, once it has its operands, has no fault of its own. -/
theorem faultsWith_step (hhost : ¬ HostAnswers H (.fault f)) :
    FaultsWith f (step : Exec H Outcome) c ↔
      ∃ i, c.proc.next? = some i ∧ i.Overreaches c.proc f := by
  rw [step_eq, ← faultsWith_stepIntent hhost]
  exact faultsWith_bind_iff fun next => raises_carryOut (withstands_faultless hhost) next

omit [HostObjects H] in
theorem exists_ok_of_bind {x : Exec H α} {g : α → Exec H β} {b : β} {c' : Core H}
    (h : (x >>= g) c = .ok b c') : ∃ a d, x c = .ok a d ∧ g a d = .ok b c' := by
  rw [run_bind] at h
  cases hx : x c with
  | ok a d =>
    rw [hx] at h
    exact ⟨a, d, rfl, h⟩
  | error e d =>
    rw [hx] at h
    cases h

omit [HostObjects H] in
theorem swap_inside {i : Instruction} {u : Unit} {c' : Core H} (h : swap i c = .ok u c') :
    i.num < c.proc.stack.height ∧ i.num2 < c.proc.stack.height := by
  rw [swap_run] at h
  split at h
  · cases hfirst : c.proc.stack.get? i.num with
    | none => simp [Stack.swap?, hfirst] at h
    | some a =>
      cases hsecond : c.proc.stack.get? i.num2 with
      | none => simp [Stack.swap?, hfirst, hsecond] at h
      | some b =>
        rw [c.proc.stack.height_eq]
        exact ⟨(List.getElem?_eq_some_iff.1 hfirst).1, (List.getElem?_eq_some_iff.1 hsecond).1⟩
  · cases h

omit [HostObjects H] in
theorem forStep_inside {u : Unit} {c' : Core H} (h : forStep c = .ok u c') :
    2 < c.proc.stack.height := by
  rcases forStep_run c with ⟨var, limit, step, hvar, -⟩ | ⟨e, hrun⟩
  · rw [c.proc.stack.height_eq]
    exact (List.getElem?_eq_some_iff.1 hvar).1
  · rw [hrun] at h
    cases h

/-- An instruction that succeeds has kept to the operands and locals there are. -/
theorem intent_inside (chunk : Chunk) (i : Instruction) {next : Intent} {c' : Core H}
    (h : intent chunk i c = .ok next c') : i.StaysInside c.proc := by
  unfold Instruction.StaysInside
  cases hop : i.op with
  | swap =>
    simp only [intent, hop, andIntend] at h
    obtain ⟨u, d, hswap, -⟩ := exists_ok_of_bind h
    exact swap_inside hswap
  | forStep =>
    simp only [intent, hop, andIntend] at h
    obtain ⟨u, d, hstep, -⟩ := exists_ok_of_bind h
    exact forStep_inside hstep
  | clean =>
    intro frame hframe k hk
    omega
  | _ => trivial

theorem step_inside {outcome : Outcome} {c' : Core H} (h : step c = .ok outcome c') :
    ∃ i, c.proc.next? = some i ∧ i.StaysInside c.proc := by
  rw [step_eq] at h
  obtain ⟨next, d, hintent, -⟩ := exists_ok_of_bind h
  obtain ⟨⟨chunk, i⟩, d, hfetch, hintent⟩ := exists_ok_of_bind hintent
  rw [fetch_run] at hfetch
  cases hchunk : c.proc.chunk? with
  | none => simp [hchunk] at hfetch
  | some code =>
    cases hcode : code.code[c.proc.ip]? with
    | none => simp [hchunk, hcode] at hfetch
    | some fetched =>
      simp only [hchunk, hcode, EStateM.Result.ok.injEq, Prod.mk.injEq] at hfetch
      obtain ⟨⟨rfl, rfl⟩, rfl⟩ := hfetch
      refine ⟨fetched, by simp [Processor.next?, hchunk, hcode], ?_⟩
      have hinside := intent_inside code fetched hintent
      exact hinside

/-- On a host whose objects answer with values and errors, an instruction in any state of the
processor has an outcome or an error, unless one of its operands overreaches; then, and only
then, it ends in the fault of the machine that the operand stands for.  One that has an outcome
has kept to the operands and locals there are. -/
theorem step_faults_overreaching (hhost : ∀ f, ¬ HostAnswers H (.fault f)) (c : Core H) :
    (∀ f, (∃ c', step c = .error (.fault f) c') ↔
      ∃ i, c.proc.next? = some i ∧ i.Overreaches c.proc f) ∧
    ∀ outcome c', step c = .ok outcome c' →
      ∃ i, c.proc.next? = some i ∧ i.StaysInside c.proc := by
  constructor
  · intro f
    exact faultsWith_step (hhost f)
  · intro _ _ h
    exact step_inside h

end

end Exec

/-! ## The workbench -/

/-- Exchanging the top with the value at the last of all offsets. -/
def overreaching : Chunk where
  name := "overreaching"
  code :=
    #[{ op := .beginFunction },
      { op := .literal, value? := some (.number 7) },
      { op := .swap, num := 18446744073709551615 },
      { op := .ret, num := 1 }]

/-- The host calls the function. -/
def overreachingBy : Machine Workbench.types :=
  .start (.start { modules := ⟨false, false, false⟩ } {})
    (.write (fun w => (w.addClosure
        { chunk := overreaching, entry := 0, upvalues := #[], upvalueNames := [],
          name? := none }).2)
      (.call (.function ⟨3⟩) [] fun r => (Action.ofResult r).bind Library.one))

theorem not_hostAnswers_workbench (f : MachineFault) :
    ¬ HostAnswers Workbench.types (.fault f) := by
  have hassigned (v : Value) : Workbench.Object.assignedNumber v ≠ .error (.fault f) := by
    unfold Workbench.Object.assignedNumber
    split <;> nofun
  rintro (⟨s, o, key, h⟩ | ⟨s, o, key, v, h⟩)
  · change Workbench.Object.index o key = _ at h
    unfold Workbench.Object.index at h
    split at h <;> cases h
  · change Workbench.Object.setIndex o key v = _ at h
    unfold Workbench.Object.setIndex at h
    split at h
    · cases h
    · cases hn : Workbench.Object.assignedNumber v with
      | error e =>
        rw [hn] at h
        cases h
        exact hassigned v hn
      | ok n =>
        rw [hn] at h
        simp only [bind, Except.bind] at h
        split at h <;> cases h

open Exec in
/-- The workbench, where the top is to be exchanged with the value at the last of all offsets. -/
theorem Exec.step_faults_swapping :
    (∀ f, ¬ HostAnswers Workbench.types (.fault f)) ∧
      ∃ c', step (overreachingBy.after 5).core = .error (.fault .offsetOverflow) c' := by
  refine ⟨not_hostAnswers_workbench, ?_⟩
  refine ((step_faults_overreaching not_hostAnswers_workbench _).1 _).2
    ⟨{ op := .swap, num := 18446744073709551615 }, rfl, ?_⟩
  exact ⟨.inl (by decide), rfl⟩

/-- A sound chunk makes the machine stop with a fault that is neither an outcome nor an error of
a script, where the stack has too few operands. -/
theorem Machine.faults_overreaching :
    overreaching.IsSound ∧ (overreachingBy.after 5).Reachable ∧
      (overreachingBy.after 5).control = .loop .proceed ∧
      (overreachingBy.after 10).control = .finished (.error (.fault .offsetOverflow)) := by
  refine ⟨by decide, ?_, rfl, rfl⟩
  refine (Machine.leads_after _ 5).reachable (.start _ _ ?_)
  refine .write (fun w => .addClosure w _) (.call _ _ fun r => ?_)
  exact Action.lawful_bind (Action.lawful_ofResult r) Library.lawful_one

end ScriptEngine
