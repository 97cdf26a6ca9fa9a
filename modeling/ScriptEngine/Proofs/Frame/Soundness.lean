import ScriptEngine.Proofs.Error.Sources
import ScriptEngine.Proofs.Frame.Continuation

/-!
# What a sound chunk rules out

A chunk is checked once, instruction by instruction.  In a history of sound chunks
no step then fails for what the check looked at: an instruction has the operands it
takes, it is a proper one, it captures variables only, and there is a chunk to run.
Functions begin where one may, and the instruction to come is one of the chunk or
is right behind the last one.
-/

namespace ScriptEngine

variable {H : HostTypes}

/-! ## Reasons that blame the chunk -/

/-- The reasons of errors that blame the chunk the instruction is of. -/
inductive Instruction.Blames (i : Instruction) : String → Prop where
  | noValue : Blames i (i.op.mnemonic ++ " without a value operand")
  | noSymbol : Blames i (i.op.mnemonic ++ " without a symbol operand")
  | invalid : Blames i "invalid opcode executed"
  | capture (hop : i.op = .closure) (s : Symbol) :
      Blames i (s.display ++ " cannot be used as a variable cell")
  | noChunk : Blames i "no bytecode loaded"

namespace Instruction

variable {i : Instruction} {reason : String}

-- The texts have parts that depend on the instruction, but their last letters do not.
theorem Blames.getLast? (h : i.Blames reason) :
    reason.toList.getLast? = some 'd' ∨
      i.op = .closure ∧ reason.toList.getLast? = some 'l' := by
  cases h with
  | noValue => simp
  | noSymbol => simp
  | invalid => simp
  | capture hop s => simp [hop]
  | noChunk => simp

/-- What is not found on the processor is not blamed on the chunk. -/
theorem not_blames_of_mishap (h : Mishap reason) : ¬i.Blames reason := by
  intro hblames
  have hlast := hblames.getLast?
  cases h <;> simp at hlast

/-- Of what an instruction can object to, a sound chunk leaves globals in place of
variables and parameters that are none. -/
theorem not_blames_of_objection {chunk : Chunk} (hsound : chunk.faultOf? i = none)
    (h : i.Objection reason) : ¬i.Blames reason := by
  intro hblames
  have hlast := hblames.getLast?
  unfold Chunk.faultOf? at hsound
  cases h with
  | noValue hop hnone => rcases hop with hop | hop | hop <;> simp [hop, hnone] at hsound
  | noSymbol hop hnone => rcases hop with hop | hop <;> simp [hop, hnone] at hsound
  | invalid hop => simp [hop] at hsound
  | capture hop hs hglobal =>
      cases hsymbols : i.symbols? with
      | none => simp [hop, hsymbols] at hsound
      | some captures =>
          rw [Instruction.symbols, hsymbols, Option.getD_some] at hs
          have hany : captures.any Symbol.isGlobal = true := List.any_eq_true.mpr ⟨_, hs, hglobal⟩
          simp [hop, hsymbols, hany] at hsound
  | environment hop h henv => rcases hop with hop | hop <;> simp [hop] at hlast
  | parameter hop hs =>
      rw [String.toList_append, List.getLast?_append] at hlast
      simp [hop] at hlast

end Instruction

/-- An error that an object of the host answered with. -/
def HostAnswers (H : HostTypes) [HostObjects H] (e : RuntimeError) : Prop :=
  (∃ (s : H.State) (o : H.Object) (key : Value), HostObjects.index s o key = .error e) ∨
    ∃ (s : H.State) (o : H.Object) (key v : Value), HostObjects.setIndex s o key v = .error e

/-- The error does not blame the chunk of the instruction, unless an object of the
host made it up. -/
def Instruction.Excuses (H : HostTypes) [HostObjects H] (i : Instruction) (e : RuntimeError) :
    Prop :=
  HostAnswers H e ∨ ∀ reason, e = .internal reason → ¬i.Blames reason

namespace Exec

section

variable [HostObjects H] {i : Instruction}

theorem tolerates_excuses (i : Instruction) : Tolerates H (i.Excuses H) where
  script e := Or.inr nofun
  fault f := Or.inr nofun
  mishap h := by
    refine Or.inr fun reason hreason => ?_
    cases hreason
    exact Instruction.not_blames_of_mishap h
  index s o key := fun e h => Or.inl (Or.inl ⟨s, o, key, h⟩)
  setIndex s o key v := fun e h => Or.inl (Or.inr ⟨s, o, key, v, h⟩)

/-- An instruction of a sound chunk is carried out, or it fails for another reason. -/
theorem raises_execute {chunk : Chunk} (hsound : chunk.faultOf? i = none) :
    Raises (i.Excuses H) (intent chunk i >>= carryOut : Exec H Outcome) := by
  have htolerates := tolerates_excuses (H := H) i
  refine raises_bind
    (raises_intent htolerates.withstands chunk (fun reason h => ?_) fun _ => htolerates.fault)
    fun next => raises_carryOut htolerates.withstands next
  refine Or.inr fun reason' hreason => ?_
  cases hreason
  exact Instruction.not_blames_of_objection hsound h

theorem stepIntent_of_fetched {c : Core H} {chunk : Chunk}
    (hchunk : c.proc.chunk? = some chunk) (hi : chunk.code[c.proc.ip]? = some i) :
    stepIntent c = intent chunk i { c with proc := { c.proc with ip := c.proc.ip + 1 } } := by
  have hfetch := fetch_run_of_code hchunk hi
  exact run_bind_of_ok hfetch

/-- Behind the last instruction there is none to fetch. -/
theorem stepIntent_of_not_fetched {c : Core H} {chunk : Chunk}
    (hchunk : c.proc.chunk? = some chunk) (hi : chunk.code[c.proc.ip]? = none) :
    stepIntent c =
      .error (.internal ("instruction pointer " ++ toString c.proc.ip ++ " out of range")) c := by
  have hfetch := fetch_run_of_no_code hchunk hi
  exact run_bind_of_error hfetch

end

end Exec

/-- What the instruction to come does in the function of a script that runs: it is one
of a sound chunk, or there is none because the last one has been passed. -/
structure Exec.KeepsTo [HostObjects H] (chunk : Chunk) (c : Core H) : Prop where
  loaded : c.proc.chunk? = some chunk
  sound : chunk.IsSound
  inside : c.proc.ip ≤ chunk.size
  /-- No instruction of the chunk fails with an error that blames the chunk. -/
  excused : ∀ i, chunk.code[c.proc.ip]? = some i → ∀ e c',
    Exec.step c = .error e c' → i.Excuses H e
  /-- An instruction goes on at the next one or at one it jumps to. -/
  goesOn : ∀ i, chunk.code[c.proc.ip]? = some i → ∀ next c',
    Exec.stepIntent c = .ok next c' →
      c'.proc.ip = c.proc.ip + 1 ∨ i.op.isJump = true ∧ c'.proc.ip = i.num ∧ i.num < chunk.size
  /-- Where there is no instruction, the last one has been passed and nothing is done. -/
  passed : chunk.code[c.proc.ip]? = none → c.proc.ip = chunk.size ∧
    Exec.step c =
      .error (.internal ("instruction pointer " ++ toString c.proc.ip ++ " out of range")) c

open Exec in
theorem Exec.keepsTo_of_scripting [HostObjects H] {c : Core H} (hsound : c.world.IsSound)
    (h : c.proc.Scripting c.world) : ∃ chunk, Exec.KeepsTo chunk c := by
  obtain ⟨f, rest, k, -, hruns, hchunk, hip⟩ := h
  obtain ⟨r, -, hk⟩ := hruns.callee
  have hk := (hsound r k hk).chunk
  refine ⟨k.chunk, hchunk, hk, hip, fun i hi e c' hrun => ?_, fun i hi next c' hrun => ?_,
    fun hnone => ⟨?_, ?_⟩⟩
  · rw [step_eq, run_bind, stepIntent_of_fetched hchunk hi, ← run_bind] at hrun
    exact raises_execute (Chunk.faultOf?_of_isSound hk hi) _ e c' hrun
  · rw [stepIntent_of_fetched hchunk hi] at hrun
    have hfollows := steers_intent (H := H) hk hi
      { c with proc := { c.proc with ip := c.proc.ip + 1 } }
    rw [hrun] at hfollows
    rcases hfollows.ip with hsame | ⟨hjump, htarget⟩
    · exact Or.inl hsame
    · exact Or.inr ⟨hjump, htarget, Chunk.lt_size_of_isJump hk hi hjump⟩
  · exact Nat.le_antisymm hip (Array.getElem?_eq_none_iff.mp hnone)
  · rw [step_eq]
    exact run_bind_of_error (stepIntent_of_not_fetched hchunk hnone)

namespace Machine

/-- In every state of a history of sound chunks every function begins where one may.  When an
instruction is to come, it keeps to its chunk, and nothing else can fail but for the host's
request to stop. -/
theorem Vetted.keepsToChunks [Host H] [LawfulHost H] {m : Machine H} (h : m.Vetted) :
    (∀ r k, m.core.world.HasClosure r k → k.chunk.isEntry k.entry = true) ∧
      (m.control = .loop .proceed →
        (∃ chunk, Exec.KeepsTo chunk (counted m.core)) ∧
          ∀ e c, Exec.poll m.core = .error e c →
            e = .terminated ∨ Exec.step (counted m.core) = .error e c) := by
  have hlinked := h.allLinked
  refine ⟨fun r k hk => (hlinked.sound r k hk).entry, fun hcontrol => ⟨?_, ?_⟩⟩
  · have hfindsCode := hlinked.inFlightLinked.findsCode
    rw [hcontrol] at hfindsCode
    exact Exec.keepsTo_of_scripting (c := counted m.core) hlinked.sound
      (scripting_counted hfindsCode)
  · intro e c hrun
    rcases poll_cases m.core with hpoll | hpoll | hpoll <;> rw [hpoll] at hrun
    · cases hrun
      exact Or.inl rfl
    · cases hrun
    · exact Or.inr hrun

/-- The instruction to come is the call at index 4. -/
theorem keepsToChunks_lent :
    ((CallSite.lendingBy .nop).after 7).Vetted ∧
      ((CallSite.lendingBy .nop).after 7).core.proc.ip = 4 ∧
      ∃ chunk, Exec.KeepsTo chunk (counted ((CallSite.lendingBy .nop).after 7).core) :=
  ⟨vetted_lendingBy, rfl, (vetted_lendingBy.keepsToChunks.2 rfl).1⟩

end Machine

end ScriptEngine
