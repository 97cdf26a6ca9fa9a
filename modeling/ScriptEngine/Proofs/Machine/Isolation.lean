import ScriptEngine.Proofs.Machine.Reach

/-!
# Operands of the frames below

No frame's base is looked at before an operand is taken, only the height of the
whole stack.  As long as an instruction finds all it reaches above the base of
its own frame, what is below that makes no difference to it and is left as it
is, also by the call or return that the instruction ends in.
-/

namespace ScriptEngine

variable {H : HostTypes}

/-- The instruction to come and the frame it runs in. -/
structure Core.Fetches (c : Core H) (f : Frame) (i : Instruction) : Prop where
  top : c.proc.frames.top? = some f
  code : ∃ chunk, c.proc.chunk? = some chunk ∧ chunk.code[c.proc.ip]? = some i

/-- The instruction to come finds all it reaches in its own frame. -/
def Core.WithinReach (c : Core H) : Prop :=
  ∀ f i, c.Fetches f i → f.base + i.reach ≤ c.proc.stack.height

theorem Core.withinReach_of_fetches {c : Core H} {f : Frame} {i : Instruction}
    (h : c.Fetches f i) (hreach : f.base + i.reach ≤ c.proc.stack.height) :
    c.WithinReach := by
  intro f' i' h'
  obtain ⟨chunk, hchunk, hcode⟩ := h.code
  obtain ⟨chunk', hchunk', hcode'⟩ := h'.code
  obtain rfl := Option.some.inj (h.top.symm.trans h'.top)
  obtain rfl := Option.some.inj (hchunk.symm.trans hchunk')
  obtain rfl := Option.some.inj (hcode.symm.trans hcode')
  exact hreach

namespace Exec

variable {α β : Type}

/-! ## Programs that count the operands -/

/-- A program that may see how many operands there are, but not which. -/
def Counts (x : Exec H α) : Prop :=
  ∀ (c : Core H) n, ∃ r, ∀ items, items.length = n →
    x (c.withOperands items) = overOperands r items

theorem Idle.counts {x : Exec H α} (hx : Idle x) : Counts x := by
  intro c _
  refine ⟨x c, fun items _ => ?_⟩
  exact hx c items

theorem Counts.bind {x : Exec H α} {f : α → Exec H β} (hx : Counts x)
    (hf : ∀ a, Counts (f a)) : Counts (x >>= f) := by
  intro c n
  obtain ⟨r, hrun⟩ := hx c n
  cases r with
  | ok a c' =>
      obtain ⟨r', hrun'⟩ := hf a c' n
      refine ⟨r', fun items hitems => ?_⟩
      rw [run_bind_of_ok (hrun items hitems)]
      exact hrun' items hitems
  | error e c' =>
      exact ⟨.error e c', fun items hitems => run_bind_of_error (hrun items hitems)⟩

theorem counts_height : Counts (askProc fun p => p.stack.height : Exec H Nat) := by
  intro c n
  refine ⟨.ok n c, fun _ hitems => ?_⟩
  exact hitems ▸ rfl

theorem Counts.uses {x : Exec H α} (hx : Counts x) : Uses 0 0 x := by
  intro c own height _
  obtain ⟨r, hrun⟩ := hx c (own.length + height)
  refine ⟨r, own, fun below hbelow => hrun _ ?_, fun _ _ _ => by omega⟩
  rw [List.length_append, hbelow]

/-! ## Calls and results -/

theorem idle_failCall (e : ScriptError) (flags : FrameFlags) (returnAddress : Nat)
    (handlers : Handlers) :
    Idle (failCall e flags returnAddress handlers : Exec H Outcome) := by
  unfold failCall
  split
  · exact idle_pure _
  · exact idle_throw _

theorem counts_enter (callee : Callee) (args : List Value) (flags : FrameFlags)
    (returnAddress : Nat) (handlers : Handlers) :
    Counts (enter callee args flags returnAddress handlers : Exec H Outcome) := by
  have hdepth : Idle (askProc fun p => p.frames.height : Exec H Nat) := fun _ _ => rfl
  refine hdepth.counts.bind fun depth => (idle_ask _).counts.bind fun limit => ?_
  split
  · exact (idle_failCall _ _ _ _).counts
  · refine counts_height.bind fun base => ?_
    cases callee with
    | function f =>
        refine (idle_ask _).counts.bind fun closure => Idle.counts ?_
        exact fun _ _ => rfl
    | native f =>
        refine Idle.counts ?_
        exact fun _ _ => rfl

theorem idle_jumpTo_proceed (ip : Nat) :
    Idle (do jumpTo ip; pure .proceed : Exec H Outcome) := by
  refine (idle_jumpTo ip).bind fun _ => ?_
  exact idle_pure _

theorem uses_deliver (flags : FrameFlags) (returnAddress : Nat) (v? : Option Value) :
    Uses 0 0 (deliver flags returnAddress v? : Exec H Outcome) := by
  have htop : Idle (askProc fun p => p.frames.top? : Exec H (Option Frame)) :=
    fun _ _ => rfl
  have hpushed : Uses 0 0 (pushAll v?.toList : Exec H Unit) := uses_pushAll _ (Nat.le_refl 0)
  unfold deliver
  split
  · exact (idle_pure _).uses (Nat.le_refl 0)
  · refine (htop.uses (Nat.le_refl 0)).bind fun top? => ?_
    split
    · exact hpushed.bind fun _ => (idle_jumpTo_proceed _).uses (Nat.le_refl 0)
    · next top =>
        split
        · exact (idle_popFrame?.bind fun _ => idle_pure _).uses (Nat.le_refl 0)
        · refine hpushed.bind fun _ => ((idle_jumpTo _).bind fun _ => ?_).uses (Nat.le_refl 0)
          split
          · refine (idle_ask _).bind fun closure => Idle.bind ?_ fun _ => idle_pure _
            exact fun _ _ => rfl
          · exact idle_pure _

theorem uses_finish (frame : Frame) (v : Value) :
    Uses 0 0 (finish frame v : Exec H Outcome) := by
  unfold finish
  split
  · exact uses_deliver _ _ _
  · exact ((idle_ofScript _).uses (Nat.le_refl 0)).bind fun _ => uses_deliver _ _ _
  · exact (idle_pure _).uses (Nat.le_refl 0)

section

variable [HostObjects H]

theorem counts_call (function : Value) (args : List Value) (flags : FrameFlags)
    (returnAddress : Nat) (handlers : Handlers) :
    Counts (call function args flags returnAddress handlers : Exec H Outcome) := by
  refine (idle_ask _).counts.bind fun resolved => ?_
  split
  · exact counts_enter _ _ _ _ _
  · exact (idle_failCall _ _ _ _).counts

theorem counts_callPending (pending : PendingCall) :
    Counts (callPending pending : Exec H Outcome) := by
  have hip : Idle (askProc fun p => p.ip : Exec H Nat) := fun _ _ => rfl
  exact hip.counts.bind fun ip => counts_call _ _ _ _ _

end

/-! ## Instructions -/

/-- What is cut off is not below the height that all is cut down to. -/
theorem truncate_of_append {height : Nat} (own below : List Value)
    (h : below.length ≤ height) :
    (Stack.of (own ++ below)).truncate height =
      .of (own.drop (own.length + below.length - height) ++ below) := by
  apply Stack.ext
  rw [Stack.items_truncate]
  change (own ++ below).drop ((own ++ below).length - height) = _ ++ below
  rw [List.length_append]
  exact List.drop_append_of_le_length (by omega)

/-- Whatever the operands below this height are, the program does the same above
them and leaves them as they are. -/
def Isolated (x : Exec H α) (c : Core H) (own : List Value) (height : Nat) : Prop :=
  ∃ r items, ∀ below, below.length = height →
    x (c.withOperands (own ++ below)) = overOperands r (items ++ below)

theorem Uses.isolated {n m : Nat} {x : Exec H α} (hx : Uses n m x) (c : Core H)
    {own : List Value} (height : Nat) (h : n ≤ own.length) : Isolated x c own height := by
  obtain ⟨r, items, hrun, -⟩ := hx c own height h
  exact ⟨r, items, hrun⟩

theorem Isolated.of_run {x y : Exec H α} {c : Core H} {own : List Value} {height : Nat}
    (hrun : ∀ items, x (c.withOperands items) = y (c.withOperands items))
    (hy : Isolated y c own height) : Isolated x c own height := by
  obtain ⟨r, items, hy⟩ := hy
  exact ⟨r, items, fun below hbelow => (hrun _).trans (hy below hbelow)⟩

variable {c : Core H} {f : Frame} {i : Instruction}

/-- The frame goes with all its operands, and what follows finds those below. -/
theorem isolated_truncate {x : Option Frame → Exec H Outcome} {y : Exec H Outcome}
    {height : Nat} (hbase : height ≤ f.base)
    (htop : c.proc.frames.top? = some f) (own : List Value) (hy : Uses 0 0 y)
    (hx : x (some f) = (do
      modifyProc fun p => { p with stack := p.stack.truncate f.base }
      y)) : Isolated (popFrame? >>= x) c own height := by
  obtain ⟨rest, hpush⟩ : ∃ rest : Stack Frame, c.proc.frames = rest.push f := by
    obtain ⟨items, hitems⟩ := List.head?_eq_some_iff.mp htop
    exact ⟨⟨items, items.length, rfl⟩, Stack.ext hitems⟩
  let popped : Core H := { c with proc := { c.proc with frames := rest } }
  let kept := own.drop (own.length + height - f.base)
  obtain ⟨r, items, hrun⟩ := hy.isolated popped height (Nat.zero_le kept.length)
  refine ⟨r, items, fun below hbelow => ?_⟩
  have hpop : popFrame? (c.withOperands (own ++ below)) =
      .ok (some f) (popped.withOperands (own ++ below)) :=
    popFrame?_run_push (c := c.withOperands (own ++ below)) hpush
  have hcut : (Stack.of (own ++ below)).truncate f.base = .of (kept ++ below) := by
    have hlow : below.length ≤ f.base := by rw [hbelow]; exact hbase
    rw [truncate_of_append own below hlow, hbelow]
  have hmodify : modifyProc (fun p => { p with stack := p.stack.truncate f.base })
      (popped.withOperands (own ++ below)) = .ok () (popped.withOperands (kept ++ below)) := by
    rw [modifyProc_run]
    unfold Core.withOperands
    rw [← hcut]
  rw [run_bind_of_ok hpop, hx, run_bind_of_ok hmodify]
  exact hrun below hbelow

section

variable [HostObjects H]

theorem isolated_placeCall {height : Nat} (hbase : height ≤ f.base)
    (htop : c.proc.frames.top? = some f) (function : Value) (args own : List Value)
    (methodCall : Bool) : Isolated (placeCall function args methodCall) c own height := by
  have hask {items : List Value} :
      askProc canTailCall (c.withOperands items) =
        .ok (canTailCall c.proc) (c.withOperands items) := rfl
  by_cases hcan : canTailCall c.proc = true
  · apply Isolated.of_run
    case hrun =>
      intro items
      rw [placeCall, run_bind_of_ok hask, if_pos hcan]
    case hy =>
      exact isolated_truncate hbase htop own (counts_call function args
        { methodCall, tailCall := true, entryPoint := f.flags.entryPoint }
        f.returnAddress {}).uses rfl
  · have hip : Idle (askProc fun p => p.ip : Exec H Nat) := fun _ _ => rfl
    have huses : Uses 0 0 (do
        let ip ← askProc (·.ip)
        call function args { methodCall } ip {} : Exec H Outcome) :=
      (hip.counts.bind fun ip => counts_call _ _ _ _ _).uses
    refine Isolated.of_run (fun items => ?_) (huses.isolated c height (Nat.zero_le _))
    rw [placeCall, run_bind_of_ok hask, if_neg hcan]

theorem isolated_carryOut {height : Nat} (hbase : height ≤ f.base)
    (htop : c.proc.frames.top? = some f) (intent : Intent) (own : List Value) :
    Isolated (carryOut intent) c own height := by
  cases intent with
  | proceed => exact ((idle_pure _).uses (Nat.le_refl 0)).isolated c _ (Nat.zero_le _)
  | pending p => exact (counts_callPending p).uses.isolated c _ (Nat.zero_le _)
  | call function args methodCall =>
      exact isolated_placeCall hbase htop function args own methodCall
  | «return» v => exact isolated_truncate hbase htop own (uses_finish f v) rfl

theorem isolated_stepIntent (h : c.Fetches f i) {own : List Value} (height : Nat)
    (hown : i.reach ≤ own.length) : Isolated stepIntent c own height := by
  obtain ⟨chunk, hchunk, hcode⟩ := h.code
  obtain ⟨r, items, hrun⟩ := (uses_intent chunk i).isolated
    { c with proc := { c.proc with ip := c.proc.ip + 1 } } height hown
  refine ⟨r, items, fun below hbelow => ?_⟩
  have hfetch : fetch (c.withOperands (own ++ below)) = _ :=
    fetch_run_of_code (c := c.withOperands (own ++ below)) hchunk hcode
  rw [stepIntent, run_bind_of_ok hfetch]
  exact hrun below hbelow

/-- What an instruction does before anything happens to the frames leaves the
topmost one with its base. -/
theorem base_of_stepIntent {intent : Intent} {c' : Core H} {items : List Value}
    (hrun : stepIntent c = .ok intent (c'.withOperands items))
    (htop : c.proc.frames.top? = some f) :
    ∃ f', c'.proc.frames.top? = some f' ∧ f'.base = f.base := by
  have halike := (simple_stepIntent.plain c).frames
  rw [hrun] at halike
  obtain ⟨rest, hitems⟩ := List.head?_eq_some_iff.mp htop
  rw [hitems] at halike
  generalize hframes : (resultCore (.ok intent (c'.withOperands items) :
    EStateM.Result RuntimeError (Core H) Intent)).proc.frames.items = frames at halike
  cases halike with
  | @cons f f' hsame rest =>
      exact ⟨f', List.head?_eq_some_iff.mpr ⟨rest, hframes⟩, hsame.base⟩

/-- Operands that are below the instruction's own frame and out of its reach make no
difference to it, and it leaves them as they are. -/
theorem isolated_step (h : c.Fetches f i) {height : Nat} (hheight : height ≤ f.base)
    {own : List Value} (hown : i.reach ≤ own.length) : Isolated step c own height := by
  obtain ⟨r, items, hrun⟩ := isolated_stepIntent h height hown
  cases r with
  | error e c' =>
      refine ⟨.error e c', items, fun below hbelow => ?_⟩
      rw [step_eq, run_bind_of_error (hrun below hbelow)]
      rfl
  | ok intent c' =>
      have hany : (List.replicate height Value.nil).length = height := List.length_replicate
      obtain ⟨f', htop, hbase⟩ := base_of_stepIntent (c := c.withOperands _)
        (hrun _ hany) h.top
      have hlow : height ≤ f'.base := by rw [hbase]; exact hheight
      obtain ⟨r', items', hrun'⟩ := isolated_carryOut hlow htop intent items
      refine ⟨r', items', fun below hbelow => ?_⟩
      rw [step_eq, run_bind_of_ok (hrun below hbelow)]
      exact hrun' below hbelow

/-- With fewer operands on the whole stack than an instruction reaches it fails. -/
theorem starves_step (h : c.Fetches f i) (hfew : c.proc.stack.height < i.reach) :
    Starves (step c) := by
  obtain ⟨chunk, hchunk, hcode⟩ := h.code
  have hstarves := demands_intent (H := H) chunk i
    { c with proc := { c.proc with ip := c.proc.ip + 1 } } hfew
  rw [step_eq, stepIntent]
  apply Starves.bind
  rw [run_bind_of_ok (fetch_run_of_code hchunk hcode)]
  exact hstarves

end

end Exec

variable {c : Core H}

theorem Core.withOperands_items (c : Core H) : c.withOperands c.proc.stack.items = c := by
  have hstack : Stack.of c.proc.stack.items = c.proc.stack := Stack.ext rfl
  unfold Core.withOperands
  rw [hstack]

/-- An instruction within its reach leaves the operands of the frames below its
own alone. -/
theorem Core.WithinReach.sparing [HostObjects H] (h : c.WithinReach) : c.Sparing := by
  intro f htop operands hoperands hbase
  have hfetches {i : Instruction} (hcode : ∃ chunk, c.proc.chunk? = some chunk ∧
      chunk.code[c.proc.ip]? = some i) : c.Fetches f i := ⟨htop, hcode⟩
  have hnothing {e : RuntimeError} (hrun : Exec.fetch c = .error e c) :
      operands <:+ (Exec.resultCore (Exec.stepIntent c)).proc.stack.items := by
    rw [Exec.stepIntent, Exec.run_bind_of_error hrun]
    exact hoperands
  cases hchunk : c.proc.chunk? with
  | none =>
      refine hnothing (e := .internal "no bytecode loaded") ?_
      rw [Exec.fetch_run, hchunk]
  | some chunk =>
      cases hcode : chunk.code[c.proc.ip]? with
      | none =>
          refine hnothing (e := .internal ("instruction pointer " ++ toString c.proc.ip ++
            " out of range")) ?_
          rw [Exec.fetch_run, hchunk]
          dsimp only
          rw [hcode]
      | some i =>
          have hfetch := hfetches ⟨chunk, hchunk, hcode⟩
          have hreach := h f i hfetch
          obtain ⟨own, hitems⟩ := hoperands
          have hown : i.reach ≤ own.length := by
            have hheight := c.proc.stack.height_eq
            rw [← hitems, List.length_append] at hheight
            omega
          obtain ⟨r, items, hrun⟩ :=
            Exec.isolated_stepIntent hfetch operands.length hown
          have hstep := hrun operands rfl
          rw [hitems, c.withOperands_items] at hstep
          rw [hstep]
          cases r <;> exact List.suffix_append items operands

end ScriptEngine
