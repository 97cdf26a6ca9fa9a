import ScriptEngine.Proofs.Coroutine.Nesting

/-!
# Other coroutines at work

While a coroutine that was resumed is at work, the processor of whoever resumed it rests, and so
do the loops below.  Two machines that differ in nothing else do the same, until the coroutine
gives way.
-/

namespace ScriptEngine.Machine

variable {H : HostTypes}

/-- The machines are the same above these activations. -/
inductive Over (as bs : List (Activation H)) : Machine H → Machine H → Prop where
  | mk (core : Core H) (guest : List (Activation H)) (control : Control H) :
      Over as bs ⟨core, guest ++ as, control⟩ ⟨core, guest ++ bs, control⟩

section

variable {as bs : List (Activation H)} {core : Core H} {guest : List (Activation H)}

theorem over_exec {route : Route} (guest : List (Activation H)) (x : Exec H Outcome) :
    Over as bs (exec route x core (guest ++ as)) (exec route x core (guest ++ bs)) := by
  unfold exec
  cases x core with
  | ok o core' => exact .mk _ _ _
  | error e core' => exact .mk _ _ _

theorem over_answer (result : Except RuntimeError Value) (waiter : Waiter H) :
    Over as bs (answer core (guest ++ as) result waiter)
      (answer core (guest ++ bs) result waiter) := by
  cases waiter with
  | recovered flags returnAddress =>
    cases result with
    | ok v => exact over_exec guest _
    | error e => exact .mk _ _ _
  | caught flags returnAddress =>
    cases result with
    | ok v =>
      exact over_exec guest _
    | error e => exact .mk _ _ _
  | _ => exact .mk _ _ _

theorem over_settle (o : Outcome) :
    Over as bs (settle core (guest ++ as) o) (settle core (guest ++ bs) o) := by
  cases o with
  | finish frame v =>
    exact over_exec guest _
  | _ => exact .mk _ _ _

variable [Host H]

theorem over_afterOutcome (o : Outcome) :
    Over as bs (afterOutcome core (guest ++ as) o) (afterOutcome core (guest ++ bs) o) := by
  cases o with
  | proceed => exact over_exec guest _
  | finish frame v => exact over_exec guest _
  | tailCall request flags returnAddress => exact over_exec guest _
  | recover e decorator? handler flags returnAddress => cases decorator? <;> exact .mk _ _ _
  | yield v =>
    unfold afterOutcome
    dsimp only
    cases Exec.checkYield core with
    | ok a core' => exact .mk _ _ _
    | error e core' => exact .mk _ _ _
  | _ => exact .mk _ _ _

theorem over_beginCall (function : Value) (args : List Value) (waiter : Waiter H) :
    Over as bs (beginCall core (guest ++ as) function args waiter)
      (beginCall core (guest ++ bs) function args waiter) := by
  rcases Nat.lt_or_ge core.proc.nesting core.world.settings.maxNativeNesting with hroom | hfull
  · rw [beginCall_of_room core hroom, beginCall_of_room core hroom]
    exact over_exec (.call _ waiter :: guest) _
  · rw [beginCall_of_crowded core hfull, beginCall_of_crowded core hfull]
    exact .mk _ _ _

theorem over_runCoroutine (guest : List (Activation H)) (c : Coroutine) (world : World H)
    (proc : Processor)
    (args : List Value) :
    Over as bs (runCoroutine world (guest ++ as) c proc args)
      (runCoroutine world (guest ++ bs) c proc args) := by
  unfold runCoroutine
  cases c.kind with
  | native => exact .mk _ _ _
  | script =>
    cases c.state with
    | notStarted => exact over_exec (.body :: guest) _
    | suspended =>
      cases proc.yielded? with
      | none => exact .mk _ _ _
      | some frame => exact .mk _ (.body :: guest) _
    | _ => exact .mk _ (.body :: guest) _

theorem over_resume (r : CoroutineRef) (args : List Value)
    (next : Except RuntimeError Value → Action H NativeOutcome) :
    Over as bs (resume core (guest ++ as) r args next) (resume core (guest ++ bs) r args next) := by
  rcases resume_cases core (guest ++ as) r args next with
    ⟨e, hrefused, hresume⟩ | ⟨c, p, hc, hp, -, haccepted, hresume⟩
  all_goals rw [hresume]
  · rw [resume_of_refused core hrefused]
    exact .mk _ _ _
  · rw [resume_of_accepted core haccepted hc hp]
    exact over_runCoroutine (.switch r _ next :: guest) c _ p args

omit [Host H] in
theorem over_enterMain (function : Value) (args : List Value)
    (next : Except RuntimeError Value → Action H NativeOutcome) :
    Over as bs (enterMain core (guest ++ as) function args next)
      (enterMain core (guest ++ bs) function args next) := by
  unfold enterMain
  dsimp only
  cases (core.world.coroutine core.world.main).processor? with
  | none => exact .mk _ _ _
  | some proc => exact .mk _ (.switch _ _ next :: guest) _

end

/-! ## Above a coroutine that has resumed another -/

section

variable {r : CoroutineRef} {p q : Processor}
  {k : Except RuntimeError Value → Action H NativeOutcome} {as bs : List (Activation H)}
  {core : Core H} {guest : List (Activation H)}

theorem frameFloor_over (guest as bs : List (Activation H)) (p q : Processor) :
    frameFloor (guest ++ .switch r p k :: as) = frameFloor (guest ++ .switch r q k :: bs) := by
  cases guest with
  | nil => rfl
  | cons a guest => cases a <;> rfl

theorem over_afterFailure (e : RuntimeError) :
    Over (.switch r p k :: as) (.switch r q k :: bs)
      (afterFailure core (guest ++ .switch r p k :: as) e)
      (afterFailure core (guest ++ .switch r q k :: bs) e) := by
  unfold afterFailure
  rw [frameFloor_over guest as bs p q]
  cases e <;> exact .mk _ _ _

theorem over_catchError (e : ScriptError) :
    Over (.switch r p k :: as) (.switch r q k :: bs)
      (catchError core (guest ++ .switch r p k :: as) e)
      (catchError core (guest ++ .switch r q k :: bs) e) := by
  rcases catchError_cases core (guest ++ .switch r p k :: as) e with
    ⟨frame, handler, n, hdropped, hcaught⟩ | ⟨n, hdropped, hcaught⟩
  all_goals rw [hcaught]; rw [frameFloor_over guest as bs p q] at hdropped
  · rw [catchError_of_caught core hdropped]
    exact .mk _ _ _
  · rw [catchError_of_uncaught core hdropped]
    exact .mk _ _ _

theorem over_leave (exit : Except RuntimeError LoopExit) :
    Over (.switch r p k :: as) (.switch r q k :: bs)
      (leave core (guest ++ .switch r p k :: as) exit)
      (leave core (guest ++ .switch r q k :: bs) exit) := by
  cases guest with
  | nil => exact .mk _ [] _
  | cons a guest =>
    cases a with
    | call mark waiter =>
      rcases exit with e | exit
      · exact .mk _ _ _
      · cases exit <;> exact .mk _ _ _
    | body => cases exit <;> exact .mk _ _ _
    | switch r' outer next' => exact .mk _ (.switch r' outer next' :: guest) _

variable [Host H]

theorem over_act (a : Action H NativeOutcome) :
    Over (.switch r p k :: as) (.switch r q k :: bs)
      (act core (guest ++ .switch r p k :: as) a)
      (act core (guest ++ .switch r q k :: bs) a) := by
  cases a with
  | done outcome =>
    cases guest with
    | nil => exact over_exec [] _
    | cons x guest => exact over_exec (x :: guest) _
  | fail e =>
    cases guest with
    | nil => exact .mk _ [] _
    | cons x guest => exact .mk _ (x :: guest) _
  | resume r' args next' => exact over_resume r' args next'
  | enterMain function args next' => exact over_enterMain function args next'
  | _ => exact .mk _ _ _

/-- A step does the same on both machines, unless the coroutine gives way with it. -/
theorem Over.next {m m' : Machine H}
    (h : Over (.switch r p k :: as) (.switch r q k :: bs) m m') :
    Over (.switch r p k :: as) (.switch r q k :: bs) m.next m'.next ∨
      ∃ exit, m.control = .switching exit ∧ m.activations = .switch r p k :: as ∧
        m'.activations = .switch r q k :: bs := by
  obtain ⟨core, guest, control⟩ := h
  cases control with
  | loop o => exact Or.inl (over_afterOutcome o)
  | failed e => exact Or.inl (over_afterFailure e)
  | unwinding e decorators =>
    cases decorators with
    | nil => exact Or.inl (over_catchError e)
    | cons d rest => exact Or.inl (.mk _ _ _)
  | calling function args waiter => exact Or.inl (over_beginCall function args waiter)
  | leaving exit => exact Or.inl (over_leave exit)
  | answering waiter result => exact Or.inl (over_answer result waiter)
  | switching exit =>
    cases guest with
    | nil => exact Or.inr ⟨exit, rfl, rfl, rfl⟩
    | cons a guest =>
      cases a with
      | switch r' outer next' => exact Or.inl (.mk _ _ _)
      | call mark waiter => exact Or.inl (.mk _ (.call mark waiter :: guest) _)
      | body => exact Or.inl (.mk _ (.body :: guest) _)
  | settling o => exact Or.inl (over_settle o)
  | running a => exact Or.inl (over_act a)
  | finished result => exact Or.inl (.mk _ _ _)

end

end ScriptEngine.Machine
