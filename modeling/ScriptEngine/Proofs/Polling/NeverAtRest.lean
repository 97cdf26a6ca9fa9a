import ScriptEngine.Proofs.Frame.Restoration
import ScriptEngine.Proofs.Polling.Circles
import ScriptEngine.Proofs.Polling.ResultReceivers

/-!
# Engines that never come to rest

An engine with nothing but its library never comes to rest if it neither looks at an
instruction nor leaves its loops nor goes round `pairs` for ever.  There is no
such engine.  It is enough that the innermost loop of such an engine always
ends; in it every call back and every resume begins a loop that is nested deeper,
of which there can only be so many.
-/

namespace ScriptEngine

variable {H : HostTypes}

namespace World

theorem native?_modifyCoroutine (w : World H) (r : CoroutineRef)
    (f : Coroutine → Coroutine) (s : NativeRef) :
    (w.modifyCoroutine r f).native? s = w.native? s := by
  refine native?_modifyObject w r.id ?_ s
  intro o n
  cases o <;> simp

/-- The same functions of the host. -/
theorem Standard.of_native?_eq {w w' : World H} (h : w.Standard)
    (hsame : ∀ r, w'.native? r = w.native? r) : w'.Standard := by
  rintro f ⟨r, n, failed, hn, hbody⟩
  rw [hsame] at hn
  obtain ⟨n', hn', hok⟩ := h f ⟨r, n, failed, hn, hbody⟩
  exact ⟨n', (hsame f).trans hn', hok⟩

theorem Standard.engage {w : World H} (h : w.Standard) (r : CoroutineRef) :
    (w.engage r).Standard := by
  refine h.of_native?_eq ?_
  exact native?_modifyCoroutine w r _

theorem Standard.release {w : World H} (h : w.Standard) (r : CoroutineRef)
    (p : Processor) (exit : Except RuntimeError LoopExit) :
    (w.release r p exit).Standard := by
  refine h.of_native?_eq ?_
  exact native?_modifyCoroutine w r _

end World

namespace Machine

/-- How much deeper loops and coroutines may nest. -/
def room (m : Machine H) : Nat :=
  let limit := m.core.world.settings.maxNativeNesting
  (limit + 1) * (limit - (switches m.activations).length) +
    (limit - loopsAt m.activations)

section

variable {core : Core H} {activations : List (Activation H)}

/-! ## The functions of the host -/

theorem standard_exec {route : Route} {x : Exec H Outcome}
    (hkeeps : core.Keeps (Exec.resultCore (x core)))
    (h : core.world.Standard) : (exec route x core activations).core.world.Standard := by
  rw [exec_core, hkeeps.world]
  exact h

variable [Host H]

theorem standard_afterOutcome {o : Outcome} (ho : o ≠ .proceed)
    (h : core.world.Standard) :
    (afterOutcome core activations o).core.world.Standard := by
  cases o with
  | proceed => exact absurd rfl ho
  | finish frame v => exact standard_exec (Exec.finished_finish frame v core).keeps h
  | tailCall request flags returnAddress =>
      exact standard_exec (Exec.called_call _ _ _ _ _ core).keeps h
  | recover e decorator? handler flags returnAddress =>
      cases decorator? <;> exact h
  | yield v =>
      unfold afterOutcome
      rcases checkYield_cases core with hrun | ⟨violation, hrun⟩
      · rw [hrun]
        exact h
      · rw [hrun]
        exact h
  | invoke f args => exact h
  | forceYield => exact h
  | «return» v => exact h

theorem standard_resume (r : CoroutineRef) (args : List Value)
    (next : Except RuntimeError Value → Action H NativeOutcome)
    (h : core.world.Standard) :
    (resume core activations r args next).core.world.Standard := by
  have hengaged := h.engage r
  rcases resume_cases core activations r args next with
    ⟨e, -, hresume⟩ | ⟨c, p, -, -, -, -, hresume⟩
  all_goals rw [hresume]
  · exact h
  · have hroused := roused_runCoroutine (core.world.engage r)
      (.switch r core.proc next :: activations) c p args
    generalize runCoroutine (core.world.engage r) _ c p args = m at hroused ⊢
    cases hroused with
    | first hkind hstate =>
        exact standard_exec (Exec.called_call _ _ _ _ _ _).keeps hengaged
    | _ => exact hengaged

theorem standard_act {a : Action H NativeOutcome} (ha : a.Domestic)
    (h : core.world.Standard) : (act core activations a).core.world.Standard := by
  cases a with
  | done outcome =>
      cases activations with
      | nil => exact h
      | cons top rest =>
          exact standard_exec (Exec.completed_completeNative outcome core).keeps h
  | fail e => cases activations <;> exact h
  | read next => exact h
  | write change next => exact ha.1 _ h
  | call function args next => exact h
  | resume r args next => exact standard_resume r args next h
  | enterMain function args next => exact False.elim ha

omit [Host H] in
theorem standard_leave (exit : Except RuntimeError LoopExit)
    (h : core.world.Standard) :
    (leave core activations exit).core.world.Standard := by
  unfold leave
  split
  · unfold endCall
    rcases exit with e | exit
    · exact h
    · cases exit <;> exact h
  · unfold endBody
    cases exit <;> exact h
  · exact h

omit [Host H] in
theorem standard_answer {waiter : Waiter H} (result : Except RuntimeError Value)
    (h : core.world.Standard) :
    (answer core activations result waiter).core.world.Standard := by
  cases waiter with
  | recovered flags returnAddress =>
      cases result with
      | ok v => exact standard_exec (Exec.delivered_deliver _ _ _ core).keeps h
      | error e => exact h
  | caught flags returnAddress =>
      cases result with
      | ok v =>
          exact standard_exec (Exec.delivered_deliver _ _ _ core).keeps h
      | error e => exact h
  | _ => exact h

end

variable [Host H] {m m' : Machine H}

/-- Protected calls stay what they are as long as the library runs. -/
theorem standard_next (hm : m.WellNested)
    (ha : ∀ a, m.control = .running a → a.Domestic)
    (hpoll : m.control ≠ .loop .proceed) (h : m.core.world.Standard) :
    m.next.core.world.Standard := by
  obtain ⟨core, activations, control⟩ := m
  have hfits := hm.control
  cases control with
  | loop o =>
      refine standard_afterOutcome ?_ h
      rintro rfl
      exact hpoll rfl
  | failed e => cases e <;> exact h
  | unwinding e decorators =>
      cases decorators with
      | nil =>
          change (catchError core activations e).core.world.Standard
          rcases catchError_cases core activations e with
            ⟨frame, handler, n, -, hcaught⟩ | ⟨n, -, hcaught⟩
          all_goals rw [hcaught]; exact h
      | cons d rest => exact h
  | calling function args waiter =>
      change (beginCall core activations function args waiter).core.world.Standard
      rcases beginCall_cases core activations function args waiter with hbegin | ⟨-, hbegin⟩
      all_goals rw [hbegin]
      · exact h
      · exact standard_exec (Exec.called_call _ _ _ _ _ _).keeps h
  | leaving exit => exact standard_leave exit h
  | answering waiter result => exact standard_answer result h
  | switching exit =>
      obtain ⟨r, outer, next, rest, rfl, -⟩ := hfits
      exact h.release r core.proc exit
  | running a => exact standard_act (ha a rfl) h
  | settling o =>
      cases o with
      | finish frame v =>
          change (settle core activations (.finish frame v)).core.world.Standard
          exact standard_exec (Exec.finished_finish frame v core).keeps h
      | _ => exact h
  | finished result => exact h

/-! ## Machines that never come to rest -/

/-- The engine looks at an instruction, or the host itself goes on, or `pairs`
goes round for ever. -/
inductive AtRest (m : Machine H) : Prop where
  | polls (h : m.control = .loop .proceed)
  | host (h : m.activations = [])
  | circles (h : m.Circles)

structure NeverAtRest (m : Machine H) : Prop where
  reachable : m.Reachable
  standard : m.core.world.Standard
  never : ∀ n, ¬(m.after n).AtRest

/-- The innermost loop or coroutine comes to its end. -/
def LoopEnds (m : Machine H) : Prop :=
  ∃ n, (m.after n).activations.length < m.activations.length

theorem loopEnds_of_after (n : Nat)
    (hlength : (m.after n).activations.length ≤ m.activations.length)
    (h : (m.after n).LoopEnds) : m.LoopEnds := by
  obtain ⟨k, hk⟩ := h
  rw [← after_add] at hk
  exact ⟨n + k, Nat.lt_of_lt_of_le hk hlength⟩

/-- A machine that never comes to rest, while all loops that are nested deeper end. -/
structure DeeperLoopsEnd (m : Machine H) : Prop where
  neverAtRest : m.NeverAtRest
  deeper : ∀ m' : Machine H, m'.NeverAtRest → m'.room < m.room → m'.LoopEnds

variable [LawfulHost H] [LibraryOnly H]

omit [LawfulHost H] [LibraryOnly H] in
theorem NeverAtRest.activations_ne (h : m.NeverAtRest) : m.activations ≠ [] := by
  intro hnil
  exact h.never 0 (.host hnil)

omit [LawfulHost H] [LibraryOnly H] in
theorem NeverAtRest.not_polls (h : m.NeverAtRest) : m.control ≠ .loop .proceed := by
  intro hpoll
  exact h.never 0 (.polls hpoll)

/-- Everything that runs keeps to the library. -/
theorem NeverAtRest.confirmsOnly (h : m.NeverAtRest) {a : Action H NativeOutcome}
    (hcontrol : m.control = .running a) : a.ConfirmsOnly m.core.world := by
  have hconfirms := h.reachable.confirmsOnly.loopsConfirmOnly.control
  rw [hcontrol] at hconfirms
  exact hconfirms.resolve_left h.activations_ne

theorem NeverAtRest.next (h : m.NeverAtRest) : m.next.NeverAtRest := by
  refine ⟨h.reachable.next, ?_, fun n => ?_⟩
  · exact standard_next h.reachable.wellNested
      (fun a hcontrol => (h.confirmsOnly hcontrol).domestic) h.not_polls h.standard
  · rw [after_next]
    exact h.never (n + 1)

theorem NeverAtRest.after (h : m.NeverAtRest) (n : Nat) : (m.after n).NeverAtRest := by
  induction n with
  | zero => exact h
  | succ n ih => exact ih.next

omit [LibraryOnly H] in
theorem NeverAtRest.settings_after (h : m.NeverAtRest) (n : Nat) :
    (m.after n).core.world.settings = m.core.world.settings := by
  have hretains := (leads_after m n).retains h.reachable
  exact hretains.settings

omit [LibraryOnly H] in
theorem room_of_activations {n : Nat} (h : m.NeverAtRest)
    (hactivations : (m.after n).activations = m.activations) :
    (m.after n).room = m.room := by
  unfold room
  rw [h.settings_after, hactivations]

theorem DeeperLoopsEnd.after (h : m.DeeperLoopsEnd) {n : Nat}
    (hactivations : (m.after n).activations = m.activations) :
    (m.after n).DeeperLoopsEnd := by
  refine ⟨h.neverAtRest.after n, fun m' hm' hroom => h.deeper m' hm' ?_⟩
  rw [room_of_activations h.neverAtRest hactivations] at hroom
  exact hroom

theorem DeeperLoopsEnd.next (h : m.DeeperLoopsEnd)
    (hactivations : m.next.activations = m.activations) :
    m.next.DeeperLoopsEnd :=
  h.after (n := 1) hactivations

/-! ## Nested calls -/

omit [LawfulHost H] [LibraryOnly H] in
theorem activations_of_calling {function : Value} {args : List Value}
    {waiter : Waiter H} (hcontrol : m.control = .calling function args waiter)
    (hroom : m.core.proc.nesting < m.core.world.settings.maxNativeNesting) :
    m.next.activations = .call m.mark waiter :: m.activations := by
  obtain ⟨core, activations, control⟩ := m
  dsimp only at hcontrol
  subst hcontrol
  change (beginCall core activations function args waiter).activations = _
  rw [beginCall_of_room core hroom]
  exact exec_activations _ _ _

/-- A nested call has a result, with the frames there were. -/
structure Answers (m : Machine H) (waiter : Waiter H)
    (result : Except RuntimeError Value) (m' : Machine H) : Prop where
  activations : m'.activations = m.activations
  frames : m'.core.proc.frames = m.core.proc.frames
  control : m'.control = .answering waiter result

theorem DeeperLoopsEnd.answers (h : m.DeeperLoopsEnd) {function : Value} {args : List Value}
    {waiter : Waiter H} (hcontrol : m.control = .calling function args waiter) :
    ∃ n result, m.Answers waiter result (m.after n) := by
  rcases Nat.lt_or_ge m.core.proc.nesting
    m.core.world.settings.maxNativeNesting with hroom | hroom
  · have hactivations := activations_of_calling hcontrol hroom
    have hbegins : (m.enclosure waiter [] List.nil_suffix).Lasts m.next := by
      rcases begins_calling hcontrol List.nil_suffix with hrefused | hbegins
      · rw [hrefused] at hactivations
        have hlength := congrArg List.length hactivations
        rw [List.length_cons] at hlength
        exact absurd hlength (by dsimp only; omega)
      · exact hbegins
    have hseated := h.neverAtRest.reachable.wellFramed.seated
    unfold Seated at hseated
    rw [hcontrol] at hseated
    have hloops := StandsOn.loopsAt_eq hseated
    have hdeeper : m.next.room < m.room := by
      have hsettings : m.next.core.world.settings = m.core.world.settings :=
        h.neverAtRest.settings_after 1
      unfold room
      rw [hactivations, hsettings]
      change _ * (_ - (switches m.activations).length) +
        (_ - (loopsAt m.activations + 1)) < _
      dsimp only
      omega
    obtain ⟨n, hn⟩ := h.deeper m.next h.neverAtRest.next hdeeper
    rw [hactivations, List.length_cons] at hn
    rcases h.neverAtRest.reachable.next.encloses hbegins n (Or.inl rfl) with
      hlasts | ⟨j, hj, hleft, -⟩
    · have hlong : m.activations.length < (m.next.after n).activations.length :=
        length_of_lasts (hlasts n (Nat.le_refl n))
      exact absurd hn (Nat.not_lt_of_le hlong)
    · obtain ⟨result, hresult⟩ := hleft.control
      rw [after_next] at hleft hresult
      exact ⟨j + 2, result, hleft.activations, Stack.ext hleft.frames, hresult⟩
  · refine ⟨1, .error (.script .stackOverflow), ?_⟩
    change m.Answers waiter _ m.next
    rw [next_of_crowded hcontrol hroom]
    exact ⟨rfl, rfl, rfl⟩

/-! ## Resumes -/

omit [Host H] [LawfulHost H] [LibraryOnly H] in
theorem length_switches_append (above rest : List (Activation H)) (r : CoroutineRef)
    (outer : Processor)
    (next : Except RuntimeError Value → Action H NativeOutcome) :
    (switches rest).length <
      (switches (above ++ .switch r outer next :: rest)).length := by
  unfold switches
  rw [List.filterMap_append, List.length_append]
  change _ < _ + ((r :: List.filterMap Activation.coroutine? rest).length)
  rw [List.length_cons]
  omega

omit [LibraryOnly H] in
/-- With the coroutine that is resumed there is less room. -/
theorem room_lt_of_above {n : Nat} (h : m.NeverAtRest)
    (hroom : (switches m.activations).length <
      m.core.world.settings.maxNativeNesting)
    (habove : m.IsAbove (m.after n)) : (m.after n).room < m.room := by
  obtain ⟨r, next, above, habove⟩ := habove
  have hlonger := length_switches_append above m.activations r m.core.proc next
  rw [← habove] at hlonger
  unfold room
  rw [h.settings_after]
  generalize m.core.world.settings.maxNativeNesting = limit at hroom ⊢
  have hfewer : limit - (switches (m.after n).activations).length + 1 ≤
      limit - (switches m.activations).length := by omega
  have hproduct := Nat.mul_le_mul_left (limit + 1) hfewer
  rw [Nat.mul_add] at hproduct
  dsimp only
  omega

theorem DeeperLoopsEnd.comesBack (h : m.DeeperLoopsEnd) {r : CoroutineRef} {args : List Value}
    {next : Except RuntimeError Value → Action H NativeOutcome}
    (hcontrol : m.control = .running (.resume r args next)) :
    ∃ n, m.IsBack next (m.after n) := by
  have hwellNested := h.neverAtRest.reachable.wellNested
  cases hrefusal : m.core.world.resumeRefusal? r args with
  | some e =>
      refine ⟨1, ?_⟩
      change m.IsBack next m.next
      rw [next_of_refusal hcontrol hrefusal]
      exact ⟨rfl, rfl, ⟨_, rfl⟩, rfl⟩
  | none =>
      have hroom : (switches m.activations).length <
          m.core.world.settings.maxNativeNesting := by
        rw [← hwellNested.inFlight]
        have hnot := (hwellNested.scheduled.resumeRefusal?_eq_none_iff r args).mp hrefusal
        exact Nat.lt_of_not_le fun hmany => hnot (.tooMany hmany)
      have hback := hwellNested.comesBack_of_resume hcontrol
      -- What is above the resume ends, and then what is above that.
      have hends (length : Nat) : ∀ n,
          (m.after (n + 1)).activations.length ≤ length →
            ∃ n, m.IsBack next (m.after n) := by
        induction length with
        | zero =>
            intro n hlength
            exact absurd (List.eq_nil_of_length_eq_zero (Nat.le_zero.mp hlength))
              (h.neverAtRest.after (n + 1)).activations_ne
        | succ length ih =>
            intro n hlength
            rcases hback n with habove | ⟨j, -, hj, -⟩
            · have hdeeper := room_lt_of_above h.neverAtRest hroom
                (habove n (Nat.le_refl n))
              obtain ⟨k, hk⟩ := h.deeper _ (h.neverAtRest.after (n + 1)) hdeeper
              rw [← after_add, Nat.add_right_comm] at hk
              exact ih (n + k) (by omega)
            · exact ⟨j + 1, hj⟩
      exact hends _ 0 (Nat.le_refl _)

end Machine

end ScriptEngine
