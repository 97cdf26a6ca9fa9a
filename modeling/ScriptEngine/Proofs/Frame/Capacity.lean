import ScriptEngine.Proofs.Error.Passage
import ScriptEngine.Proofs.Frame.Resources

/-!
# Limits on the whole machine

Besides the main coroutine no more coroutines are in flight than loops may nest on
one processor, since every other one is counted when it is resumed.  The main one
may come in addition at any time, but only once.  So all loops of all coroutines are
limited as well.  What is refused for want of room fails with a stack overflow,
which is an error of scripts.
-/

namespace ScriptEngine

variable {H : HostTypes}

/-- The coroutines in flight but the main one. -/
def World.guests (w : World H) : List CoroutineRef :=
  w.inFlight.filter (· != w.main)

/-- The loops that run on processors of coroutines; those of the host itself have no
switch below. -/
def coroutineLoops : List (Activation H) → Nat
  | .switch _ _ _ :: rest => coroutineLoops rest
  | .call _ _ :: rest => coroutineLoops rest + if switches rest = [] then 0 else 1
  | .body :: rest => coroutineLoops rest + if switches rest = [] then 0 else 1
  | [] => 0

/-- A call that found no room: its own error handler answers, if it has one, else the
loop in which it was made has an error to deal with. -/
def Handlers.overflowing (handlers : Handlers) (flags : FrameFlags) (returnAddress : Nat) :
    Control H :=
  match handlers.errorHandler? with
  | some handler =>
      .loop (.recover .stackOverflow handlers.beforeUnwind? handler flags returnAddress)
  | .none => .failed (.script .stackOverflow)

namespace Machine

variable {m : Machine H}

/-- All limits of the settings are kept to. -/
structure KeepsLimits (m : Machine H) : Prop where
  processors : m.Everywhere Processor.Within
  loops (below : List (Activation H)) (h : below <:+ m.activations) :
    loopsAt below ≤ m.core.world.settings.maxNativeNesting
  guests : m.core.world.guests.length ≤ m.core.world.settings.maxNativeNesting
  inFlight : m.core.world.inFlight.length ≤ m.core.world.settings.maxNativeNesting + 1
  total : coroutineLoops m.activations ≤
    m.core.world.settings.maxNativeNesting * (m.core.world.settings.maxNativeNesting + 1)

/-- Where there is no room, there is a stack overflow, and nothing else happens. -/
structure Overflows (H : HostTypes) [Host H] : Prop where
  frames {core : Core H} {activations : List (Activation H)} {function : Value}
    {args : List Value} {callee : Callee × List Value} (flags : FrameFlags)
    (returnAddress : Nat) (handlers : Handlers)
    (hcallee : core.world.callee maxCallHops function.toScalar (flattenArgs args) =
      .ok callee)
    (hfull : core.world.settings.maxCallDepth ≤ core.proc.frames.height) :
    exec .loop (Exec.call function args flags returnAddress handlers) core activations =
      ⟨core, activations, handlers.overflowing flags returnAddress⟩
  loops {m : Machine H} {function : Value} {args : List Value} {waiter : Waiter H}
    (hcontrol : m.control = .calling function args waiter)
    (hfull : m.core.world.settings.maxNativeNesting ≤ m.core.proc.nesting) :
    m.next = ⟨m.core, m.activations, .answering waiter (.error (.script .stackOverflow))⟩
  coroutines {m : Machine H} {r : CoroutineRef} {args : List Value}
    {next : Except RuntimeError Value → Action H NativeOutcome}
    (hcontrol : m.control = .running (.resume r args next))
    (hready : m.core.world.Ready r (m.core.world.coroutine r))
    (hother : r ≠ m.core.world.main)
    (hargs : (m.core.world.coroutine r).state = .forceSuspended → args = [])
    (hfull : m.core.world.settings.maxNativeNesting ≤ m.core.world.inFlight.length) :
    m.next = ⟨m.core, m.activations, .running (next (.error (.script .stackOverflow)))⟩

/-! ## Loops -/

/-- The loops of every processor are as many as it counts. -/
theorem loopsAt_le_of_standsOn {n : Nat} {activations : List (Activation H)}
    {s : LoopPhase} {nesting : Nat} {frames : List Frame}
    (h : StandsOn s activations nesting frames) (hnesting : nesting ≤ n)
    (hwaiting : ∀ r outer next, .switch r outer next ∈ activations → outer.nesting ≤ n)
    {below : List (Activation H)} (hbelow : below <:+ activations) :
    loopsAt below ≤ n := by
  induction activations generalizing s nesting frames with
  | nil =>
      rw [List.suffix_nil.mp hbelow]
      exact Nat.zero_le n
  | cons a rest ih =>
      rcases List.suffix_cons_iff.mp hbelow with rfl | hrest
      · rw [← h.loopsAt_eq]
        exact hnesting
      · have hothers r outer next (hmem : .switch r outer next ∈ rest) :=
          hwaiting r outer next (List.mem_cons_of_mem a hmem)
        cases a with
        | call mark waiter =>
            obtain ⟨outer, above, lower, rfl, -, -, -, h⟩ := h
            exact ih h (Nat.le_of_succ_le hnesting) hothers hrest
        | body => exact ih h.2.2 (Nat.zero_le n) hothers hrest
        | switch r outer next =>
            exact ih h.2.2 (hwaiting r outer next List.mem_cons_self) hothers hrest

theorem loopsAt_le [Host H] [LawfulHost H] (h : m.Reachable)
    {below : List (Activation H)} (hbelow : below <:+ m.activations) :
    loopsAt below ≤ m.core.world.settings.maxNativeNesting := by
  have heverywhere := h.within
  have hseated := h.wellFramed.seated
  have hwaiting r outer next (hmem : .switch r outer next ∈ m.activations) :=
    (heverywhere.waiting r outer next hmem).loops
  obtain ⟨core, activations, control⟩ := m
  cases control with
  | switching exit =>
      -- the coroutine that gives way has left its loops
      obtain ⟨r, outer, next, rest, rfl, hstands, -⟩ := hseated
      rcases List.suffix_cons_iff.mp hbelow with rfl | hrest
      · exact Nat.zero_le _
      · exact loopsAt_le_of_standsOn hstands (hwaiting r outer next List.mem_cons_self)
          (fun s p f hmem => hwaiting s p f (List.mem_cons_of_mem _ hmem)) hrest
  | _ => exact loopsAt_le_of_standsOn hseated heverywhere.atHand.loops hwaiting hbelow

theorem coroutineLoops_of_no_switch {activations : List (Activation H)}
    (h : switches activations = []) : coroutineLoops activations = 0 := by
  induction activations with
  | nil => rfl
  | cons a rest ih =>
      cases a with
      | call mark waiter => simp [coroutineLoops, ih h, show switches rest = [] from h]
      | body => simp [coroutineLoops, ih h, show switches rest = [] from h]
      | switch r outer next => cases h

/-- The innermost coroutine has just the loops that are on its processor. -/
theorem coroutineLoops_add_le {n : Nat} {activations : List (Activation H)}
    (h : ∀ below, below <:+ activations → loopsAt below ≤ n)
    (hswitch : switches activations ≠ []) :
    coroutineLoops activations + n ≤
      loopsAt activations + n * (switches activations).length := by
  induction activations with
  | nil => exact absurd rfl hswitch
  | cons a rest ih =>
      have hrest := ih fun below hbelow => h below (hbelow.trans (List.suffix_cons a rest))
      cases a with
      | call mark waiter =>
          have hinner := hrest hswitch
          simp only [coroutineLoops, loopsAt]
          change _ ≤ _ + n * (switches rest).length
          split <;> omega
      | body =>
          have hinner := hrest hswitch
          simp only [coroutineLoops, loopsAt]
          change _ ≤ _ + n * (switches rest).length
          split <;> omega
      -- What waits below a switch is another coroutine, with its own share of loops.
      | switch r outer next =>
          have hwaits := h rest (List.suffix_cons _ rest)
          change coroutineLoops rest + n ≤ 0 + n * ((switches rest).length + 1)
          rw [Nat.mul_succ]
          by_cases hlast : switches rest = []
          · rw [coroutineLoops_of_no_switch hlast]
            omega
          · have hinner := hrest hlast
            omega

theorem coroutineLoops_le {n : Nat} {activations : List (Activation H)}
    (h : ∀ below, below <:+ activations → loopsAt below ≤ n) :
    coroutineLoops activations ≤ n * (switches activations).length := by
  by_cases hswitch : switches activations = []
  · rw [coroutineLoops_of_no_switch hswitch]
    exact Nat.zero_le _
  · have hadd := coroutineLoops_add_le h hswitch
    have hinner := h activations List.suffix_rfl
    omega

/-! ## Coroutines in flight -/

theorem guests_of_extends {w w' : World H} (h : w.Extends w') : w'.guests = w.guests := by
  simp only [World.guests, h.inFlight, h.main]

/-- The main coroutine is in flight at most once. -/
theorem length_inFlight_le_guests {w : World H} (h : w.Scheduled) :
    w.inFlight.length ≤ w.guests.length + 1 := by
  unfold World.guests
  rw [← h.distinct.erase_eq_filter, List.length_erase]
  split <;> omega

theorem guests_engage_main (w : World H) : (w.engage w.main).guests = w.guests := by
  simp [World.guests]

theorem guests_engage_le (w : World H) (r : CoroutineRef) :
    (w.engage r).guests.length ≤ w.inFlight.length + 1 := by
  unfold World.guests
  rw [World.inFlight_engage]
  exact List.length_filter_le _ _

theorem guests_next [Host H] [LawfulHost H] (hm : m.WellNested)
    (h : m.core.world.guests.length ≤ m.core.world.settings.maxNativeNesting) :
    m.next.core.world.guests.length ≤ m.core.world.settings.maxNativeNesting := by
  cases turn_next hm.control with
  | stays hworld =>
      rw [guests_of_extends hworld]
      exact h
  | enters hworld =>
      rw [guests_of_extends hworld]
      exact h
  | leaves hworld =>
      rw [hworld]
      exact h
  | engages r c hready p hp hproc next hworld loops hloops hactivations hfrom =>
      rcases hfrom with ⟨args, hcontrol⟩ | rfl
      · cases hrefusal : m.core.world.resumeRefusal? r args with
        | some e =>
            -- a coroutine that is refused is not engaged
            have hinFlight := congrArg (·.core.world.inFlight.length)
              (next_of_refusal hcontrol hrefusal)
            simp [hworld] at hinFlight
        | none =>
            have hroom := World.length_inFlight_lt hrefusal
            have hguests := guests_engage_le m.core.world r
            rw [hworld]
            omega
      · rw [hworld, guests_engage_main]
        exact h
  | releases r next exit hexit hworld =>
      have hfewer : (m.core.world.release r m.core.proc exit).guests.length ≤
          m.core.world.guests.length := by
        unfold World.guests
        rw [World.inFlight_release, World.main_release]
        exact ((List.tail_sublist _).filter _).length_le
      rw [hworld]
      omega

theorem Reachable.guests_le [Host H] [LawfulHost H] (h : m.Reachable) :
    m.core.world.guests.length ≤ m.core.world.settings.maxNativeNesting := by
  induction h with
  | start settings host ha =>
      have hidle : (World.start settings host).inFlight = [] :=
        (Reachable.start settings host ha).wellNested.inFlight
      simp [World.guests, Machine.start, hidle]
  | next h ih =>
      rw [(turn_next h.wellNested.control).retains.settings]
      exact guests_next h.wellNested ih
  | again h hfinished hw ha ih =>
      dsimp only [Machine.start]
      rw [guests_of_extends hw, hw.settings]
      exact ih

/-! ## Refusals -/

theorem resumeRefusal?_of_full {w : World H} {r : CoroutineRef} {args : List Value}
    (hready : w.Ready r (w.coroutine r)) (hother : r ≠ w.main)
    (hargs : (w.coroutine r).state = .forceSuspended → args = [])
    (hfull : w.settings.maxNativeNesting ≤ w.inFlight.length) :
    w.resumeRefusal? r args = some (.script .stackOverflow) := by
  have hsuspended := hready.state hother
  have hrests := hready.resting
  have halive : (w.coroutine r).state ≠ .dead := by
    intro hdead
    rw [hdead] at hsuspended
    cases hsuspended
  simp only [World.resumeRefusal?]
  rw [if_neg halive, if_neg (by simp [hsuspended]), if_neg, if_neg (by simpa using hrests),
    if_pos hfull]
  by_cases hforced : (w.coroutine r).state = .forceSuspended
  · simp [hargs hforced]
  · simp [hforced]

theorem overflows [Host H] [LawfulHost H] : Overflows H where
  frames {core activations function args callee} flags returnAddress handlers hcallee
      hfull := by
    unfold exec
    rw [Exec.call, Exec.run_bind_of_ok (Exec.ask_run _ core), hcallee]
    dsimp only
    rw [Exec.enter, Exec.run_bind_of_ok (Exec.askProc_run _ core),
      Exec.run_bind_of_ok (Exec.ask_run _ core), if_pos hfull]
    unfold Exec.failCall Handlers.overflowing
    cases handlers.errorHandler? <;> rfl
  loops hcontrol hfull := next_of_crowded hcontrol hfull
  coroutines hcontrol hready hother hargs hfull :=
    next_of_refusal hcontrol (resumeRefusal?_of_full hready hother hargs hfull)

/-- In every state of every history the limits are kept to, whatever is called, yields, is
resumed or fails, and what is refused for them fails with an error that can be caught. -/
theorem Reachable.keepsLimits [Host H] [LawfulHost H] (h : m.Reachable) :
    m.KeepsLimits ∧ Overflows H ∧
      (RuntimeError.script .stackOverflow).isCatchable = true := by
  have hguests := h.guests_le
  have hinFlight := length_inFlight_le_guests h.wellNested.scheduled
  refine ⟨?_, overflows, rfl⟩
  constructor
  · exact h.within
  · intro below hbelow
    exact loopsAt_le h hbelow
  · exact hguests
  · omega
  · calc coroutineLoops m.activations
        ≤ m.core.world.settings.maxNativeNesting * (switches m.activations).length :=
          coroutineLoops_le fun _ hbelow => loopsAt_le h hbelow
      _ ≤ _ := by
          rw [← h.wellNested.inFlight]
          exact Nat.mul_le_mul_left _ (by omega)

/-- A function of the library runs on the main coroutine, the only one in flight. -/
theorem keepsLimits_entering :
    ((entering ⟨5⟩ [.native ⟨8⟩]).after 14).Reachable ∧
      switches ((entering ⟨5⟩ [.native ⟨8⟩]).after 14).activations = [⟨2⟩] ∧
      coroutineLoops ((entering ⟨5⟩ [.native ⟨8⟩]).after 14).activations = 1 ∧
      ((entering ⟨5⟩ [.native ⟨8⟩]).after 14).KeepsLimits := by
  refine ⟨?_, rfl, rfl, ?_⟩
  · exact reachable_entering _ _ 14
  · exact (reachable_entering _ _ 14).keepsLimits.1

end Machine

end ScriptEngine
