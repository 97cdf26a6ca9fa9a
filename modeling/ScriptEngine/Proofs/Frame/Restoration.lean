import ScriptEngine.Proofs.Coroutine.History
import ScriptEngine.Proofs.Error.Passage
import ScriptEngine.Proofs.Frame.Answer
import ScriptEngine.Proofs.Frame.YieldedFrames
import ScriptEngine.Proofs.Frame.Enclosure

/-!
# Nested calls restore the processor

A host function that calls back into a script, a handler that is called in the
middle of an error and the host that calls a function of the main coroutine all
find their processor as they left it, whatever becomes of the call.  While it
lasts, what it has on the frames begins with one entry frame, which may be off
the frames as long as the call it belongs to is being dealt with.
-/

namespace ScriptEngine

variable {H : HostTypes}

namespace Machine

/-! ## Loops further out -/

/-- The loop below some activations: what it is in the middle of, and the frames
of its processor. -/
def outward : LoopPhase → List Frame → List (Activation H) → LoopPhase × List Frame
  | s, frames, [] => (s, frames)
  | _, frames, .call mark waiter :: rest =>
      outward waiter.phase (frames.drop (frames.length - mark.frames)) rest
  | _, _, .body :: rest => outward .empty [] rest
  | _, _, .switch _ outer _ :: rest => outward .working outer.frames.items rest

variable {inner activations : List (Activation H)}

theorem outward_append (s : LoopPhase) (frames : List Frame) :
    outward s frames (inner ++ activations) =
      outward (outward s frames inner).1 (outward s frames inner).2 activations := by
  induction inner generalizing s frames with
  | nil => rfl
  | cons a rest ih =>
      cases a with
      | call mark waiter => exact ih _ _
      | body => exact ih _ _
      | switch r outer next => exact ih _ _

theorem drop_append_length (above below : List Frame) :
    (above ++ below).drop ((above ++ below).length - below.length) = below := by
  rw [List.length_append, Nat.add_sub_cancel, List.drop_left]

theorem StandsOn.outward {s : LoopPhase} {n : Nat} {frames : List Frame}
    (h : StandsOn s (inner ++ activations) n frames) :
    ∃ n', StandsOn (Machine.outward s frames inner).1 activations n'
      (Machine.outward s frames inner).2 := by
  induction inner generalizing s n frames with
  | nil => exact ⟨n, h⟩
  | cons a rest ih =>
      cases a with
      | call mark waiter =>
          obtain ⟨outer, above, below, -, rfl, hbelow, -, hrest⟩ := h
          unfold Machine.outward
          rw [← hbelow, drop_append_length]
          exact ih hrest
      | body => exact ih h.2.2
      | switch r outer next => exact ih h.2.2

theorem WellFramed.outward {m : Machine H} (hm : m.WellFramed)
    (h : m.activations = inner ++ activations) (hloop : InLoop activations) :
    ∃ n, StandsOn
      (Machine.outward (m.control.phase m.core.proc)
        m.core.proc.frames.items inner).1 activations n
      (Machine.outward (m.control.phase m.core.proc)
        m.core.proc.frames.items inner).2 := by
  have hseated := hm.seated
  unfold Seated at hseated
  rw [h] at hseated
  cases hcontrol : m.control with
  | switching exit =>
      rw [hcontrol] at hseated
      obtain ⟨r, outer, next, rest, hswitch, hrest, -⟩ := hseated
      cases inner with
      | nil =>
          rw [List.nil_append] at hswitch
          rw [hswitch] at hloop
          exact absurd hloop InLoop.ne_switch
      | cons a inner =>
          obtain ⟨rfl, rfl⟩ := List.cons.inj hswitch
          have hbeneath : StandsOn .working (inner ++ activations) outer.nesting
              outer.frames.items := hrest
          have houtward := StandsOn.outward hbeneath
          exact houtward
  | _ =>
      rw [hcontrol] at hseated
      exact StandsOn.outward hseated

variable {k : Enclosure H}

/-- Nested loops leave of their processor's frames what is below them. -/
theorem outward_suffix {calls : List (Activation H)} (hcalls : k.Spans calls)
    (s : LoopPhase) (frames : List Frame) :
    (outward s frames calls).2 <:+ frames := by
  induction calls generalizing s frames with
  | nil => exact List.suffix_refl _
  | cons a calls ih =>
      obtain ⟨mark, waiter, rfl, -, -⟩ := hcalls a List.mem_cons_self
      exact (ih (encloses_tail hcalls) _ _).trans (List.drop_suffix _ _)

/-- The frames that were there when the call began are right below its own. -/
theorem outward_of_lasts {m : Machine H} (hm : m.WellFramed) (h : k.Lasts m) :
    ∃ inner above, m.activations = inner ++ k.loop ∧
      (outward (m.control.phase m.core.proc) m.core.proc.frames.items
        inner).2 = above ++ k.below ∧
      (outward (m.control.phase m.core.proc) m.core.proc.frames.items
        inner).1.Fits above := by
  have hsplit {inner : List (Activation H)} (hinner : m.activations = inner ++ k.loop)
      {frames : List Frame} (hbelow : k.below <:+ frames)
      (hframes : (outward (m.control.phase m.core.proc)
        m.core.proc.frames.items inner).2 <:+ frames) :
      ∃ inner above, m.activations = inner ++ k.loop ∧
        (outward (m.control.phase m.core.proc) m.core.proc.frames.items
          inner).2 = above ++ k.below ∧
        (outward (m.control.phase m.core.proc) m.core.proc.frames.items
          inner).1.Fits above := by
    obtain ⟨n, outer, above, below, -, hitems, hlength, hfits, -⟩ :=
      hm.outward hinner (.call k.mark k.waiter k.outer)
    have hsuffix : below <:+ frames := by
      refine List.IsSuffix.trans ?_ hframes
      rw [hitems]
      exact List.suffix_append above below
    have hsame : below = k.below := by
      have hlengths : below.length = k.below.length := hlength.trans k.frames_eq.symm
      exact (List.suffix_of_suffix_length_le hsuffix hbelow
        (Nat.le_of_eq hlengths)).eq_of_length hlengths
    rw [hsame] at hitems
    exact ⟨inner, above, hinner, hitems, hfits⟩
  cases h with
  | executing calls hcalls h hholds =>
      obtain ⟨above, hover⟩ := hholds.spared
      refine hsplit h ?_ (outward_suffix hcalls _ _)
      rw [hover.frames]
      exact List.suffix_append above k.below
  | waiting inner r outer next calls hcalls h hholds =>
      obtain ⟨above, hover⟩ := hholds.spared
      have hinner : m.activations = (inner ++ .switch r outer next :: calls) ++ k.loop := by
        rw [h, List.append_assoc]
        rfl
      have hbelow : k.below <:+ outer.frames.items := by
        rw [hover.frames]
        exact List.suffix_append above k.below
      refine hsplit hinner hbelow ?_
      rw [outward_append]
      exact outward_suffix hcalls _ _

/-! ## Runs -/

section

variable [Host H] [LawfulHost H] {m : Machine H}

/-- A nested call lasts until it ends with what it found. -/
theorem Reachable.encloses (h : m.Reachable) (hk : k.Lasts m) (n : Nat)
    (hcontained : k.operands = [] ∨ ∀ i < n, (m.after i).SelfContained) :
    (∀ i ≤ n, k.Lasts (m.after i)) ∨
      ∃ j < n, k.Left (m.after (j + 1)) ∧ ∀ i ≤ j, k.Lasts (m.after i) := by
  refine keeps_or_ends (P := fun i => k.Lasts (m.after i)) (Q := fun i => k.Left (m.after i))
    hk n fun i hi hlasts => ?_
  have hreach := h.after i
  have hsparing := hcontained.imp_right fun h => (h i hi).sparing
  exact hlasts.next hreach.wellNested hreach.wellFramed hreach.bounded hsparing

end

/-! ## The call from its beginning -/

/-- The mark of a call that is about to begin. -/
def mark (m : Machine H) : LoopMark :=
  ⟨m.core.proc.ip, m.core.proc.chunk?, m.core.proc.frames.height,
    m.core.proc.stack.height⟩

/-- The call that begins in `m` goes on: of the frames its loop has and the call
that is being dealt with, exactly one begins the loop, and right below them are
the frames there were. -/
def WithinCall (m : Machine H) (waiter : Waiter H) (m' : Machine H) : Prop :=
  ∃ inner above,
    m'.activations = inner ++ .call m.mark waiter :: m.activations ∧
      (outward (m'.control.phase m'.core.proc) m'.core.proc.frames.items
        inner).2 = above ++ m.core.proc.frames.items ∧
      (outward (m'.control.phase m'.core.proc) m'.core.proc.frames.items
        inner).1.Fits above

/-- The call that began in `m` has a result, and the processor is as it was. -/
structure Restores (m : Machine H) (waiter : Waiter H) (m' : Machine H) : Prop where
  activations : m'.activations = m.activations
  control : ∃ result, m'.control = .answering waiter result
  frames : m'.core.proc.frames = m.core.proc.frames
  ip : m'.core.proc.ip = m.core.proc.ip
  chunk : m'.core.proc.chunk? = m.core.proc.chunk?
  nesting : m'.core.proc.nesting = m.core.proc.nesting
  yielded : m'.core.proc.yielded? = none
  operands : m'.core.proc.stack.height ≤ m.core.proc.stack.height

/-- What the call that begins in `m` has to leave alone. -/
def enclosure (m : Machine H) (waiter : Waiter H) (operands : List Value)
    (h : operands <:+ m.core.proc.stack.items) : Enclosure H where
  mark := m.mark
  waiter := waiter
  outer := m.activations
  below := m.core.proc.frames.items
  operands := operands
  canYield := m.core.proc.canYield
  frames_eq := m.core.proc.frames.height_eq.symm
  operands_le := by
    have hlength := h.length_le
    rw [← m.core.proc.stack.height_eq] at hlength
    exact hlength

variable [Host H] {m : Machine H} {function : Value} {args : List Value}
  {waiter : Waiter H} {operands : List Value}

/-- The call is refused at once, or it begins with all there was below it. -/
theorem begins_calling (hcontrol : m.control = .calling function args waiter)
    (h : operands <:+ m.core.proc.stack.items) :
    m.next = ⟨m.core, m.activations,
        .answering waiter (.error (.script .stackOverflow))⟩ ∨
      (m.enclosure waiter operands h).Lasts m.next := by
  rw [next_of_calling hcontrol]
  rcases beginCall_cases m.core m.activations function args waiter with hbegin | ⟨-, hbegin⟩
  all_goals rw [hbegin]
  · exact Or.inl rfl
  · have hcalled := Exec.called_call function args { entryPoint := true } m.core.proc.ip {}
      m.core.nested
    have hover : m.core.proc.Over operands [] m.core.proc.frames.items :=
      ⟨rfl, by simp, h⟩
    right
    refine .executing [] (by simp [Enclosure.Spans]) (exec_activations _ _ _) ?_
    rw [exec_core]
    exact ⟨hcalled.over (hover.of_same rfl rfl), hcalled.keeps.canYield⟩

omit [Host H] in
/-- All loops since the call began are still there. -/
theorem length_of_lasts {k : Enclosure H} (h : k.Lasts m) :
    k.outer.length < m.activations.length := by
  have hloop : k.loop.length = k.outer.length + 1 := rfl
  cases h with
  | executing calls hcalls h hholds =>
      rw [h, List.length_append]
      omega
  | waiting inner r outer next calls hcalls h hholds =>
      rw [h, List.length_append, List.length_cons, List.length_append]
      omega

omit [Host H] in
theorem activations_ne_of_lasts {k : Enclosure H} (h : k.Lasts m) :
    m.activations ≠ k.outer := by
  intro hsame
  have hlong := length_of_lasts h
  rw [hsame] at hlong
  exact absurd hlong (Nat.lt_irrefl _)

variable [LawfulHost H]

theorem restores_of_left (h : m.Reachable)
    (hcontrol : m.control = .calling function args waiter)
    (hown : m.core.proc.canYield = true → m.core.proc.nesting ≠ 0)
    {hoperands : operands <:+ m.core.proc.stack.items} {m' : Machine H}
    (h' : m'.Reachable) (hleft : (m.enclosure waiter operands hoperands).Left m') :
    m.Restores waiter m' := by
  obtain ⟨result, hanswer⟩ := hleft.control
  have hstands := h.wellFramed.seated
  unfold Seated at hstands
  rw [hcontrol] at hstands
  have hstands' := h'.wellFramed.seated
  unfold Seated at hstands'
  rw [hanswer, hleft.activations] at hstands'
  have hfits := h.wellNested.control
  rw [hcontrol] at hfits
  refine
    { activations := hleft.activations
      control := ⟨result, hanswer⟩
      frames := Stack.ext hleft.frames
      ip := hleft.ip
      chunk := hleft.chunk
      nesting := StandsOn.nesting_eq hstands' hstands
      yielded := h'.yieldedFits.yielded_none hanswer ?_
      operands := hleft.height }
  rintro rfl
  rw [hleft.canYield]
  change m.core.proc.canYield = false
  have hidle : m.core.proc.nesting = 0 := by
    have hswitch : AtSwitch m.activations := hfits
    obtain ⟨core, activations, control⟩ := m
    cases hswitch
    exact hstands.1
  cases hcan : m.core.proc.canYield with
  | false => rfl
  | true => exact absurd hidle (hown hcan)

/-- A call in which every instruction keeps to its frame's operands ends with all the operands
there were. -/
theorem Reachable.left_of_contained (h : m.Reachable)
    (hcontrol : m.control = .calling function args waiter) {j : Nat}
    {hoperands : operands <:+ m.core.proc.stack.items}
    (hlasts : ∀ i ≤ j, (m.enclosure waiter operands hoperands).Lasts (m.next.after i))
    (hleft : (m.enclosure waiter operands hoperands).Left (m.after (j + 2)))
    (hcontained : ∀ i ≤ j + 1, (m.after i).SelfContained) :
    (m.enclosure waiter m.core.proc.stack.items (List.suffix_refl _)).Left
      (m.after (j + 2)) := by
  rcases begins_calling hcontrol (List.suffix_refl _) with hrefused | hbegins
  · have hsame : m.next.activations = m.activations := by rw [hrefused]
    exact absurd hsame (activations_ne_of_lasts (hlasts 0 (Nat.zero_le j)))
  · have hcontained' : ∀ i < j + 1, (m.next.after i).SelfContained := by
      intro i hi
      rw [after_next]
      exact hcontained (i + 1) hi
    -- The call that has all the operands below it ends in the same step.
    rcases h.next.encloses hbegins (j + 1) (Or.inr hcontained') with
      hstill | ⟨i, hi, hleft', -⟩
    · have hlast := hstill (j + 1) (Nat.le_refl _)
      rw [after_next] at hlast
      exact (activations_ne_of_lasts hlast hleft.activations).elim
    · rcases Nat.lt_or_eq_of_le (Nat.le_of_lt_succ hi) with hlt | rfl
      · exact (activations_ne_of_lasts (hlasts (i + 1) hlt) hleft'.activations).elim
      · rwa [after_next] at hleft'

/-- Whatever is called by a host function, by the machine in the middle of an
error or by the host on an idle processor, and whatever becomes of the call: as
long as it lasts its loop has one entry frame above the frames there were, and
when it ends the frames, the place in the code and the depth of the loops are the
same as before, no frame is left set aside, and there are no more operands.  They
are the same as before if no instruction in between has used operands below its
own frame.  A coroutine's own call of a host function is not such a call. -/
theorem Reachable.restores (h : m.Reachable)
    (hcontrol : m.control = .calling function args waiter)
    (hown : m.core.proc.canYield = true → m.core.proc.nesting ≠ 0) (n : Nat) :
    (∀ i ≤ n, m.WithinCall waiter (m.after (i + 1))) ∨
      ∃ j ≤ n, m.Restores waiter (m.after (j + 1)) ∧
        (∀ i < j, m.WithinCall waiter (m.after (i + 1))) ∧
        ((∀ i ≤ j, (m.after i).SelfContained) →
          (m.after (j + 1)).core.proc.stack = m.core.proc.stack) := by
  have hyieldedFits := h.yieldedFits.yieldedFitsInFlight.control
  rw [hcontrol] at hyieldedFits
  have hwithin {operands : List Value}
      {hoperands : operands <:+ m.core.proc.stack.items} {i : Nat}
      (hlasts : (m.enclosure waiter operands hoperands).Lasts (m.next.after i)) :
      m.WithinCall waiter (m.after (i + 1)) := by
    rw [after_next] at hlasts
    exact outward_of_lasts (h.after (i + 1)).wellFramed hlasts
  -- With no operands to keep, so that the call ends whatever its instructions take.
  rcases begins_calling hcontrol List.nil_suffix with hrefused | hbegins
  · right
    refine ⟨0, Nat.zero_le n, ?_, fun i hi => absurd hi (Nat.not_lt_zero i), ?_⟩
    · change m.Restores waiter m.next
      rw [hrefused]
      exact ⟨rfl, ⟨_, rfl⟩, rfl, rfl, rfl, rfl, hyieldedFits, Nat.le_refl _⟩
    · intro _
      change m.next.core.proc.stack = _
      rw [hrefused]
  · rcases h.next.encloses hbegins n (Or.inl rfl) with hlasts | ⟨j, hj, hleft, hlasts⟩
    · exact Or.inl fun i hi => hwithin (hlasts i hi)
    · right
      rw [after_next] at hleft
      refine ⟨j + 1, hj, restores_of_left h hcontrol hown (h.after _) hleft,
        fun i hi => hwithin (hlasts i (Nat.le_of_lt_succ hi)), fun hcontained => ?_⟩
      have hends := h.left_of_contained hcontrol hlasts hleft hcontained
      have hle := hends.operands.length_le
      have hheight : (m.after (j + 2)).core.proc.stack.height ≤
          m.core.proc.stack.height := hleft.height
      -- All operands are still below, and there are no more.
      refine Stack.ext (hends.operands.eq_of_length ?_).symm
      rw [Stack.height_eq, Stack.height_eq] at hheight
      exact Nat.le_antisymm hle hheight

/-! ## Entering the main coroutine -/

/-- The host calls a function of the library on its idle main coroutine, and the
main processor is idle again before the host is done. -/
theorem restores_entering :
    ((entering ⟨5⟩ [.native ⟨7⟩]).after 7).control =
        .calling (.native ⟨5⟩) [.native ⟨7⟩] .processor ∧
      (((entering ⟨5⟩ [.native ⟨7⟩]).after 7).core.proc.canYield = true →
        ((entering ⟨5⟩ [.native ⟨7⟩]).after 7).core.proc.nesting ≠ 0) ∧
      ∃ j ≤ 40, ((entering ⟨5⟩ [.native ⟨7⟩]).after 7).Restores .processor
        (((entering ⟨5⟩ [.native ⟨7⟩]).after 7).after (j + 1)) := by
  have hcontrol : ((entering ⟨5⟩ [.native ⟨7⟩]).after 7).control =
      .calling (.native ⟨5⟩) [.native ⟨7⟩] .processor := rfl
  have hown : ((entering ⟨5⟩ [.native ⟨7⟩]).after 7).core.proc.canYield = true →
      ((entering ⟨5⟩ [.native ⟨7⟩]).after 7).core.proc.nesting ≠ 0 := nofun
  refine ⟨hcontrol, hown, ?_⟩
  rcases (reachable_entering _ _ 7).restores hcontrol hown 40 with
    hwithin | ⟨j, hj, hrestores, -⟩
  · obtain ⟨inner, above, hactivations, -⟩ := hwithin 40 (Nat.le_refl 40)
    have hdone : (((entering ⟨5⟩ [.native ⟨7⟩]).after 7).after 41).activations = [] :=
      rfl
    rw [hdone] at hactivations
    exact absurd hactivations.symm (by simp)
  · exact ⟨j, hj, hrestores⟩

end Machine

end ScriptEngine
