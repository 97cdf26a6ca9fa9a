import ScriptEngine.Proofs.Budget.Pauses
import ScriptEngine.Proofs.Polling.Requests
import ScriptEngine.Proofs.TailCall.ControlSteps

/-!
# Calls in place of their frame make no difference

A run whose calls take the place of their frames and one whose calls keep them come to the same
result, by way of the same worlds.
-/

namespace ScriptEngine

variable {H : HostTypes}

namespace Machine

section

variable [Host H] {m m' : Machine H}

omit [Host H] in
/-- Only what goes to a frame that has waited is settled any further. -/
theorem settle_cases (core : Core H) (activations : List (Activation H)) (o : Outcome) :
    (∃ f v, o = .finish f v) ∨
      settle core activations o = ⟨core, activations, .loop o⟩ := by
  cases o with
  | finish f v => exact Or.inl ⟨f, v, rfl⟩
  | _ => exact Or.inr rfl

section

variable {G G' L M' : Layout} {c c' : Core H} {as bs : List (Activation H)}

/-- The answer of a handler has been settled on one side only: what goes to a frame that has
waited goes there now, and any other outcome takes the next step. -/
theorem matchesLater_settled [LawfulHost H] [BlindHost H] {o o' : Outcome}
    (h : Faces G G' L M' c c')
    (ho : Outcomes c.world G.operands.length G'.operands.length c.proc c'.proc L M' o o')
    (hawaits : o.Awaits) (hloops : Loops c.world as bs G G')
    (hquiet : (settle c as o).Quiet) (hown : (settle c as o).SelfContained)
    (hpasses₀ : PassesOn ⟨c, as, .settling o⟩ ⟨c', bs, .loop o'⟩)
    (hpasses : (settle c as o).PassesOn ⟨c', bs, .loop o'⟩)
    (hquiet' : Undisturbed ⟨c', bs, .loop o'⟩) :
    MatchesLater (settle c as o) (keepingNext ⟨c', bs, .loop o'⟩) ∨
      MatchesLater (settle c as o).next (keepingNext ⟨c', bs, .loop o'⟩) := by
  rcases settle_cases c as o with ⟨f, v, rfl⟩ | hsettled
  · left
    cases ho with
    | @finish L' _ g hplaced hlayouts hframes _ =>
      refine matchesLater_finish .settled h hlayouts hframes hloops (hpasses₀ f v ?_) hquiet'.next
      exact ⟨Or.inr rfl, ⟨g, Or.inl rfl⟩, hawaits f v rfl, h.world, Or.inr ⟨rfl, _, rfl⟩⟩
  · right
    rw [hsettled] at hquiet hown hpasses ⊢
    exact matchesLater_afterOutcome h ho hloops hquiet hown hpasses hquiet'

theorem matchesKeeping_switching {exit exit' : Except RuntimeError LoopExit}
    (h : Faces G G' L M' c c')
    (hloops : Loops c.world as bs G G') (hexit : Concurs exit exit')
    (hrests : ∀ r q next rest co, as = .switch r q next :: rest → c.world.coroutine? r = some co →
      RestsAlike c.world (co.state.after exit) c.proc c'.proc)
    (hm : WellNested ⟨c, as, .switching exit⟩) :
    MatchesKeeping (switchBack c as exit) (switchBack c' bs exit') := by
  have hinFlight := hm.inFlight
  obtain ⟨r, outer, next, rest, rfl, -⟩ := hm.control
  obtain ⟨co, hco⟩ := hm.scheduled.present r (by rw [hinFlight]; exact List.mem_cons_self)
  cases id hloops with
  | switch =>
      exact matchesKeeping_switchBack h hloops hco hexit (hrests r outer next rest co rfl hco)

/-- A function has given a value at once, in the loop or with no loop open. -/
theorem matchesLater_given {f : Frame} (h : Faces G G' L M' c c')
    (hlayouts : LayoutsMatch c.world.ReturnsAt G.operands.length G'.operands.length L M')
    (htop : L.frames.head? = some f) (hnative : f.callee.isFunction = false)
    (hhandlers : f.handlers = {}) (hloops : Loops c.world as bs G G') (hin : ActsIn as) (v : Value)
    (hquiet : (act c' bs (.done (.result v))).Undisturbed) :
    MatchesLater (act c as (.done (.result v))) (act c' bs (.done (.result v))) := by
  rcases hin with rfl | hin
  · obtain rfl := hloops.eq_nil_iff.mp rfl
    exact (MatchesKeeping.mk h hloops (.finished (.refl _))).matchesLater
  · rw [act_done (hloops.inLoop hin)] at hquiet ⊢
    rw [act_done hin]
    exact matchesLater_confirmed h hlayouts htop hnative hhandlers hloops v hquiet

end

/-- Machines that match do so again after a step of the machine whose calls take the
place of frames, or after another one if the answer of a handler has just been settled. -/
theorem MatchesKeeping.step [LawfulHost H] [BlindHost H] (h : MatchesKeeping m m')
    (hm : m.WellNested)
    (hquiet : ∀ i, (m.after i).Quiet) (hown : ∀ i, (m.after i).SelfContained)
    (hpasses : ∀ i, (m.after i).PassesOn m') (hquiet' : m'.Undisturbed) :
    ∃ i, MatchesLater (m.after (i + 1)) m'.keepingNext := by
  have hroom := (hquiet 0).room
  have hroom' := (hquiet' 0).room
  have hnext' := hquiet'.next
  obtain @⟨G, G', L, M', c, c', as, bs, control, control', h, hloops, hcontrol⟩ := h
  cases hcontrol with
  | loop ho =>
      exact ⟨0, matchesLater_afterOutcome h ho hloops (hquiet 0) (hown 0) (hpasses 0) hquiet'⟩
  | settling ho hawaits => exact ⟨0, matchesLater_settle h ho hawaits hloops (hpasses 0) hnext'⟩
  -- Only one side has settled; the other may be a step ahead.
  | settled ho hawaits =>
    rcases matchesLater_settled h ho hawaits hloops (hquiet 1) (hown 1) (hpasses 0) (hpasses 1)
      hquiet' with hnow | hnext
    · exact ⟨0, hnow⟩
    · exact ⟨1, hnext⟩
  | failed hplaced hlayouts hspends he =>
    exact ⟨0, (matchesKeeping_afterFailure h hplaced hlayouts hspends hloops he).matchesLater⟩
  | unwinding hplaced hlayouts hspends he decorators =>
    exact ⟨0, (matchesKeeping_unwinding h hplaced hlayouts hspends hloops he
      decorators).matchesLater⟩
  | calling hplaced hlayouts hwaits function args =>
    exact ⟨0, (matchesKeeping_beginCall h hplaced hlayouts hwaits hloops hroom hroom' function
      args).matchesLater⟩
  | returned hnil hnil' v =>
    exact ⟨0, (matchesKeeping_leave h hloops hm.nested hm.control
      (.returned hnil hnil' v)).matchesLater⟩
  | yielded hplaced hparks v =>
    exact ⟨0, (matchesKeeping_leave h hloops hm.nested hm.control
      (.yielded hplaced hparks v)).matchesLater⟩
  | raised he =>
      exact ⟨0, (matchesKeeping_leave h hloops hm.nested hm.control (.raised he)).matchesLater⟩
  | answering hplaced hlayouts hwaits hr =>
    exact ⟨0, matchesLater_answer h hplaced hlayouts hwaits hloops hm.control hr hnext'⟩
  | switching hexit hrests =>
      exact ⟨0, (matchesKeeping_switching h hloops hexit hrests hm).matchesLater⟩
  | running hplaced hlayouts hacts ha =>
    exact ⟨0, matchesLater_act h hplaced hlayouts hacts ha hloops hm.scheduled hm.control.1
      hm.control.2
      (Nat.lt_of_le_of_lt (Nat.zero_le _) hroom) hnext'⟩
  | confirmed hlayouts htop hnative hhandlers v =>
    exact ⟨0, matchesLater_given h hlayouts htop hnative hhandlers hloops hm.control.1 v hnext'⟩
  | finished hr => exact ⟨0, (MatchesKeeping.mk h hloops (.finished hr)).matchesLater⟩

end

/-! ## Whole runs -/

/-- No call finds the frames at their limit, nobody asks to stop and no budget is used up, in either
run.  Instructions keep to the operands of their frame.  A value that reaches a waiting frame while
the runs are apart is taken there without an error, and as well in another place. -/
structure Comparable [Host H] (m m' : Machine H) : Prop where
  quiet : ∀ n, (m.after n).Quiet
  undisturbed : m'.Undisturbed
  contained : ∀ n, (m.after n).SelfContained
  passes : ∀ i j, (m.after i).PassesOn (m'.keepingAfter j)

/-- The second machine, whose calls keep their frames, comes to what the first one comes to, by way
of worlds that are alike. -/
structure Agrees [Host H] (m m' : Machine H) : Prop where
  meets : ∀ n, ∃ i ≥ n, ∃ j ≥ n, (m.after i).core.world.Like (m'.keepingAfter j).core.world
  finishes : ∀ i r, (m.after i).control = .finished r →
    ∃ j r', (m'.keepingAfter j).control = .finished r' ∧ Concurs r r' ∧
      (m.after i).core.world.Like (m'.keepingAfter j).core.world
  finished : ∀ j r', (m'.keepingAfter j).control = .finished r' →
    ∃ i r, (m.after i).control = .finished r ∧ Concurs r r' ∧
      (m.after i).core.world.Like (m'.keepingAfter j).core.world

section

variable [Host H] {m m' : Machine H} {r r' : Except RuntimeError Value}

theorem Comparable.after (h : Comparable m m') (i j : Nat) :
    Comparable (m.after i) (m'.keepingAfter j) where
  quiet n := by
    rw [← after_add]
    exact h.quiet (i + n)
  undisturbed := h.undisturbed.after j
  contained n := by
    rw [← after_add]
    exact h.contained (i + n)
  passes k l := by
    rw [← after_add, ← keepingAfter_add]
    exact h.passes (i + k) (j + l)

theorem MatchesKeeping.world (h : MatchesKeeping m m') : m.core.world.Like m'.core.world := by
  cases h with
  | mk h hloops hcontrol => exact h.world

theorem MatchesKeeping.finishes (h : MatchesKeeping m m') (hm : m.control = .finished r) :
    ∃ r', m'.control = .finished r' ∧ Concurs r r' := by
  cases h with
  | mk h hloops hcontrol =>
    obtain rfl := hm
    cases hcontrol with
    | finished hr => exact ⟨_, rfl, hr⟩

theorem MatchesKeeping.finished (h : MatchesKeeping m m') (hm' : m'.control = .finished r') :
    ∃ r, m.control = .finished r ∧ Concurs r r' := by
  cases h with
  | mk h hloops hcontrol =>
    obtain rfl := hm'
    cases hcontrol with
    | finished hr => exact ⟨_, rfl, hr⟩

/-- However far they have come, machines that match do so again later on. -/
theorem MatchesKeeping.meets [LawfulHost H] [BlindHost H] (h : MatchesKeeping m m')
    (hm : m.WellNested)
    (hcomparable : Comparable m m') (n : Nat) :
    ∃ i ≥ n, ∃ j ≥ n, MatchesKeeping (m.after i) (m'.keepingAfter j) := by
  induction n with
  | zero => exact ⟨0, Nat.le_refl 0, 0, Nat.le_refl 0, h⟩
  | succ n ih =>
    obtain ⟨i, hi, j, hj, hmatches⟩ := ih
    have hthere := hcomparable.after i j
    obtain ⟨k, l, hagain⟩ := hmatches.step (hm.after i) hthere.quiet hthere.contained
      (fun k => hthere.passes k 0) hthere.undisturbed
    rw [keepingAfter_next, ← keepingAfter_add, ← after_add] at hagain
    exact ⟨i + (k + 1), by omega, j + (l + 1), by omega, hagain⟩

/-- Nothing happens any more. -/
theorem after_of_finished {i k : Nat} (h : (m.after i).control = .finished r) (hk : i ≤ k) :
    m.after k = m.after i := by
  obtain ⟨n, rfl⟩ := Nat.exists_eq_add_of_le hk
  rw [after_add]
  generalize m.after i = m₁ at h
  obtain ⟨core, activations, control⟩ := m₁
  obtain rfl := h
  exact after_finished core activations r n

theorem keepingAfter_of_finished {i k : Nat} (h : (m.keepingAfter i).control = .finished r)
    (hk : i ≤ k) : m.keepingAfter k = m.keepingAfter i := by
  obtain ⟨n, rfl⟩ := Nat.exists_eq_add_of_le hk
  rw [keepingAfter_add]
  generalize m.keepingAfter i = m₁ at h
  obtain ⟨core, activations, control⟩ := m₁
  obtain rfl := h
  induction n with
  | zero => rfl
  | succ n ih =>
    change keepingNext (keepingAfter _ n) = _
    rw [ih (Nat.le_add_right i n), keepingNext_eq (by simp)]
    rfl

/-- Machines that match come to the same. -/
theorem MatchesKeeping.agrees [LawfulHost H] [BlindHost H] (h : MatchesKeeping m m')
    (hm : m.WellNested)
    (hcomparable : Comparable m m') : Agrees m m' where
  meets n := by
    obtain ⟨i, hi, j, hj, hmatches⟩ := h.meets hm hcomparable n
    exact ⟨i, hi, j, hj, hmatches.world⟩
  finishes n r hfinished := by
    obtain ⟨i, hi, j, -, hmatches⟩ := h.meets hm hcomparable n
    rw [after_of_finished hfinished hi] at hmatches
    obtain ⟨r', hfinished', hr⟩ := hmatches.finishes hfinished
    exact ⟨j, r', hfinished', hr, hmatches.world⟩
  finished n r' hfinished' := by
    obtain ⟨i, -, j, hj, hmatches⟩ := h.meets hm hcomparable n
    rw [keepingAfter_of_finished hfinished' hj] at hmatches
    obtain ⟨r, hfinished, hr⟩ := hmatches.finished hfinished'
    exact ⟨i, r, hfinished, hr, hmatches.world⟩

/-- Both machines begin with the same host. -/
theorem matchesKeeping_start {w w' : World H} (hworld : w.Like w') {a a' : Action H NativeOutcome}
    (ha : a.Alike a') : MatchesKeeping (start w a) (start w' a') := by
  have hfaces : Faces .empty .empty .empty .empty ⟨w, {}⟩ ⟨w', {}⟩ :=
    ⟨hworld, ⟨rfl, rfl⟩, rfl, rfl⟩
  exact .mk hfaces .host (.running ⟨rfl, rfl⟩ .ground (Or.inl rfl) ha)

/-- A run whose calls take the place of their frames comes to what it comes to with the frames
kept, by way of worlds that are alike, if the runs are comparable.  Comparable or not, a call in
place of its frame leaves no more frames than there were and no operand above the base of that
frame, and any number of such calls in a row needs no more frames than the first one found. -/
theorem agrees_keeping [LawfulHost H] [BlindHost H] {w w' : World H}
    {a a' : Action H NativeOutcome} (hw : w.Scheduled) (hidle : w.inFlight = [])
    (hworld : w.Like w') (hlawful : a.Lawful) (ha : a.Alike a') :
    (Comparable (start w a) (start w' a') → Agrees (start w a) (start w' a')) ∧
      (∀ n caller, ((start w a).after n).Replaces caller →
        ((start w a).after (n + 1)).core.proc.frames.height ≤
            ((start w a).after n).core.proc.frames.height ∧
          ((start w a).after (n + 1)).core.proc.stack.height ≤ caller.base) ∧
      ∀ n k, (∀ i < k, (∃ caller, ((start w a).after (n + i)).Replaces caller) ∨
          ((start w a).after (n + i)).Advances) →
        ∀ i ≤ k, ((start w a).after (n + i)).core.proc.frames.height ≤
          ((start w a).after n).core.proc.frames.height := by
  refine ⟨fun hcomparable => ?_, fun n caller h => ?_, fun n k h i hi => ?_⟩
  · exact (matchesKeeping_start hworld ha).agrees (wellNested_start hw hidle hlawful) hcomparable
  · exact ⟨h.next.1, h.next.2.1⟩
  · rw [after_add]
    refine (height_le_of_replaces _ i fun j hj => ?_).1
    rw [← after_add]
    exact h j (Nat.lt_of_lt_of_le hj hi)

end

end Machine

/-! ## A protected call in place of its frame -/

namespace World

/-- The function that confirms protected calls gives its value wherever it is invoked. -/
theorem IsConfirming.givesAtOnce [Host H] {w : World H} {k : NativeRef} (h : w.IsConfirming k)
    (args : Arguments) : w.GivesAtOnce k args := by
  obtain ⟨native, hnative, hbody⟩ := h
  exact ⟨.tupled (.boolean true :: args.values.filter fun v => !v.isVoid),
    fun p => Core.invoke_of_library (c := ⟨w, p⟩) args hnative hbody⟩

/-- Whether the frame does with a value what it does with it anywhere else, and without an error. -/
def takes (w : World H) (f : Frame) (v : Value) : Bool :=
  match f.handlers.continuation? with
  | none => true
  | some (.post p) => (p.apply v).isOk
  | some (.native k) =>
    match (w.native? k).map Native.body with
    | some (.library .protectedOk) => true
    | _ => false

theorem passes_of_takes [Host H] {w : World H} {f : Frame} {v : Value} (h : w.takes f v = true) :
    w.Passes f v := by
  unfold takes at h
  constructor
  · intro p hp
    rw [hp] at h
    dsimp only at h
    cases hv : p.apply v with
    | ok v? => exact ⟨v?, rfl⟩
    | error e => rw [hv] at h; cases h
  · intro k hk
    rw [hk] at h
    dsimp only at h
    split at h
    · next hbody =>
      obtain ⟨native, hnative, hbody⟩ := Option.map_eq_some_iff.mp hbody
      exact IsConfirming.givesAtOnce ⟨native, hnative, hbody⟩ _
    · cases h

theorem like_start (settings : Settings) (host : H.State) :
    (start settings host).Like (start settings host) := by
  have hinstalling : Installing fun w w₁ : World H => w.Like w → w₁.Like w₁ :=
    { refl := fun w h => h
      trans := fun h h' hw => h' (h hw)
      addNative := fun w f h => h.add fun c => nofun
      newTable := fun w h => h.add fun c => nofun
      setNamed := fun w r name v h => h.of_tame (tame_modifyTable r _) }
  refine hinstalling.installModules _ settings.modules ⟨rfl, fun r c hc => ?_⟩
  obtain ⟨-, rfl⟩ := eq_main_of_coroutine? hc
  exact ⟨some {}, hc, .some (Processor.Fresh.rests ⟨rfl, rfl, rfl, rfl⟩ _ (Or.inr rfl))⟩

end World

namespace ProtectedCall

/-- The host calls `answerOf`, with `pcall` in place of `error`. -/
def answering : Action HostTypes.alone NativeOutcome :=
  .write (fun w => (w.addLibrary "pcall_ok" .protectedOk).2)
    (.write (fun w => (w.addLibrary "pcall_failed" .protectedFailed).2)
      (.write (fun w => (w.addLibrary "pcall" (.pcall ⟨3⟩ ⟨4⟩)).2)
        (.write (fun w => (w.newCell (.native ⟨5⟩)).2)
          (.write (fun w => (w.newCell (.native ⟨5⟩)).2)
            (.write (fun w => (w.addClosure answerOf).2)
              (.call (.function ⟨6⟩) [] fun r => (Action.ofResult r).bind Library.one))))))

theorem lawful_answering : answering.Lawful := by
  refine .write (fun w => .addLibrary w _ _) ?_
  refine .write (fun w => .addLibrary w _ _) ?_
  refine .write (fun w => .addLibrary w _ _) ?_
  refine .write (fun w => .newCell w _) ?_
  refine .write (fun w => .newCell w _) ?_
  refine .write (fun w => .addClosure w _) ?_
  refine .call _ _ fun r => ?_
  exact Action.lawful_bind (Action.lawful_ofResult r) Library.lawful_one

theorem blind_answering : answering.Blind := by
  have hlibrary (name : String) (f : LibraryFunction) (w w' : World HostTypes.alone)
      (h : w.Like w') : (w.addLibrary name f).2.Like (w'.addLibrary name f).2 :=
    h.add fun c => nofun
  have hcell (v : Value) (w w' : World HostTypes.alone) (h : w.Like w') :
      (w.newCell v).2.Like (w'.newCell v).2 :=
    (h.of_tameWith (World.tameWith_newCell v)).2
  have hclosure (w w' : World HostTypes.alone) (h : w.Like w') :
      (w.addClosure answerOf).2.Like (w'.addClosure answerOf).2 :=
    (h.of_tameWith (World.tameWith_addClosure answerOf)).2
  exact .write (hlibrary _ _) (.write (hlibrary _ _) (.write (hlibrary _ _) (.write (hcell _)
    (.write (hcell _) (.write hclosure (.call _ _ fun r r' hr =>
      (Action.alike_ofResult hr).bind fun v => .done _))))))

/-- The run of `answerOf`. -/
def answered : Machine HostTypes.alone :=
  .start (.start { modules := ⟨false, false, false⟩ } ()) answering

end ProtectedCall

namespace Machine

/-- Nothing is in the way of the next step, and a frame does what it does with a value wherever it
gets it. -/
def isCalm [Host H] (m : Machine H) : Bool :=
  decide (m.core.proc.frames.height < m.core.world.settings.maxCallDepth) &&
    match m.control with
    | .loop .proceed =>
      !m.core.world.cancelled && !m.core.proc.countInstruction.1 &&
        match Exec.stepIntent (counted m.core).alone with
        | .error (.internal _) _ => false
        | _ => true
    | .loop (.finish f v) | .settling (.finish f v) => m.core.world.takes f v
    | _ => true

theorem calm_of_isCalm [Host H] {m : Machine H} (h : m.isCalm = true) :
    m.Quiet ∧ m.SelfContained ∧ ∀ m' : Machine H, m.PassesOn m' := by
  unfold isCalm at h
  rw [Bool.and_eq_true, decide_eq_true_iff] at h
  obtain ⟨hroom, h⟩ := h
  refine ⟨⟨hroom, fun hcontrol => ?_⟩, fun hcontrol hunderflows => ?_, fun m' f v hapart => ?_⟩
  · simp only [hcontrol, Bool.and_eq_true, Bool.not_eq_true'] at h
    exact h.1
  · obtain ⟨c, hunderflows⟩ := hunderflows
    simp [hcontrol, hunderflows] at h
  · rcases hapart.hands with hcontrol | hcontrol <;> rw [hcontrol] at h <;>
      exact World.passes_of_takes h

/-- The frame whose place the call of the next step takes. -/
def replaced? [Host H] (m : Machine H) : Option Frame :=
  match m.control, m.core.world.cancelled, m.core.proc.countInstruction.1,
      Exec.stepIntent (counted m.core) with
  | .loop .proceed, false, false, .ok (.call ..) c =>
    if Exec.canTailCall c.proc then c.proc.frames.top? else none
  | _, _, _, _ => none

theorem replaces_of_replaced? [Host H] {m : Machine H} {caller : Frame}
    (h : m.replaced? = some caller) : m.Replaces caller := by
  unfold replaced? at h
  split at h
  · next function args methodCall c hcontrol hcancelled hdue hintent =>
    have hpolls : Exec.poll m.core = Exec.step (counted m.core) := by
      rw [poll_run, if_neg (by simp [hcancelled]), if_neg (by simp [hdue])]
    split at h
    · next hcan => exact ⟨hcontrol, hpolls, _, _, _, c, hintent, hcan, h⟩
    · cases h
  · cases h

theorem exists_finished {m : Machine H} (h : m.result?.isSome = true) :
    ∃ r, m.control = .finished r := by
  unfold result? at h
  split at h
  · next e hcontrol => exact ⟨_, hcontrol⟩
  · next v hcontrol => exact ⟨_, hcontrol⟩
  · cases h

theorem comparable_answered : Comparable ProtectedCall.answered ProtectedCall.answered := by
  have hbegin : ∀ i ≤ 34, (ProtectedCall.answered.after i).isCalm = true := by decide +kernel
  have hbegin' : ∀ i ≤ 35, (ProtectedCall.answered.keepingAfter i).isCalm = true := by
    decide +kernel
  obtain ⟨r, hr⟩ : ∃ r, (ProtectedCall.answered.after 34).control = .finished r :=
    exists_finished (by decide +kernel)
  obtain ⟨r', hr'⟩ : ∃ r, (ProtectedCall.answered.keepingAfter 35).control = .finished r :=
    exists_finished (by decide +kernel)
  have hcalm (i : Nat) : (ProtectedCall.answered.after i).isCalm = true := by
    rcases Nat.le_total i 34 with hi | hi
    · exact hbegin i hi
    · rw [after_of_finished hr hi]
      exact hbegin 34 (Nat.le_refl 34)
  have hcalm' (i : Nat) : (ProtectedCall.answered.keepingAfter i).isCalm = true := by
    rcases Nat.le_total i 35 with hi | hi
    · exact hbegin' i hi
    · rw [keepingAfter_of_finished hr' hi]
      exact hbegin' 35 (Nat.le_refl 35)
  exact ⟨fun i => (calm_of_isCalm (hcalm i)).1, fun i => (calm_of_isCalm (hcalm' i)).1,
    fun i => (calm_of_isCalm (hcalm i)).2.1, fun i j => (calm_of_isCalm (hcalm i)).2.2 _⟩

/-- A protected call takes the place of the frame of `answerOf`, and the run comes to what it comes
to above that frame. -/
theorem agrees_answered :
    ((World.start { modules := ⟨false, false, false⟩ } () : World HostTypes.alone).Scheduled ∧
      (World.start { modules := ⟨false, false, false⟩ } () : World HostTypes.alone).inFlight = [] ∧
      ProtectedCall.answering.Lawful ∧ ProtectedCall.answering.Blind) ∧
    Comparable ProtectedCall.answered ProtectedCall.answered ∧
    Agrees ProtectedCall.answered ProtectedCall.answered ∧
    (∃ caller, (ProtectedCall.answered.after 12).Replaces caller ∧
      (ProtectedCall.answered.after 13).core.proc.stack.height ≤ caller.base) ∧
    (ProtectedCall.answered.after 34).result? =
      some (.inr (.tuple
        [.boolean true, .boolean false, .string "attempt to call a string value"])) := by
  have hscheduled := World.scheduled_start (H := HostTypes.alone)
    { modules := ⟨false, false, false⟩ } ()
  have hlike := World.like_start (H := HostTypes.alone) { modules := ⟨false, false, false⟩ } ()
  obtain ⟨hagrees, hbounds, -⟩ := agrees_keeping hscheduled rfl hlike
    ProtectedCall.lawful_answering ProtectedCall.blind_answering
  obtain ⟨caller, hcaller⟩ : ∃ caller, (ProtectedCall.answered.after 12).replaced? = some caller :=
    Option.isSome_iff_exists.mp (by decide +kernel)
  have hreplaces := replaces_of_replaced? hcaller
  exact ⟨⟨hscheduled, rfl, ProtectedCall.lawful_answering, ProtectedCall.blind_answering⟩,
    comparable_answered, hagrees comparable_answered,
    ⟨caller, hreplaces, (hbounds 12 caller hreplaces).2⟩, by decide +kernel⟩

end Machine

end ScriptEngine
