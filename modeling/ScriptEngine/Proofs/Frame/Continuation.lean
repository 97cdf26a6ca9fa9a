import ScriptEngine.Proofs.Frame.SoundHistories
import ScriptEngine.Proofs.Frame.Temporaries

/-!
# Where execution goes on

A machine that fetches an instruction has the chunk of the topmost frame and an
address in it.  A call that an instruction makes comes back to the instruction
that follows, whatever happens in between; a frame that is replaced leaves its way
back to the one that takes its place; and a nested call ends at the place in the
code where it began.
-/

namespace ScriptEngine

variable {H : HostTypes}

/-- The call takes the place of the frame that makes it. -/
def Intent.Replaces (p : Processor) : Intent → Prop
  | .call _ _ _ => Exec.canTailCall p = true
  | _ => False

namespace CallSite

/-- The site of a call that the next instruction makes, with the function that makes
it.  Operands are left aside. -/
structure Of (s : CallSite H) (m : Machine H) (k : Closure) : Prop where
  loop : s.loop.At m.activations
  caller : FramesAlike m.core.proc.frames.items s.below
  runs : s.caller.Runs m.core.world k
  chunk : m.core.proc.chunk? = some k.chunk
  address : s.address = m.core.proc.ip + 1
  operands : s.operands = []

/-- The caller goes on with the instruction that follows the call. -/
structure Back (s : CallSite H) (k : Closure) (m : Machine H) : Prop where
  loop : s.loop.At m.activations
  control : m.control = .loop .proceed ∨ m.control = .settling .proceed
  frames : m.core.proc.frames.items = s.below
  chunk : m.core.proc.chunk? = some k.chunk
  ip : m.core.proc.ip = s.address

/-- The call has ended with an error, and no instruction comes next. -/
structure Breaks (s : CallSite H) (m : Machine H) : Prop where
  ends : s.Ends m
  loop : m.control ≠ .loop .proceed
  settling : m.control ≠ .settling .proceed

variable {s : CallSite H} {m : Machine H} {k : Closure}

theorem Ends.back_or_breaks (hruns : s.caller.Runs m.core.world k) (h : s.Ends m) :
    s.Back k m ∨ s.Breaks m := by
  have hbreaks (hloop : m.control ≠ .loop .proceed)
      (hsettling : m.control ≠ .settling .proceed) : s.Back k m ∨ s.Breaks m :=
    Or.inr ⟨h, hloop, hsettling⟩
  cases h with
  | returned o hloop hcontrol hreturned =>
      cases hreturned with
      | resumed hawaiting hframes hip hchunk hoperands =>
          obtain ⟨f, hf, hk⟩ := hruns.callee
          have hsame := congrArg (fun k : Closure => some k.chunk) hk.closure_eq
          exact Or.inl ⟨hloop, hcontrol, hframes, (hchunk f hf).trans hsame, hip⟩
      | awaited v hawaiting hframes hoperands =>
          rw [hruns.awaiting] at hawaiting
          cases hawaiting
  | passed e above hloop hcontrol hover hnone =>
      exact hbreaks (by simp [hcontrol]) (by simp [hcontrol])
  | stopped e he hloop hcontrol hholds => exact hbreaks (by simp [hcontrol]) (by simp [hcontrol])
  | refused exit mark waiter rest hexit hloop h hcontrol hholds =>
      exact hbreaks (by simp [hcontrol]) (by simp [hcontrol])
  | escaped frame v hloop hcontrol hpost hv hholds =>
      exact hbreaks (by simp [hcontrol]) (by simp [hcontrol])

end CallSite

namespace Machine

/-! ## Functions stay -/

theorem Turn.keepsClosures {m m' : Machine H} (h : Turn m m') :
    m.core.world.KeepsClosures m'.core.world := by
  cases h with
  | stays hworld h => exact hworld.keepsClosures
  | enters hworld mark waiter h => exact hworld.keepsClosures
  | leaves hworld a ha h => exact .of_eq hworld
  | engages r c hready p hp hproc next hworld loops hloops h hfrom =>
      rw [hworld]
      exact World.keepsClosures_engage _ r
  | releases r next exit hexit hworld h hcontrol =>
      rw [hworld]
      exact World.keepsClosures_release _ r _ exit

section

variable [Host H] {m m' : Machine H} {intent : Intent} {c : Core H}

theorem Leads.keepsClosures [LawfulHost H] (h : m.Leads m') (hm : m.Reachable) :
    m.core.world.KeepsClosures m'.core.world := by
  induction h with
  | refl => exact fun _ _ h => h
  | next h ih =>
      have hturn := (turn_next (h.reachable hm).wellNested.control).keepsClosures
      exact fun r k hk => hturn r k (ih r k hk)
  | again h hfinished hw ha ih => exact fun r k hk => hw.keepsClosures r k (ih r k hk)

/-! ## Calls -/

omit [Host H] in
theorem exists_loop {w : World H} {activations : List (Activation H)}
    (hnested : Nested w activations) (h : InLoop activations) :
    ∃ loop : Loop H, loop.At activations := by
  cases hnested with
  | nil => exact absurd h not_inLoop_nil
  | call mark hwaiter hrest => exact ⟨_, .nested mark _ _⟩
  | body hscript hrest => exact ⟨_, .body _ _ _ _⟩
  | switch r outer hacts hnext hrest => exact absurd h InLoop.ne_switch

/-- The function on top has the instruction to come, and its frame is on top of those
that the instruction leaves. -/
theorem exists_site_of_proceed [LawfulHost H] (hm : m.Reachable) (hlinked : m.AllLinked)
    (hcontrol : m.control = .loop .proceed) :
    ∃ (s : CallSite H) (k : Closure), s.Of m k ∧
      (Exec.resultCore (Exec.stepIntent (counted m.core))).proc.frames.items = s.below := by
  obtain ⟨core, activations, control⟩ := m
  obtain rfl : control = .loop .proceed := hcontrol
  have hscripting : core.proc.Scripting core.world := hlinked.inFlightLinked.findsCode
  have hin : InLoop activations := hm.wellNested.control
  have hstands : StandsOn .working activations core.proc.nesting core.proc.frames.items :=
    hm.wellFramed.seated
  obtain ⟨loop, hloop⟩ := exists_loop hm.wellNested.nested hin
  have halike := (Exec.simple_stepIntent.plain (counted core)).frames
  rw [counted_frames] at halike
  obtain ⟨f, rest, k, hitems, hruns, hchunk, -⟩ := hscripting
  obtain ⟨own, below, hframes, hfits, hbase⟩ := (standsOn_iff hin).mp hstands
  have hfloor : loop.floor ≤ rest.length := by
    rw [← hloop.frameFloor, hbase.floor]
    have hsome : entries own ≠ [] := Rooted.ne_nil hfits
    cases own with
    | nil => exact absurd rfl hsome
    | cons f' own =>
        have hrest : rest = own ++ below := (List.cons.inj (hitems.symm.trans hframes)).2
        rw [hrest, List.length_append]
        omega
  generalize (Exec.resultCore (Exec.stepIntent (counted core))).proc.frames.items = items
    at halike ⊢
  rw [hitems] at halike
  cases halike with
  | @cons f f' hsame rest =>
      refine ⟨⟨loop, f', rest, [], core.proc.ip + 1, hfloor⟩, k, ?_, rfl⟩
      refine ⟨hloop, ?_, hruns.of_sameCall hsame, hchunk, rfl, rfl⟩
      change FramesAlike core.proc.frames.items (f' :: rest)
      rw [hitems]
      exact .cons hsame rest

/-- An instruction that does more than to go on leaves the processor right behind it. -/
theorem Intends.ip_eq (hlinked : m.AllLinked) (h : m.Intends intent c)
    (hne : intent ≠ .proceed) : c.proc.ip = m.core.proc.ip + 1 := by
  have hfindsCode := hlinked.inFlightLinked.findsCode
  rw [h.control] at hfindsCode
  have hip := (Exec.scripting_stepIntent (c := counted m.core) hlinked.sound
    (scripting_counted hfindsCode) h.run).2 hne
  rw [hip, ip_counted]

/-- What an instruction comes to is up to the function on top, which goes on with the
next one. -/
theorem Intends.exists_site [LawfulHost H] (hm : m.Reachable) (hlinked : m.AllLinked)
    (h : m.Intends intent c) (hne : intent ≠ .proceed) :
    ∃ (s : CallSite H) (k : Closure), s.Of m k ∧ c.proc.frames.items = s.below ∧
      c.proc.ip = s.address := by
  obtain ⟨s, k, hof, hframes⟩ := exists_site_of_proceed hm hlinked h.control
  rw [h.run] at hframes
  exact ⟨s, k, hof, hframes, (h.ip_eq hlinked hne).trans hof.address.symm⟩

/-- All the while the call is in force; after that its caller goes on, or an error
comes to it. -/
theorem Intends.comesBack [LawfulHost H] (hm : m.Reachable) (hlinked : m.AllLinked)
    (h : m.Intends intent c) (hcalls : intent.Calls c.proc) :
    ∃ (s : CallSite H) (k : Closure), s.Of m k ∧
      ∀ m', s.During m m' → s.InForce m' ∨ s.Back k m' ∨ s.Breaks m' := by
  have hne : intent ≠ .proceed := by
    rintro rfl
    exact hcalls
  obtain ⟨s, k, hof, hframes, hip⟩ := h.exists_site hm hlinked hne
  refine ⟨s, k, hof, fun m' hduring => ?_⟩
  have hnone : s.operands <:+ c.proc.stack.items := by
    rw [hof.operands]
    exact List.nil_suffix
  have hstart := CallSite.lasts_called h hcalls hof.loop hip hframes hnone
  have hruns := hof.runs.mono (hduring.leads.keepsClosures hm)
  exact (hduring.lasts_of hm hstart (Or.inl hof.operands)).imp_right
    (CallSite.Ends.back_or_breaks hruns)

omit [Host H] in
theorem exec_of_called {x : Exec H Outcome} {activations : List (Activation H)}
    {core core' : Core H} {flags : FrameFlags} {returnAddress : Nat} {handlers : Handlers}
    (h : Exec.Called core' flags returnAddress handlers (x core)) :
    ∃ above, (exec .loop x core activations).core.proc.frames.items =
        above ++ core'.proc.frames.items ∧
      ((exec .loop x core activations).control.stage (exec .loop x core activations).core.proc).Fits
        returnAddress above := by
  unfold exec
  generalize x core = r at h
  cases h with
  | failed e h => exact ⟨[], rfl, Or.inl rfl⟩
  | recovered e handler h => exact ⟨[], rfl, rfl⟩
  | entered f args hdepth => exact ⟨[_], rfl, rfl⟩
  | invoked f args hdepth => exact ⟨[_], rfl, rfl⟩

/-- What takes the place of a frame goes back to where that one would have. -/
theorem Intends.handsOver (h : m.Intends intent c) (hreplaces : intent.Replaces c.proc)
    {caller : Frame} {rest : List Frame} (hframes : c.proc.frames.items = caller :: rest) :
    m.next.activations = m.activations ∧
      ∃ above, m.next.core.proc.frames.items = above ++ rest ∧
        (m.next.control.stage m.next.core.proc).Fits caller.returnAddress above := by
  obtain ⟨frame, lower, hpush⟩ := (Exec.frames_cases c).resolve_left (by simp [hframes])
  rw [hpush, Stack.items_push] at hframes
  obtain ⟨rfl, rfl⟩ := List.cons.inj hframes
  cases intent with
  | call function args methodCall =>
      have hcalled := Exec.called_placeCall function args methodCall hreplaces hpush
      have hrun : Exec.poll m.core = Exec.placeCall function args methodCall c := by
        rw [h.polls, Exec.step_eq, Exec.run_bind_of_ok h.run]
        rfl
      rw [← hrun] at hcalled
      rw [h.next_eq]
      exact ⟨exec_activations _ _ _, exec_of_called hcalled⟩
  | _ => exact hreplaces.elim

end

/-- Whenever the machine is about to fetch an instruction, the topmost frame is that of
a function of a script, the processor has the chunk of this function, and it is at an
instruction or right behind the last one.  A call that an instruction makes lasts through
whatever it leads to, returns, handled errors, suspensions and nested calls included,
until the caller goes on with the instruction that follows, or an error comes to it.
A call in place of its own frame goes back to where that frame would have gone.  A
nested call ends with the frames and at the place in the code it began with. -/
theorem Vetted.continues [Host H] [LawfulHost H] {m : Machine H} (h : m.Vetted) :
    (m.control = .loop .proceed → m.core.proc.Scripting m.core.world) ∧
    (∀ intent c, m.Intends intent c → intent.Calls c.proc →
      ∃ (s : CallSite H) (k : Closure), s.Of m k ∧
        ∀ m', s.During m m' → s.InForce m' ∨ s.Back k m' ∨ s.Breaks m') ∧
    (∀ intent c, m.Intends intent c → intent.Replaces c.proc →
      ∃ caller rest above, FramesAlike m.core.proc.frames.items (caller :: rest) ∧
        m.next.activations = m.activations ∧
        m.next.core.proc.frames.items = above ++ rest ∧
        (m.next.control.stage m.next.core.proc).Fits caller.returnAddress above) ∧
    ∀ function args waiter, m.control = .calling function args waiter →
      m.next = ⟨m.core, m.activations, .answering waiter (.error (.script .stackOverflow))⟩ ∨
        ∀ n, (∀ i ≤ n, (m.enclosure waiter [] List.nil_suffix).Lasts (m.next.after i)) ∨
          ∃ j < n, (m.enclosure waiter [] List.nil_suffix).Left (m.next.after (j + 1)) ∧
            ∀ i ≤ j, (m.enclosure waiter [] List.nil_suffix).Lasts (m.next.after i) := by
  have hreach := h.reachable
  have hlinked := h.allLinked
  refine ⟨fun hcontrol => ?_, fun intent c hintends hcalls => ?_,
    fun intent c hintends hreplaces => ?_, fun function args waiter hcontrol => ?_⟩
  · have hfindsCode := hlinked.inFlightLinked.findsCode
    rw [hcontrol] at hfindsCode
    exact hfindsCode
  · exact hintends.comesBack hreach hlinked hcalls
  · have hne : intent ≠ .proceed := by
      rintro rfl
      exact hreplaces
    obtain ⟨s, k, hof, hframes, -⟩ := hintends.exists_site hreach hlinked hne
    obtain ⟨hactivations, above, habove, hfits⟩ := hintends.handsOver hreplaces hframes
    exact ⟨s.caller, s.lower, above, hof.caller, hactivations, habove, hfits⟩
  · exact (begins_calling hcontrol List.nil_suffix).imp_right fun hbegins n =>
      hreach.next.encloses hbegins n (Or.inl rfl)

/-! ## The workbench -/

theorem vetted_lendingBy : ((CallSite.lendingBy .nop).after 7).Vetted := by
  refine .after (.start _ _ ?_) (fun i hi => ?_) fun i hi => ?_
  · exact .write (fun w => .addClosure w _)
      (.call _ _ fun r => Action.lawful_bind (Action.lawful_ofResult r) Library.lawful_one)
  · intro change next h
    match i, hi with
    | 0, _ =>
        cases h
        refine .add _ fun k hk => ?_
        cases hk
        exact ⟨by decide, by decide⟩
    | 1, _ => cases h
    | 2, _ => cases h
    | 3, _ => cases h
    | 4, _ => cases h
    | 5, _ => cases h
    | 6, _ => cases h
  · intro f r htop hf
    match i, hi with
    | 0, _ => cases htop
    | 1, _ => cases htop
    | 2, _ => cases htop; cases hf; exact ⟨_, rfl⟩
    | 3, _ => cases htop; cases hf; exact ⟨_, rfl⟩
    | 4, _ => cases htop; cases hf; exact ⟨_, rfl⟩
    | 5, _ => cases htop; cases hf; exact ⟨_, rfl⟩
    | 6, _ => cases htop; cases hf; exact ⟨_, rfl⟩

/-- The fifth instruction is a call, and its caller goes on with the sixth. -/
theorem continues_lent :
    ((CallSite.lendingBy .nop).after 7).Vetted ∧
      ∃ (s : CallSite Workbench.types) (k : Closure),
        s.Of ((CallSite.lendingBy .nop).after 7) k ∧ s.address = 5 ∧
          ∀ m, s.During ((CallSite.lendingBy .nop).after 7) m →
            s.InForce m ∨ s.Back k m ∨ s.Breaks m := by
  have hintends : ((CallSite.lendingBy .nop).after 7).Intends
      (.call (.function ⟨4⟩) [] false) _ := ⟨rfl, rfl, rfl⟩
  obtain ⟨s, k, hof, hduring⟩ := vetted_lendingBy.continues.2.1 _ _ hintends rfl
  exact ⟨vetted_lendingBy, s, k, hof, hof.address, hduring⟩

end Machine

end ScriptEngine
