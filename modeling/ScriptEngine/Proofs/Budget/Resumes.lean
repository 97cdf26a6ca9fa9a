import ScriptEngine.Embedding.Basic
import ScriptEngine.Proofs.Budget.Pauses

/-!
# Worlds and the budget of a coroutine at rest

Between two resumes the budget of a coroutine is on its processor, which the
world has.  A resume leads from worlds that differ in nothing else to such worlds
again; or the one with a budget is suspended by force, and is where a resume
with no arguments takes up what the other has not left.
-/

namespace ScriptEngine

variable {H : HostTypes} {r : CoroutineRef}

namespace World

variable {w : World H} {c : Coroutine} {k : Meter}

/-! ## Changing a coroutine -/

theorem modifyCoroutine_congr {f g : Coroutine → Coroutine}
    (hc : w.coroutine? r = some c) (hfg : f c = g c) :
    w.modifyCoroutine r f = w.modifyCoroutine r g := by
  rw [coroutine?_eq_some_iff] at hc
  unfold modifyCoroutine modifyObject
  cases hid : r.id with
  | zero => rfl
  | succ n =>
      rw [hid] at hc
      have hobject : w.objects[n]? = some (.coroutine c) := hc
      refine congrArg (fun objects => { w with objects }) (Array.ext_getElem? fun i => ?_)
      rw [Array.getElem?_modify, Array.getElem?_modify]
      by_cases hi : n = i
      · subst hi
        rw [if_pos rfl, if_pos rfl, hobject]
        exact congrArg (fun c => some (Object.coroutine c)) hfg
      · rw [if_neg hi, if_neg hi]

theorem modifyCoroutine_modifyCoroutine (w : World H) (r : CoroutineRef)
    (f g : Coroutine → Coroutine) :
    (w.modifyCoroutine r f).modifyCoroutine r g = w.modifyCoroutine r (g ∘ f) := by
  unfold modifyCoroutine modifyObject
  cases r.id with
  | zero => rfl
  | succ n =>
      refine congrArg (fun objects => { w with objects }) (Array.ext_getElem? fun i => ?_)
      rw [Array.getElem?_modify, Array.getElem?_modify, Array.getElem?_modify]
      by_cases hi : n = i
      · rw [if_pos hi, if_pos hi, if_pos hi]
        cases w.objects[i]? with
        | none => rfl
        | some o => cases o <;> rfl
      · rw [if_neg hi, if_neg hi, if_neg hi]

theorem modifyCoroutine_id (w : World H) (r : CoroutineRef) : w.modifyCoroutine r id = w := by
  unfold modifyCoroutine modifyObject
  cases r.id with
  | zero => rfl
  | succ n =>
      refine congrArg (fun objects => { w with objects }) (Array.ext_getElem? fun i => ?_)
      rw [Array.getElem?_modify]
      split
      · cases w.objects[i]? with
        | none => rfl
        | some o => cases o <;> rfl
      · rfl

theorem modifyCoroutine_eq_self {f : Coroutine → Coroutine}
    (hc : w.coroutine? r = some c) (hf : f c = c) : w.modifyCoroutine r f = w := by
  rw [modifyCoroutine_congr hc (g := id) hf]
  exact modifyCoroutine_id w r

/-! ## The meter of a coroutine at rest -/

/-- The world with another meter on the processor of a coroutine at rest. -/
def metered (w : World H) (r : CoroutineRef) (k : Meter) : World H :=
  w.modifyCoroutine r fun c =>
    { c with processor? := c.processor?.map fun p => p.metered (some k) }

theorem coroutine?_metered_self (h : w.coroutine? r = some c) :
    (w.metered r k).coroutine? r =
      some { c with processor? := c.processor?.map fun p => p.metered (some k) } := by
  unfold metered
  rw [coroutine?_modifyCoroutine, if_pos rfl, h]
  rfl

theorem metered_metered (w : World H) (r : CoroutineRef) (k k' : Meter) :
    (w.metered r k).metered r k' = w.metered r k' := by
  unfold metered
  rw [modifyCoroutine_modifyCoroutine]
  congr 1
  funext c
  cases hp : c.processor? <;> simp [hp, Processor.metered]

theorem metered_eq_self {p : Processor} (hc : w.coroutine? r = some c)
    (hp : c.processor? = some p) (hmetered : p.metered (some k) = p) :
    w.metered r k = w := by
  refine modifyCoroutine_eq_self hc ?_
  obtain ⟨state, kind, entry, processor?⟩ := c
  obtain rfl : processor? = some p := hp
  simp [hmetered]

theorem extends_metered (w : World H) (r : CoroutineRef) (k : Meter) :
    w.Extends (w.metered r k) := by
  refine .modifyCoroutine w r fun c _ => ⟨rfl, rfl, rfl, ?_⟩
  cases c.processor? with
  | none => exact .none
  | some p => exact .some ⟨rfl, rfl, rfl, rfl, rfl, rfl, rfl⟩

theorem setAutoYield_eq {p : Processor} (hc : w.coroutine? r = some c)
    (hp : c.processor? = some p) (budget? : Option Nat) :
    w.setAutoYield r budget? = .ok (w.metered r ⟨budget?.filter (0 < ·), 0⟩) := by
  unfold setAutoYield
  rw [coroutine_of_coroutine? hc, hp]
  refine congrArg Except.ok (modifyCoroutine_congr hc ?_)
  rw [hp]
  rfl

theorem engage_metered (w : World H) (r : CoroutineRef) (k : Meter) :
    (w.metered r k).engage r = w.engage r := by
  unfold engage metered
  rw [modifyCoroutine_modifyCoroutine]
  rfl

theorem modifyCoroutine_inFlight (w : World H) (inFlight : List CoroutineRef)
    (f : Coroutine → Coroutine) :
    { w with inFlight }.modifyCoroutine r f = { w.modifyCoroutine r f with inFlight } := by
  unfold modifyCoroutine modifyObject
  cases r.id <;> rfl

theorem inFlight_modifyCoroutine (w : World H) (f : Coroutine → Coroutine) :
    (w.modifyCoroutine r f).inFlight = w.inFlight := by
  unfold modifyCoroutine modifyObject
  cases r.id <;> rfl

theorem release_metered (w : World H) (p : Processor) (exit : Except RuntimeError LoopExit) :
    (w.release r p exit).metered r k = w.release r (p.metered (some k)) exit := by
  unfold release metered
  dsimp only
  rw [modifyCoroutine_inFlight, modifyCoroutine_modifyCoroutine, inFlight_modifyCoroutine,
    inFlight_modifyCoroutine]
  rfl

/-- Suspending a coroutine and resuming it leave the world as it was. -/
theorem engage_release (hc : w.coroutine? r = some c) (hstate : c.state = .running)
    (hp : c.processor? = none) (p : Processor) (exit : Except RuntimeError LoopExit)
    {rest : List CoroutineRef} (hinFlight : w.inFlight = r :: rest) :
    (w.release r p exit).engage r = w := by
  obtain ⟨state, kind, entry, processor?⟩ := c
  obtain rfl : state = .running := hstate
  obtain rfl : processor? = none := hp
  have hengaged : (CoroutineState.after .running exit).engaged = .running := by
    rcases exit with e | exit
    · rfl
    · cases exit <;> rfl
  let engaged (c : Coroutine) : Coroutine :=
    { c with state := c.state.engaged, processor? := none }
  let released (c : Coroutine) : Coroutine :=
    { c with state := c.state.after exit, processor? := some p }
  have hback : (engaged ∘ released) ⟨.running, kind, entry, none⟩ =
      ⟨.running, kind, entry, none⟩ := congrArg (Coroutine.mk · kind entry none) hengaged
  unfold release engage
  rw [modifyCoroutine_inFlight, modifyCoroutine_modifyCoroutine,
    inFlight_modifyCoroutine, modifyCoroutine_eq_self hc hback, hinFlight]
  dsimp only [List.tail_cons]
  rw [← hinFlight]

variable {args : List Value}

theorem resumeRefusal?_metered (hc : w.coroutine? r = some c) (args : List Value) :
    (w.metered r k).resumeRefusal? r args = w.resumeRefusal? r args := by
  have hsettings : (w.metered r k).settings = w.settings := (extends_metered w r k).settings
  unfold resumeRefusal?
  rw [coroutine_of_coroutine? (coroutine?_metered_self hc), coroutine_of_coroutine? hc,
    hsettings, (extends_metered w r k).inFlight]
  obtain ⟨state, kind, entry, processor?⟩ := c
  cases processor? <;> rfl

variable [Host H]

/-- The machine of a host whose resume of a coroutine was accepted. -/
def launch (w : World H) (r : CoroutineRef) (args : List Value) : Machine H :=
  .runCoroutine (w.engage r) [.switch r {} Machine.handing] (w.coroutine r)
    ((w.coroutine r).processor?.getD {}) args

/-- The machine of a host that resumes a coroutine. -/
def resuming (w : World H) (r : CoroutineRef) (args : List Value) : Machine H :=
  .start w (.resume r args Machine.handing)

theorem resume_eq (w : World H) (fuel : Nat) (r : CoroutineRef) (args : List Value) :
    w.resume fuel r args = (w.resuming r args).run fuel := rfl

theorem resuming_next (h : w.resumeRefusal? r args = none) :
    (w.resuming r args).next = w.launch r args := by
  change Machine.resume ⟨w, {}⟩ [] r args Machine.handing = _
  unfold Machine.resume
  dsimp only
  rw [h]
  rfl

theorem resuming_next_refused {e : RuntimeError} (h : w.resumeRefusal? r args = some e) :
    (w.resuming r args).next = ⟨⟨w, {}⟩, [], .running (Machine.handing (.error e))⟩ := by
  exact Machine.resume_of_refused ⟨w, {}⟩ h

theorem resuming_refused {e : RuntimeError} (h : w.resumeRefusal? r args = some e) :
    (w.resuming r args).after 2 = ⟨⟨w, {}⟩, [], .finished (.error e)⟩ := by
  change (w.resuming r args).next.next = _
  rw [resuming_next_refused h]
  rfl

/-- The world of some history, while nothing runs in it. -/
def Idle (w : World H) : Prop :=
  ∃ m : Machine H, m.Reachable ∧ (∃ result, m.control = .finished result) ∧
    m.core.world.Extends w

/-- A coroutine over a function of a script, at rest. -/
structure Rests (w : World H) (r : CoroutineRef) (c : Coroutine) (p : Processor) : Prop where
  idle : w.Idle
  found : w.coroutine? r = some c
  script : c.kind = .script
  processor : c.processor? = some p
  canYield : p.canYield = true

variable {p : Processor}

theorem Idle.metered (h : w.Idle) (r : CoroutineRef) (k : Meter) : (w.metered r k).Idle := by
  obtain ⟨m, hm, hfinished, hw⟩ := h
  exact ⟨m, hm, hfinished, hw.trans (extends_metered w r k)⟩

theorem Rests.metered (h : w.Rests r c p) (k : Meter) :
    (w.metered r k).Rests r { c with processor? := some (p.metered (some k)) }
      (p.metered (some k)) := by
  refine ⟨h.idle.metered r k, ?_, h.script, rfl, h.canYield⟩
  rw [coroutine?_metered_self h.found, h.processor]
  rfl

theorem Rests.reachable (h : w.Rests r c p) (args : List Value) :
    (w.resuming r args).Reachable := by
  obtain ⟨m, hm, ⟨result, hfinished⟩, hw⟩ := h.idle
  refine .again hm hfinished hw (.resume r args fun result => ?_)
  exact Action.lawful_bind (Action.lawful_ofResult result) fun v => .done _

omit [Host H] in
theorem metered_body (core : Core H) (control : Control H) (k : Meter) :
    Machine.metered ⟨core, [.body, .switch r {} Machine.handing], control⟩ r k =
      ⟨core.metered (some k), [.body, .switch r {} Machine.handing], control⟩ := by
  have hmeter : meterFor r k [.body, .switch r {} (Machine.handing (H := H))] = some k :=
    if_pos rfl
  unfold Machine.metered
  rw [hmeter]
  rfl

variable [LawfulHost H]

/-- The processor of a suspended coroutine has a frame that waits for the resume. -/
theorem Rests.yielded (h : w.Rests r c p) (hstate : c.state = .suspended) :
    ∃ frame, p.yielded? = some frame := by
  have hwellFramed : w.WellFramed := (h.reachable []).wellFramed.world
  have hrests := hwellFramed r c p h.found h.processor
  rw [hstate] at hrests
  obtain ⟨frame, hframe, -⟩ := hrests
  exact ⟨frame, hframe⟩

/-- How the outermost loop of a coroutine begins or goes on. -/
def outset (w : World H) (r : CoroutineRef) (c : Coroutine) (p : Processor)
    (args : List Value) : Machine H :=
  match c.state, p.yielded? with
  | .notStarted, _ =>
      .exec .loop (Exec.call c.entry args { entryPoint := true } 0 {})
        ⟨w.engage r, p.enterOutermost⟩ [.body, .switch r {} Machine.handing]
  | .suspended, some frame =>
      ⟨⟨w.engage r, { p.enterOutermost with yielded? := none }⟩,
        [.body, .switch r {} Machine.handing], .loop (.finish frame (.tupled args))⟩
  | _, _ =>
      ⟨⟨w.engage r, p.enterOutermost⟩, [.body, .switch r {} Machine.handing],
        .loop .proceed⟩

theorem Rests.launch_eq (h : w.Rests r c p) : w.launch r args = w.outset r c p args := by
  unfold launch outset
  rw [coroutine_of_coroutine? h.found, h.processor]
  have hroused := Machine.roused_runCoroutine (w.engage r) [.switch r {} Machine.handing] c p args
  dsimp only [Option.getD_some]
  generalize Machine.runCoroutine (w.engage r) _ c p args = m at hroused ⊢
  cases hroused with
  | native hkind =>
      rw [h.script] at hkind
      cases hkind
  | first hkind hstate => rw [hstate]
  | lost hkind hstate hyielded =>
      obtain ⟨frame, hframe⟩ := h.yielded hstate
      rw [hframe] at hyielded
      cases hyielded
  | yielded frame hkind hstate hyielded => rw [hstate, hyielded]
  | forced hkind hfirst hyielded =>
      cases hstate : c.state with
      | notStarted => exact absurd hstate hfirst
      | suspended => exact absurd hstate hyielded
      | _ => rfl

omit [LawfulHost H] in
theorem outset_metered (w : World H) (r : CoroutineRef) (c : Coroutine) (p : Processor)
    (args : List Value) (k : Meter) :
    (w.metered r k).outset r { c with processor? := some (p.metered (some k)) }
        (p.metered (some k)) args =
      (w.outset r c p args).metered r { k with executed := 0 } := by
  have hmeter (k : Meter) :
      meterFor r k [.body, .switch r {} (Machine.handing (H := H))] = some k := if_pos rfl
  unfold outset
  rw [engage_metered]
  change (match c.state, p.yielded? with
    | .notStarted, _ => _
    | .suspended, some frame => _
    | _, _ => _) = _
  split
  · have hexec := Machine.exec_metered (r := r) (k := { k with executed := 0 }) .loop
      (Exec.ignoresMeter_call c.entry args { entryPoint := true } 0 {})
      ⟨w.engage r, p.enterOutermost⟩ [.body, .switch r {} Machine.handing]
    rw [hmeter] at hexec
    exact hexec
  · rw [metered_body]
    rfl
  · rw [metered_body]
    rfl

theorem Rests.hostResume (h : w.Rests r c p) (hfree : p.metered (some {}) = p)
    (haccepted : w.resumeRefusal? r args = none) : (w.launch r args).HostResume r := by
  have hreachable := h.reachable args
  have hscript : w.IsScript r := by
    refine ⟨c, h.found, h.script, ?_⟩
    intro hmain
    obtain ⟨c', -, hc', -, hstate⟩ := atRest_of_accepted haccepted
    rw [h.found] at hc'
    cases hc'
    rw [hmain] at hstate
    cases hstate
  have hadvances := (Machine.turn_next hreachable.wellNested.control).advances hreachable.wellNested
  have hresumes : (w.resuming r args).Resumes r args Machine.handing := ⟨rfl, haccepted⟩
  have hnext := hresumes.inResume hreachable h.found h.script h.processor
  rw [resuming_next haccepted] at hadvances hnext
  have hbudget : p.autoYield? = none := (congrArg Processor.autoYield? hfree).symm
  rw [h.canYield, hbudget] at hnext
  exact ⟨hnext, hadvances.isScript hscript⟩

/-- A resume with a budget begins like one without. -/
theorem Rests.launch_metered (h : w.Rests r c p) (args : List Value) (n e : Nat) :
    (w.metered r ⟨some n, e⟩).launch r args = (w.launch r args).budgeted r n 0 := by
  rw [(h.metered ⟨some n, e⟩).launch_eq, h.launch_eq]
  exact outset_metered w r c p args ⟨some n, e⟩

end World

/-! ## The end of a resume -/

namespace Machine

variable [Host H] [LawfulHost H] {m : Machine H} {n : Nat}

/-- What the world knows of a coroutine in flight. -/
theorem HostResume.engaged (h : m.HostResume r) :
    ∃ c, m.core.world.coroutine? r = some c ∧ c.kind = .script ∧ c.state = .running ∧
      c.processor? = none := by
  obtain ⟨c, hc, hkind, hstate⟩ := h.script
  have hwellNested := h.reachable.wellNested
  have hmem : r ∈ m.core.world.inFlight := by
    rw [hwellNested.inFlight]
    exact h.serves.mem_switches
  have hmain : r ≠ m.core.world.main := by
    rintro rfl
    exact hstate (hwellNested.scheduled.state_main hc)
  exact ⟨c, hc, hkind, (hwellNested.scheduled.running r c hc hmain).mpr hmem,
    (hwellNested.scheduled.working r c hc).mpr hmem⟩

theorem HostResume.inFlight_eq (h : m.HostResume r)
    (hloops : m.activations = [.body, .switch r {} handing]) :
    m.core.world.inFlight = [r] := by
  rw [h.reachable.wellNested.inFlight, hloops]
  rfl

/-- Suspending the coroutine leaves nothing in flight, and resuming it restores the world. -/
theorem HostResume.engage_released (h : m.HostResume r)
    (hloops : m.activations = [.body, .switch r {} handing]) (p : Processor)
    (exit : Except RuntimeError LoopExit) :
    (m.core.world.release r p exit).inFlight = [] ∧
      (m.core.world.release r p exit).engage r = m.core.world := by
  have hinFlight := h.inFlight_eq hloops
  obtain ⟨c, hc, -, hrunning, hnone⟩ := h.engaged
  refine ⟨?_, World.engage_release hc hrunning hnone p exit hinFlight⟩
  rw [World.inFlight_release, hinFlight]
  rfl

/-- The coroutine rests after it has given way. -/
theorem HostResume.rests_released (h : m.HostResume r) (hworking : IsWorking r m.activations)
    {p : Processor} (hp : p.canYield = m.core.proc.canYield)
    {exit : Except RuntimeError LoopExit}
    (hidle : (m.core.world.release r p exit).Idle) :
    ∃ c, (m.core.world.release r p exit).Rests r c p ∧
      c.state = CoroutineState.after .running exit := by
  obtain ⟨c, hc, hkind, hstate, -⟩ := h.engaged
  refine ⟨_, ⟨hidle, World.coroutine?_release_self hc p exit, hkind, rfl, ?_⟩, ?_⟩
  · exact hp.trans (h.canYield.of_isWorking hworking)
  · exact congrArg (CoroutineState.after · exit) hstate

end Machine

namespace World

variable [Host H] [LawfulHost H] {w : World H} {c : Coroutine} {p : Processor}
  {args : List Value} {n e fuel : Nat} {result : Except RuntimeError Value} {w' : World H}

/-- A coroutine at rest with no budget. -/
structure Unmetered (w : World H) (r : CoroutineRef) (c : Coroutine) (p : Processor) : Prop
    extends w.Rests r c p where
  free : p.metered (some {}) = p

/-- The resume went ahead, and the coroutine is suspended by force. -/
def Interrupted (r : CoroutineRef) (result : Except RuntimeError Value) (w : World H) : Prop :=
  (∃ v, result = .ok v) ∧ (w.coroutine r).state = .forceSuspended

/-- A coroutine that gave way of its own rests as it does without a budget. -/
theorem Unmetered.landed (h : w.Unmetered r c p) (haccepted : w.resumeRefusal? r args = none)
    {d : Nat} {core : Core H} {exit : Except RuntimeError LoopExit}
    (hresume : ((w.launch r args).after d).HostResume r)
    (hd : (w.launch r args).after d =
      ⟨core, [.switch r {} Machine.handing], .switching exit⟩) :
    ∃ c', (core.world.release r core.proc exit).Unmetered r c' core.proc ∧
      c'.state = CoroutineState.after .running exit := by
  have hend : (w.launch r args).after (d + 2) =
      ⟨⟨core.world.release r core.proc exit, {}⟩, [],
        .finished (exit.map LoopExit.value)⟩ := by
    rw [Machine.after_add, hd, Machine.after_switching]
  have hreachable : ((w.launch r args).after (d + 2)).Reachable :=
    (h.toRests.hostResume h.free haccepted).reachable.after _
  rw [hend] at hreachable
  rw [hd] at hresume
  obtain ⟨c', hrests, hstate⟩ :=
    hresume.rests_released rfl rfl ⟨_, hreachable, ⟨_, rfl⟩, .refl _⟩
  exact ⟨c', ⟨hrests, hresume.proc_free rfl⟩, hstate⟩

omit [LawfulHost H] in
theorem Rests.next_reachable (h : w.Rests r c p) (haccepted : w.resumeRefusal? r args = none) :
    (w.launch r args).Reachable := by
  rw [← resuming_next haccepted]
  exact .next (h.reachable args)

theorem Rests.settings_after (h : w.Rests r c p) (haccepted : w.resumeRefusal? r args = none)
    (i : Nat) : ((w.launch r args).after i).core.world.settings = w.settings := by
  have hleads := Machine.leads_after (w.resuming r args) (i + 1)
  rw [← Machine.after_next, resuming_next haccepted] at hleads
  exact (hleads.retains (h.reachable args)).settings

/-- What is left of a resume whose budget was used up arises in a history, too. -/
theorem Unmetered.idle_paused (h : w.Unmetered r c p)
    (haccepted : w.resumeRefusal? r args = none) {i : Nat}
    (hexhausts : (w.launch r args).Exhausts r n i) :
    (((w.launch r args).after i).core.world.release r
      ((w.launch r args).after i).core.proc.idle (.ok .forceYielded)).Idle := by
  have hproc := hexhausts.hostResume.proc_free hexhausts.ticks.working
  have hidle : ((w.launch r args).after i).core.proc.idle.metered (some {}) =
      ((w.launch r args).after i).core.proc.idle := congrArg Processor.idle hproc
  have hmetered := h.toRests.metered ⟨some n, 0⟩
  have hreachable := hmetered.next_reachable
    ((resumeRefusal?_metered h.found args).trans haccepted)
  rw [h.toRests.launch_metered args] at hreachable
  have hend := hreachable.after (i + 5)
  rw [hexhausts.after_five, ← release_metered] at hend
  have hmeters : (_ : World H).Idle := ⟨_, hend, ⟨_, rfl⟩, .refl _⟩
  have hfree := hmeters.metered r {}
  rw [metered_metered, release_metered, hidle] at hfree
  exact hfree

omit [LawfulHost H] in
theorem enterOutermost_idle {p : Processor} (hnesting : p.nesting = 1)
    (hexecuted : p.executed = 0) : p.idle.enterOutermost = p := by
  cases p
  cases hnesting
  cases hexecuted
  rfl

theorem Rests.scheduled (h : w.Rests r c p) : w.Scheduled := by
  have hreachable := h.reachable []
  exact hreachable.wellNested.scheduled

theorem Rests.room (h : w.Rests r c p) (haccepted : w.resumeRefusal? r args = none) :
    0 < w.settings.maxNativeNesting := by
  have hnot := (h.scheduled.resumeRefusal?_eq_none_iff r args).mp haccepted
  have hroom := Nat.lt_of_not_le fun hmany => hnot (.tooMany hmany)
  exact Nat.lt_of_le_of_lt (Nat.zero_le _) hroom

/-- A suspended coroutine may be resumed, without arguments if it was suspended by force. -/
theorem Rests.resumeRefusal?_suspended (h : w.Rests r c p)
    (hstate : c.state = .suspended ∨ c.state = .forceSuspended ∧ args = [])
    (hinFlight : w.inFlight = []) (hroom : 0 < w.settings.maxNativeNesting) :
    w.resumeRefusal? r args = none := by
  refine (h.scheduled.resumeRefusal?_eq_none_iff r args).mpr ?_
  have hcurrent := coroutine_of_coroutine? h.found
  intro hrefuses
  cases hrefuses with
  | dead hdead =>
      rw [hcurrent] at hdead
      rcases hstate with hstate | ⟨hstate, -⟩ <;> rw [hstate] at hdead <;> cases hdead
  | notSuspended hnot =>
      rw [hcurrent] at hnot
      rcases hstate with hstate | ⟨hstate, -⟩ <;> rw [hstate] at hnot <;> cases hnot
  | forced hforced hargs =>
      rw [hcurrent] at hforced
      rcases hstate with hstate | ⟨-, hnil⟩
      · rw [hstate] at hforced
        cases hforced
      · exact hargs hnil
  | tooMany hmany =>
      rw [hinFlight] at hmany
      exact absurd hroom (Nat.not_lt_of_le hmany)

/-- A coroutine that its own body has suspended may be resumed again. -/
theorem Rests.accepted_released (h : w.Rests r c p)
    (haccepted : w.resumeRefusal? r args = none) {i : Nat} {m : Machine H}
    (hm : (w.launch r args).after i = m) (hresume : m.HostResume r)
    (hloops : m.activations = [.body, .switch r {} Machine.handing]) {c' : Coroutine}
    {p' : Processor} {exit : Except RuntimeError LoopExit} {args' : List Value}
    (hrests : (m.core.world.release r p' exit).Rests r c' p')
    (hstate : c'.state = .suspended ∨ c'.state = .forceSuspended ∧ args' = []) :
    (m.core.world.release r p' exit).resumeRefusal? r args' = none := by
  have hsettings : (m.core.world.release r p' exit).settings = w.settings := by
    have hafter := h.settings_after haccepted i
    rw [hm] at hafter
    exact (retains_modifyCoroutine _ _ _).settings.trans hafter
  refine hrests.resumeRefusal?_suspended hstate (hresume.engage_released hloops _ _).1 ?_
  rw [hsettings]
  exact h.room haccepted

/-- After a forced suspension a resume takes up what was interrupted. -/
theorem Unmetered.paused (h : w.Unmetered r c p) (haccepted : w.resumeRefusal? r args = none)
    {i : Nat} (hexhausts : (w.launch r args).Exhausts r n i) {m : Machine H}
    (hm : (w.launch r args).after i = m) {w₁ : World H}
    (hw₁ : m.core.world.release r m.core.proc.idle (.ok .forceYielded) = w₁) :
    ∃ c', w₁.Unmetered r c' m.core.proc.idle ∧ c'.state = .forceSuspended ∧
      w₁.resumeRefusal? r [] = none ∧ w₁.launch r [] = m := by
  have hidle := h.idle_paused haccepted hexhausts
  have hresume := hexhausts.hostResume
  have hticks := hexhausts.ticks
  rw [hm] at hidle hresume hticks
  have hactivations := hresume.activations_of_ticks hticks
  have hproc := hresume.proc_free hticks.working
  obtain ⟨c', hrests, hstate⟩ :=
    hresume.rests_released (p := m.core.proc.idle) hticks.working rfl hidle
  have hagain := h.toRests.accepted_released haccepted hm hresume hactivations hrests
    (Or.inr ⟨hstate, rfl⟩)
  obtain ⟨-, hengage⟩ :=
    hresume.engage_released hactivations m.core.proc.idle (.ok .forceYielded)
  rw [hw₁] at hrests hengage hagain
  refine ⟨c', ⟨hrests, congrArg Processor.idle hproc⟩, hstate, hagain, ?_⟩
  -- The processor has been put to sleep with nothing counted and is what it was when woken.
  rw [hrests.launch_eq]
  unfold outset
  rw [hstate, hengage, enterOutermost_idle hticks.nesting (hresume.executed hticks.working)]
  obtain ⟨core, activations, control⟩ := m
  obtain rfl : activations = _ := hactivations
  obtain rfl : control = _ := hticks.control
  rfl

end World

end ScriptEngine
