import ScriptEngine.Proofs.Coroutine.History

/-!
# Properties of all processors

One processor is at hand, those of coroutines that have resumed others wait, and all
others rest with their coroutines.  A step works on the one at hand and moves
processors between the three places.  So what holds of a processor on which nothing
has run, and what every step keeps of the one at hand, holds of them all.
-/

namespace ScriptEngine

variable {H : HostTypes} {P : Settings → Processor → Prop}

/-- The property is there before anything runs, and the budget has no part in it. -/
structure Processor.Inert (P : Settings → Processor → Prop) : Prop where
  fresh {s : Settings} {p : Processor} (h : p.Fresh) : P s p
  alike {s : Settings} {p p' : Processor} (h : p.Alike p') (hp : P s p) : P s p'

/-- The processors at rest have the property. -/
def World.AtRest (P : Processor → Prop) (w : World H) : Prop :=
  ∀ r c p, w.coroutine? r = some c → c.processor? = some p → P p

structure Machine.Everywhere (P : Settings → Processor → Prop) (m : Machine H) : Prop where
  atHand : P m.core.world.settings m.core.proc
  waiting (r : CoroutineRef) (outer : Processor)
    (next : Except RuntimeError Value → Action H NativeOutcome)
    (h : .switch r outer next ∈ m.activations) : P m.core.world.settings outer
  resting : m.core.world.AtRest (P m.core.world.settings)

namespace World

variable {w w' : World H}

theorem AtRest.of_extends {P : Processor → Prop} (h : w.AtRest P)
    (hfresh : ∀ p : Processor, p.Fresh → P p)
    (halike : ∀ p p' : Processor, p.Alike p' → P p → P p')
    (hw : w.Extends w') : w'.AtRest P :=
  Resting.of_extends (Q := fun _ => P) h hw (halike _ _) (hfresh _)

theorem AtRest.engage {P : Processor → Prop} (h : w.AtRest P) {r : CoroutineRef}
    {c : Coroutine} (hc : w.coroutine? r = some c) : (w.engage r).AtRest P :=
  Resting.engage (Q := fun _ => P) h hc id

theorem AtRest.release {P : Processor → Prop} (h : w.AtRest P) {r : CoroutineRef}
    {c : Coroutine} (hc : w.coroutine? r = some c) {p : Processor} (hp : P p)
    (exit : Except RuntimeError LoopExit) : (w.release r p exit).AtRest P :=
  Resting.release (Q := fun _ => P) h hc id hp

end World

namespace Machine

variable {m m' : Machine H}

theorem Turn.atRest (h : Turn m m') (hm : m.WellNested) (hP : Processor.Inert P)
    (heverywhere : m.Everywhere P) :
    m'.core.world.AtRest (P m.core.world.settings) := by
  have hextends (hw : m.core.world.Extends m'.core.world) :
      m'.core.world.AtRest (P m.core.world.settings) :=
    heverywhere.resting.of_extends (fun _ => hP.fresh) (fun _ _ => hP.alike) hw
  cases h with
  | stays hworld => exact hextends hworld
  | enters hworld => exact hextends hworld
  | leaves hworld =>
      rw [hworld]
      exact heverywhere.resting
  | engages r c hready p hp hproc next hworld =>
      rw [hworld]
      exact heverywhere.resting.engage hready.found
  | releases r next exit hexit hworld h =>
      obtain ⟨c, hc⟩ : ∃ c, m.core.world.coroutine? r = some c := by
        apply hm.scheduled.present
        simp [hm.inFlight, h, switches, Activation.coroutine?]
      rw [hworld]
      exact heverywhere.resting.release hc heverywhere.atHand exit

theorem Turn.waiting_of (h : Turn m m') (heverywhere : m.Everywhere P)
    {r : CoroutineRef} {outer : Processor}
    {next : Except RuntimeError Value → Action H NativeOutcome}
    (hmem : .switch r outer next ∈ m'.activations) :
    P m.core.world.settings outer := by
  cases h with
  | stays hworld h =>
      rw [h] at hmem
      exact heverywhere.waiting r outer next hmem
  | enters hworld mark waiter h =>
      rw [h] at hmem
      exact heverywhere.waiting r outer next (by simpa using hmem)
  | leaves hworld a ha h =>
      exact heverywhere.waiting r outer next (by simp [h, hmem])
  | engages s c hready p hp hproc next' hworld loops hloops h =>
      rw [h, List.mem_append, List.mem_cons] at hmem
      rcases hmem with hloop | hswitch | hmem
      · have hnone := hloops _ hloop
        cases hnone
      · cases hswitch
        exact heverywhere.atHand
      · exact heverywhere.waiting r outer next hmem
  | releases s next' exit hexit hworld h =>
      exact heverywhere.waiting r outer next (by simp [h, hmem])

/-- It is enough to look at the processor that is at hand after the step. -/
theorem Everywhere.next [Host H] (h : m.Everywhere P) (hm : m.WellNested)
    (hP : Processor.Inert P) (hown : P m.core.world.settings m.next.core.proc) :
    m.next.Everywhere P := by
  have hturn := turn_next hm.control
  have hsettings := hturn.retains.settings
  constructor
  · rw [hsettings]
    exact hown
  · intro r outer next hmem
    rw [hsettings]
    exact hturn.waiting_of h hmem
  · rw [hsettings]
    exact hturn.atRest hm hP h

theorem everywhere_start (hP : Processor.Inert P) {w : World H}
    (hw : w.AtRest (P w.settings)) (a : Action H NativeOutcome) :
    (start w a).Everywhere P := by
  constructor
  · apply hP.fresh
    constructor <;> rfl
  · intro r outer next hmem
    cases hmem
  · exact hw

theorem atRest_startWorld (hP : Processor.Inert P) (settings : Settings)
    (host : H.State) (s : Settings) : (World.start settings host).AtRest (P s) :=
  World.resting_start (Q := fun _ => P s) (hP.fresh ⟨rfl, rfl, rfl, rfl⟩) hP.alike hP.fresh
    settings host

/-- What the steps keep of the processor at hand holds of all processors in every
state of every history. -/
theorem Reachable.everywhere [Host H] [LawfulHost H] (hP : Processor.Inert P)
    (hstep : ∀ m : Machine H, m.Reachable → m.Everywhere P →
      P m.core.world.settings m.next.core.proc)
    (h : m.Reachable) : m.Everywhere P := by
  induction h with
  | start settings host ha =>
      exact everywhere_start hP (atRest_startWorld hP settings host _) _
  | next h ih => exact ih.next h.wellNested hP (hstep _ h ih)
  | again h hfinished hw ha ih =>
      apply everywhere_start hP
      rw [hw.settings]
      exact ih.resting.of_extends (fun _ => hP.fresh) (fun _ _ => hP.alike) hw

end Machine

end ScriptEngine
