import ScriptEngine.Machine.Resolve
import ScriptEngine.World.Basic

/-!
# Worlds that extend one another

Whatever is done in a world leaves its objects in their places and of their
kinds: functions stay what they are, tables and user data may change inside,
and a coroutine is moved by nobody but the machine.  `World.Extends` is this
order.  Instructions, library functions and the operations of an embedding all
stay within it, so what the machine knows of functions and coroutines survives
them.
-/

namespace ScriptEngine

/-- The same state of execution; the budget may have been set anew. -/
structure Processor.Alike (p p' : Processor) : Prop where
  stack : p'.stack = p.stack
  frames : p'.frames = p.frames
  ip : p'.ip = p.ip
  chunk : p'.chunk? = p.chunk?
  nesting : p'.nesting = p.nesting
  canYield : p'.canYield = p.canYield
  yielded : p'.yielded? = p.yielded?

/-- A processor on which nothing has run. -/
structure Processor.Fresh (p : Processor) : Prop where
  stack : p.stack = .empty
  frames : p.frames = .empty
  nesting : p.nesting = 0
  yielded : p.yielded? = none

structure Coroutine.Alike (c c' : Coroutine) : Prop where
  state : c'.state = c.state
  kind : c'.kind = c.kind
  entry : c'.entry = c.entry
  processor : Option.Rel Processor.Alike c.processor? c'.processor?

/-- A coroutine that has been made and not resumed. -/
structure Coroutine.Fresh (c : Coroutine) : Prop where
  state : c.state = .notStarted
  processor : ∃ p, c.processor? = some p ∧ p.Fresh

namespace Processor

theorem Alike.refl (p : Processor) : p.Alike p :=
  ⟨rfl, rfl, rfl, rfl, rfl, rfl, rfl⟩

theorem Alike.trans {p q r : Processor} (h : p.Alike q) (h' : q.Alike r) :
    p.Alike r := by
  constructor
  · rw [h'.stack, h.stack]
  · rw [h'.frames, h.frames]
  · rw [h'.ip, h.ip]
  · rw [h'.chunk, h.chunk]
  · rw [h'.nesting, h.nesting]
  · rw [h'.canYield, h.canYield]
  · rw [h'.yielded, h.yielded]

theorem Alike.setAutoYield (p : Processor) (budget? : Option Nat) :
    p.Alike (p.setAutoYield budget?) :=
  ⟨rfl, rfl, rfl, rfl, rfl, rfl, rfl⟩

theorem Fresh.of_alike {p p' : Processor} (h : p.Fresh) (halike : p.Alike p') :
    p'.Fresh := by
  constructor
  · rw [halike.stack, h.stack]
  · rw [halike.frames, h.frames]
  · rw [halike.nesting, h.nesting]
  · rw [halike.yielded, h.yielded]

end Processor

namespace Coroutine

theorem Alike.refl (c : Coroutine) : c.Alike c := by
  refine ⟨rfl, rfl, rfl, ?_⟩
  cases c.processor? with
  | none => exact .none
  | some p => exact .some (.refl p)

theorem Alike.trans {c d e : Coroutine} (h : c.Alike d) (h' : d.Alike e) :
    c.Alike e := by
  refine ⟨h'.state.trans h.state, h'.kind.trans h.kind,
    h'.entry.trans h.entry, ?_⟩
  have hfirst := h.processor
  have hsecond := h'.processor
  revert hfirst hsecond
  cases c.processor? <;> cases d.processor? <;> cases e.processor? <;>
    intro hfirst hsecond <;> cases hfirst <;> cases hsecond
  · exact .none
  · next h₁ h₂ => exact .some (h₁.trans h₂)

theorem Alike.isNone {c c' : Coroutine} (h : c.Alike c') :
    c'.processor? = none ↔ c.processor? = none := by
  have hprocessor := h.processor
  revert hprocessor
  cases c.processor? <;> cases c'.processor? <;> intro hprocessor <;>
    cases hprocessor <;> simp

theorem Fresh.of_alike {c c' : Coroutine} (h : c.Fresh) (halike : c.Alike c') :
    c'.Fresh := by
  obtain ⟨p, hp, hfresh⟩ := h.processor
  have hprocessor := halike.processor
  rw [hp] at hprocessor
  refine ⟨halike.state.trans h.state, ?_⟩
  cases hc : c'.processor? with
  | none =>
      rw [hc] at hprocessor
      cases hprocessor
  | some p' =>
      rw [hc] at hprocessor
      cases hprocessor with
      | some hsame => exact ⟨p', rfl, hfresh.of_alike hsame⟩

end Coroutine

variable {H : HostTypes}

/-- What may have become of an object. -/
inductive Object.Continues : Object H → Object H → Prop where
  | table (t t' : Table) : Continues (.table t) (.table t')
  | userData (o o' : H.Object) : Continues (.userData o) (.userData o')
  | coroutine {c c' : Coroutine} (h : c.Alike c') :
      Continues (.coroutine c) (.coroutine c')
  | same (o : Object H) : Continues o o

/-- A coroutine among the new objects has not run. -/
def Object.Fresh (o : Object H) : Prop :=
  ∀ c, o = .coroutine c → c.Fresh

theorem Object.Continues.trans {a b c : Object H} (h : a.Continues b)
    (h' : b.Continues c) : a.Continues c := by
  cases h with
  | table t t' =>
      cases h' with
      | table _ t'' => exact .table t t''
      | same => exact .table t t'
  | userData o o' =>
      cases h' with
      | userData _ o'' => exact .userData o o''
      | same => exact .userData o o'
  | coroutine hc =>
      cases h' with
      | coroutine hc' => exact .coroutine (hc.trans hc')
      | same => exact .coroutine hc
  | same => exact h'

theorem Object.Fresh.of_continues {o o' : Object H} (h : o.Fresh)
    (hcontinues : o.Continues o') : o'.Fresh := by
  cases hcontinues with
  | table t t' =>
      intro c hsame
      cases hsame
  | userData o o' =>
      intro c hsame
      cases hsame
  | coroutine hc =>
      intro c hsame
      cases hsame
      exact (h _ rfl).of_alike hc
  | same => exact h

namespace World

structure Extends (w w' : World H) : Prop where
  main : w'.main = w.main
  settings : w'.settings = w.settings
  inFlight : w'.inFlight = w.inFlight
  old : ∀ id o, w.object? id = some o →
    ∃ o', w'.object? id = some o' ∧ o.Continues o'
  new : ∀ id o, w'.object? id = some o → w.object? id = none → o.Fresh

theorem Extends.refl (w : World H) : w.Extends w := by
  refine ⟨rfl, rfl, rfl, fun id o h => ⟨o, h, .same o⟩, ?_⟩
  intro id o hsome hnone
  rw [hnone] at hsome
  cases hsome

theorem Extends.trans {u v w : World H} (h : u.Extends v) (h' : v.Extends w) :
    u.Extends w := by
  refine ⟨h'.main.trans h.main, h'.settings.trans h.settings,
    h'.inFlight.trans h.inFlight, ?_, ?_⟩
  · intro id o ho
    obtain ⟨o', ho', hcontinues⟩ := h.old id o ho
    obtain ⟨o'', ho'', hcontinues'⟩ := h'.old id o' ho'
    exact ⟨o'', ho'', hcontinues.trans hcontinues'⟩
  · intro id o hw hu
    cases hv : v.object? id with
    | none => exact h'.new id o hw hv
    | some o' =>
        obtain ⟨o'', ho'', hcontinues⟩ := h'.old id o' hv
        rw [hw] at ho''
        cases ho''
        exact (h.new id o' hv hu).of_continues hcontinues

/-! ## What survives -/

def coroutine? (w : World H) (r : CoroutineRef) : Option Coroutine :=
  match w.object? r.id with
  | some (.coroutine c) => some c
  | _ => none

theorem coroutine_of_coroutine? {w : World H} {r : CoroutineRef} {c : Coroutine}
    (h : w.coroutine? r = some c) : w.coroutine r = c := by
  unfold coroutine? at h
  cases hobject : w.object? r.id with
  | none =>
      rw [hobject] at h
      cases h
  | some o =>
      rw [hobject] at h
      cases o with
      | coroutine d =>
          cases h
          unfold coroutine
          rw [hobject]
      | _ => cases h

theorem coroutine?_eq_some_iff {w : World H} {r : CoroutineRef} {c : Coroutine} :
    w.coroutine? r = some c ↔ w.object? r.id = some (.coroutine c) := by
  unfold coroutine?
  split
  · next hobject => simp [hobject]
  · next hother =>
      constructor
      · intro h
        cases h
      · intro h
        exact absurd h (hother c)

theorem Extends.native? {w w' : World H} (h : w.Extends w') {r : NativeRef}
    {f : Native H} (hf : w.native? r = some f) : w'.native? r = some f := by
  unfold World.native? at hf ⊢
  split at hf
  · next hobject =>
      cases hf
      obtain ⟨o', ho', hcontinues⟩ := h.old _ _ hobject
      cases hcontinues
      rw [ho']
  · cases hf

theorem Extends.coroutine? {w w' : World H} (h : w.Extends w')
    {r : CoroutineRef} {c : Coroutine} (hc : w.coroutine? r = some c) :
    ∃ c', w'.coroutine? r = some c' ∧ c.Alike c' := by
  rw [coroutine?_eq_some_iff] at hc
  obtain ⟨o', ho', hcontinues⟩ := h.old _ _ hc
  cases hcontinues with
  | coroutine hsame =>
      exact ⟨_, coroutine?_eq_some_iff.mpr ho', hsame⟩
  | same => exact ⟨c, coroutine?_eq_some_iff.mpr ho', .refl c⟩

/-- Coroutines at rest stay where they are. -/
theorem Extends.rests {w w' : World H} (h : w.Extends w') {r : CoroutineRef}
    {c : Coroutine} {p : Processor} (hc : w.coroutine? r = some c)
    (hp : c.processor? = some p) :
    ∃ c' p', w'.coroutine? r = some c' ∧ c'.processor? = some p' ∧ p.Alike p' ∧
      c'.state = c.state := by
  obtain ⟨c', hc', halike⟩ := h.coroutine? hc
  have hprocessor := halike.processor
  rw [hp] at hprocessor
  generalize hp' : c'.processor? = p? at hprocessor
  cases hprocessor with
  | some hsame => exact ⟨c', _, hc', hp', hsame, halike.state⟩

/-- A coroutine that was not there is new. -/
theorem Extends.fresh {w w' : World H} (h : w.Extends w') {r : CoroutineRef}
    {c : Coroutine} (hc : w'.coroutine? r = some c)
    (hnone : w.coroutine? r = none) : c.Fresh := by
  rw [coroutine?_eq_some_iff] at hc
  cases hold : w.object? r.id with
  | none => exact h.new _ _ hc hold c rfl
  | some o =>
      obtain ⟨o', ho', hcontinues⟩ := h.old _ _ hold
      rw [hc] at ho'
      cases ho'
      cases hcontinues with
      | coroutine hsame =>
          rw [coroutine?_eq_some_iff.mpr hold] at hnone
          cases hnone
      | same =>
          rw [coroutine?_eq_some_iff.mpr hold] at hnone
          cases hnone

/-! ## Elementary changes -/

/-- Changes of anything but the objects and what the machine relies on. -/
theorem Extends.of_objects {w w' : World H} (hobjects : w'.objects = w.objects)
    (hmain : w'.main = w.main) (hsettings : w'.settings = w.settings)
    (hinFlight : w'.inFlight = w.inFlight) : w.Extends w' := by
  have hobject : ∀ id, w'.object? id = w.object? id := by
    intro id
    cases id with
    | zero => rfl
    | succ n => simp only [object?, hobjects]
  refine ⟨hmain, hsettings, hinFlight, ?_, ?_⟩
  · intro id o ho
    exact ⟨o, (hobject id).trans ho, .same o⟩
  · intro id o hsome hnone
    rw [hobject, hnone] at hsome
    cases hsome

theorem Extends.modifyObject (w : World H) (id : Nat)
    (f : Object H → Object H) (hf : ∀ o : Object H, o.Continues (f o)) :
    w.Extends (w.modifyObject id f) := by
  refine ⟨?_, ?_, ?_, ?_, ?_⟩
  · cases id <;> rfl
  · cases id <;> rfl
  · cases id <;> rfl
  · intro other o ho
    rw [object?_modifyObject]
    by_cases hid : id = other
    · exact ⟨f o, by simp [hid, ho], hf o⟩
    · exact ⟨o, by simp [hid, ho], .same o⟩
  · intro other o hsome hnone
    rw [object?_modifyObject, hnone] at hsome
    simp at hsome

theorem Extends.modifyTable (w : World H) (r : TableRef) (f : Table → Table) :
    w.Extends (w.modifyTable r f) := by
  apply Extends.modifyObject
  intro o
  cases o with
  | table t => exact .table t (f t)
  | closure c => exact .same _
  | native f => exact .same _
  | coroutine c => exact .same _
  | userData o => exact .same _

theorem Extends.setUserObject (w : World H) (r : UserDataRef) (o : H.Object) :
    w.Extends (w.setUserObject r o) := by
  apply Extends.modifyObject
  intro other
  cases other with
  | table t => exact .same _
  | closure c => exact .same _
  | native f => exact .same _
  | coroutine c => exact .same _
  | userData old => exact .userData old o

theorem Extends.noteLength (w : World H) (v : Value) :
    w.Extends (w.noteLength v) := by
  unfold World.noteLength
  split
  · exact .modifyTable w _ _
  · exact .refl w

theorem Extends.add (w : World H) {o : Object H} (ho : o.Fresh) :
    w.Extends (w.add o) := by
  refine ⟨rfl, rfl, rfl, ?_, ?_⟩
  · intro id old hold
    refine ⟨old, ?_, .same old⟩
    rw [object?_add_of_ne, hold]
    rintro rfl
    simp [nextId, object?] at hold
  · intro id new hsome hnone
    by_cases hid : id = w.nextId
    · rw [hid, object?_add_nextId] at hsome
      cases hsome
      exact ho
    · rw [object?_add_of_ne w o hid, hnone] at hsome
      cases hsome

theorem Extends.addTable (w : World H) (t : Table) :
    w.Extends (w.addTable t).2 := by
  apply Extends.add
  intro coroutine h
  cases h

theorem Extends.addClosure (w : World H) (c : Closure) :
    w.Extends (w.addClosure c).2 := by
  apply Extends.add
  intro coroutine h
  cases h

theorem Extends.addNative (w : World H) (f : Native H) :
    w.Extends (w.addNative f).2 := by
  apply Extends.add
  intro coroutine h
  cases h

theorem Extends.addUserData (w : World H) (o : H.Object) :
    w.Extends (w.addUserData o).2 := by
  apply Extends.add
  intro coroutine h
  cases h

theorem Extends.addCoroutine (w : World H) (kind : CoroutineKind)
    (entry : Value) : w.Extends (w.addCoroutine kind entry).2 := by
  apply Extends.add
  intro c hc
  cases hc
  exact ⟨rfl, _, rfl, rfl, rfl, rfl, rfl⟩

theorem Extends.setCell (w : World H) (c : CellRef) (v : Value) :
    w.Extends (w.setCell c v) :=
  .of_objects rfl rfl rfl rfl

theorem Extends.newCell (w : World H) (v : Value) :
    w.Extends (w.newCell v).2 :=
  .of_objects rfl rfl rfl rfl

theorem Extends.newCells (w : World H) (n : Nat) :
    w.Extends (w.newCells n).2 :=
  .of_objects rfl rfl rfl rfl

theorem Extends.print (w : World H) (line : String) :
    w.Extends (w.print line) :=
  .of_objects rfl rfl rfl rfl

theorem Extends.assign (w : World H) (a : Assignment H) :
    w.Extends (w.assign a) := by
  cases a with
  | entry t key written value => exact .modifyTable w t _
  | object u o => exact .setUserObject w u o
  | call p => exact .refl w

/-- The host may give a coroutine that does not run a budget. -/
theorem Extends.modifyCoroutine (w : World H) (r : CoroutineRef)
    {f : Coroutine → Coroutine}
    (hf : ∀ c, w.coroutine? r = some c → c.Alike (f c)) :
    w.Extends (w.modifyCoroutine r f) := by
  refine ⟨?_, ?_, ?_, ?_, ?_⟩
  · unfold World.modifyCoroutine World.modifyObject
    cases r.id <;> rfl
  · unfold World.modifyCoroutine World.modifyObject
    cases r.id <;> rfl
  · unfold World.modifyCoroutine World.modifyObject
    cases r.id <;> rfl
  · intro id o ho
    unfold World.modifyCoroutine
    rw [object?_modifyObject]
    by_cases hid : r.id = id
    · rw [if_pos hid, ho]
      refine ⟨_, rfl, ?_⟩
      cases o with
      | coroutine c =>
          rw [← hid] at ho
          exact .coroutine (hf c (coroutine?_eq_some_iff.mpr ho))
      | _ => exact .same _
    · rw [if_neg hid]
      exact ⟨o, ho, .same o⟩
  · intro id o hsome hnone
    unfold World.modifyCoroutine at hsome
    rw [object?_modifyObject, hnone] at hsome
    simp at hsome

end World

end ScriptEngine
