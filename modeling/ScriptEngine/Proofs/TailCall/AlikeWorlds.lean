import ScriptEngine.Proofs.Machine.JumpTargets
import ScriptEngine.Proofs.Native.Simple
import ScriptEngine.Proofs.TailCall.Layout

/-!
# Worlds with spent frames at rest

Two worlds are alike if scripts see the same in both and the processors that rest in them differ in
spent frames only.  Most functions cannot tell such worlds apart, nor two errors by their
tracebacks: `Action.Alike` says of two actions that they do the same in worlds alike.  All functions
of the library are blind in this sense.
-/

namespace ScriptEngine

variable {H : HostTypes}

/-! ## Processors at rest -/

/-- What two processors have in common, whatever they run. -/
structure Processor.Twin (p p' : Processor) : Prop where
  nesting : p'.nesting = p.nesting
  canYield : p'.canYield = p.canYield

/-- Both processors are at the same place in the code. -/
structure Processor.Placed (p p' : Processor) : Prop where
  ip : p'.ip = p.ip
  chunk : p'.chunk? = p.chunk?

theorem Processor.Placed.location_eq {p p' : Processor} (h : p.Placed p') :
    p'.location? = p.location? := by
  unfold Processor.location?
  rw [h.chunk, h.ip]

theorem Processor.Twin.trans {p p' p'' : Processor} (h : p.Twin p') (h' : p'.Twin p'') :
    p.Twin p'' := by
  constructor
  · rw [h'.nesting, h.nesting]
  · rw [h'.canYield, h.canYield]

theorem Processor.Twin.isYieldable_eq {p p' : Processor} (h : p.Twin p') :
    p'.isYieldable = p.isYieldable := by
  unfold Processor.isYieldable
  rw [h.canYield, h.nesting]

/-- The code that is at hand is that of the function. -/
def World.Runs (w : World H) (r : FunctionRef) (chunk? : Option Chunk) : Prop :=
  ∀ (chunk : Chunk) (i : Instruction) (ip : Nat), chunk? = some chunk →
    chunk.code[ip]? = some i → ∃ k, w.HasClosure r k ∧ k.chunk = chunk

/-- The topmost frame goes on with the next instruction. -/
def Layout.Goes (w : World H) (L : Layout) (chunk? : Option Chunk) : Prop :=
  ∃ f r, L.frames.head? = some f ∧ f.callee = .function r ∧ f.flags.awaiting = false ∧
    w.Runs r chunk?

/-- The frames that two processors have set aside belong right above their layouts. -/
def Parks (R : Callee → Nat → Prop) (n n' : Nat) (L M' : Layout)
    (yielded? yielded?' : Option Frame) : Prop :=
  ∃ f g L', yielded? = some f ∧ yielded?' = some g ∧ LayoutsMatch R n n' L L' ∧
    Corresponds R n n' L L' M' f g

/-- Processors of a coroutine that rests. -/
structure RestsAlike (w : World H) (s : CoroutineState) (p p' : Processor) : Prop where
  twin : p.Twin p'
  placed : s ≠ .dead → p.Placed p'
  idle : s = .notStarted → p.layout = .empty ∧ p'.layout = .empty
  main : s = .main → LayoutsMatch w.ReturnsAt 0 0 p.layout p'.layout
  parked : s = .suspended → p.yielded? = none ∧ p'.yielded? = none ∨
    Parks w.ReturnsAt 0 0 p.layout p'.layout p.yielded? p'.yielded?
  forced : s = .forceSuspended →
    LayoutsMatch w.ReturnsAt 0 0 p.layout p'.layout ∧ Layout.Goes w p.layout p.chunk?

/-- Scripts see the same in both worlds. -/
structure World.Like (w w' : World H) : Prop where
  bare : w'.bare = w.bare
  resting : ∀ r c, w.coroutine? r = some c → ∃ processor?,
    w'.coroutine? r = some { c with processor? } ∧
      Option.Rel (RestsAlike w c.state) c.processor? processor?

/-! ### More functions -/

namespace World

variable {w w₁ w' w₁' : World H}

theorem HasClosure.of_code {r : FunctionRef} {ip : Nat} {i : Instruction}
    (h : (w.closure r).chunk.code[ip]? = some i) : w.HasClosure r (w.closure r) := by
  unfold HasClosure closure at *
  split at h
  · next k hk => rw [hk]
  · cases h

theorem runs_closure (w : World H) (r : FunctionRef) : w.Runs r (some (w.closure r).chunk) := by
  intro chunk i ip hchunk hi
  obtain rfl := Option.some.inj hchunk
  exact ⟨_, .of_code hi, rfl⟩

theorem Runs.mono {r : FunctionRef} {chunk? : Option Chunk} (h : w.Runs r chunk?)
    (hw : w.KeepsClosures w₁) : w₁.Runs r chunk? := by
  intro chunk i ip hchunk hi
  obtain ⟨k, hk, hsame⟩ := h chunk i ip hchunk hi
  exact ⟨k, hw r k hk, hsame⟩

theorem ReturnsAt.mono {callee : Callee} {ip : Nat} (h : w.ReturnsAt callee ip)
    (hw : w.KeepsClosures w₁) : w₁.ReturnsAt callee ip := by
  obtain ⟨r, i, hcallee, hi, hop, hnum⟩ := h
  have hk := hw r _ (HasClosure.of_code hi)
  exact ⟨r, i, hcallee, by rw [hk.closure_eq]; exact hi, hop, hnum⟩

end World

theorem Layout.Goes.mono {w w₁ : World H} {L : Layout} {chunk? : Option Chunk}
    (h : Layout.Goes w L chunk?) (hw : w.KeepsClosures w₁) : Layout.Goes w₁ L chunk? := by
  obtain ⟨f, r, htop, hcallee, hawaiting, hruns⟩ := h
  exact ⟨f, r, htop, hcallee, hawaiting, hruns.mono hw⟩

theorem Parks.mono {R S : Callee → Nat → Prop} {n n' : Nat} {L M' : Layout}
    {yielded? yielded?' : Option Frame} (hRS : ∀ c ip, R c ip → S c ip)
    (h : Parks R n n' L M' yielded? yielded?') : Parks S n n' L M' yielded? yielded?' := by
  obtain ⟨f, g, L', hf, hg, hlayouts, hframes⟩ := h
  exact ⟨f, g, L', hf, hg, hlayouts.mono hRS, hframes.mono hRS⟩

theorem RestsAlike.mono {w w₁ : World H} {s : CoroutineState} {p p' : Processor}
    (hw : w.KeepsClosures w₁) (h : RestsAlike w s p p') : RestsAlike w₁ s p p' := by
  have hreturns (c : Callee) (ip : Nat) : w.ReturnsAt c ip → w₁.ReturnsAt c ip :=
    fun hc => hc.mono hw
  refine ⟨h.twin, h.placed, h.idle, fun hs => (h.main hs).mono hreturns, fun hs => ?_,
    fun hs => ⟨(h.forced hs).1.mono hreturns, (h.forced hs).2.mono hw⟩⟩
  exact (h.parked hs).imp_right (Parks.mono hreturns)

theorem rel_rests_mono {w w₁ : World H} (hw : w.KeepsClosures w₁) {s : CoroutineState}
    {p? p?' : Option Processor} (h : Option.Rel (RestsAlike w s) p? p?') :
    Option.Rel (RestsAlike w₁ s) p? p?' := by
  cases h with
  | none => exact .none
  | some h => exact .some (h.mono hw)

/-- A processor on which nothing has run is like itself. -/
theorem Processor.Fresh.rests {w : World H} {p : Processor} (h : p.Fresh) (s : CoroutineState)
    (hs : s = .notStarted ∨ s = .main) : RestsAlike w s p p := by
  have hlayout : p.layout = .empty := by
    unfold Processor.layout
    rw [h.frames, h.stack]
    rfl
  refine ⟨⟨rfl, rfl⟩, fun _ => ⟨rfl, rfl⟩, fun _ => ⟨hlayout, hlayout⟩, fun _ => ?_, ?_, ?_⟩
  · rw [hlayout]
    exact .ground
  · rintro rfl
    simp at hs
  · rintro rfl
    simp at hs

/-! ## What worlds alike have in common -/

namespace World

variable {w w₁ w' w₁' : World H}

theorem coroutine?_bare (w : World H) (r : CoroutineRef) :
    w.bare.coroutine? r = (w.coroutine? r).map fun c => { c with processor? := none } := by
  unfold World.coroutine?
  rw [object?_bare]
  cases w.object? r.id with
  | none => rfl
  | some o => cases o <;> rfl

namespace Like

theorem ask {α : Type} {f : World H → α} (h : w.Like w') (hf : Blind f) : f w' = f w := by
  rw [← hf w', h.bare, hf w]

theorem closure (h : w.Like w') (r : FunctionRef) : w'.closure r = w.closure r := by
  refine h.ask (f := fun w => w.closure r) fun w => ?_
  exact closure_bare w r

theorem returnsAt (h : w.Like w') {callee : Callee} {ip : Nat} (hreturns : w.ReturnsAt callee ip) :
    w'.ReturnsAt callee ip := by
  obtain ⟨r, i, hcallee, hi, hop, hnum⟩ := hreturns
  exact ⟨r, i, hcallee, by rw [h.closure]; exact hi, hop, hnum⟩

theorem native? (h : w.Like w') (r : NativeRef) : w'.native? r = w.native? r := by
  refine h.ask (f := fun w => w.native? r) fun w => ?_
  exact native?_bare w r

theorem settings (h : w.Like w') : w'.settings = w.settings :=
  h.ask settings_bare

theorem callee [HostObjects H] (h : w.Like w') (hops : Nat) (v : Value) (args : List Value) :
    w'.callee hops v args = w.callee hops v args := by
  refine h.ask (f := fun w => w.callee hops v args) fun w => ?_
  exact callee_bare w hops v args

theorem nextId (h : w.Like w') : w'.nextId = w.nextId :=
  h.ask nextId_bare

theorem inFlight (h : w.Like w') : w'.inFlight = w.inFlight := by
  refine h.ask fun _ => ?_
  rfl

theorem main (h : w.Like w') : w'.main = w.main := by
  refine h.ask fun _ => ?_
  rfl

theorem coroutine?_none (h : w.Like w') {r : CoroutineRef} (hr : w.coroutine? r = none) :
    w'.coroutine? r = none := by
  have hbare := coroutine?_bare w' r
  rw [h.bare, coroutine?_bare, hr] at hbare
  simpa using hbare.symm

/-- Worlds alike after a change that leaves the coroutines alone. -/
theorem of_coroutine? (h : w.Like w') (hbare : w₁'.bare = w₁.bare)
    (hcoroutine : ∀ r, w₁.coroutine? r = w.coroutine? r)
    (hcoroutine' : ∀ r, w₁'.coroutine? r = w'.coroutine? r) (hw : w.KeepsClosures w₁) :
    w₁.Like w₁' := by
  refine ⟨hbare, fun r c hc => ?_⟩
  rw [hcoroutine] at hc
  obtain ⟨processor?, hc', hrel⟩ := h.resting r c hc
  exact ⟨processor?, (hcoroutine' r).trans hc', rel_rests_mono hw hrel⟩

theorem of_tame {f : World H → World H} (h : w.Like w') (hf : Tame f) : (f w).Like (f w') := by
  refine h.of_coroutine? ?_ (hf.coroutine? w) (hf.coroutine? w') (hf.extending w).keepsClosures
  rw [hf.bare, hf.bare, h.bare]

theorem of_tameWith {α : Type} {f : World H → α × World H} (h : w.Like w') (hf : TameWith f) :
    (f w').1 = (f w).1 ∧ (f w).2.Like (f w').2 := by
  refine ⟨by rw [← hf.value w', h.bare, hf.value w], ?_⟩
  refine h.of_coroutine? ?_ (hf.coroutine? w) (hf.coroutine? w') (hf.extending w).keepsClosures
  rw [hf.bare, hf.bare, h.bare]

theorem add (h : w.Like w') {o : Object H} (ho : ∀ c, o ≠ .coroutine c) :
    (w.add o).Like (w'.add o) := by
  refine h.of_coroutine? ?_ (coroutine?_add w ho) (coroutine?_add w' ho)
    (Extends.add w fun c hc => absurd hc (ho c)).keepsClosures
  rw [bare_add, bare_add, h.bare]

end Like

theorem coroutine?_addCoroutine (w : World H) (kind : CoroutineKind) (entry : Value)
    (r : CoroutineRef) :
    (w.addCoroutine kind entry).2.coroutine? r =
      if r.id = w.nextId then
        some ⟨.notStarted, kind, entry,
          some { canYield := true, autoYield? := w.settings.autoYield? }⟩
      else w.coroutine? r := by
  unfold World.coroutine? addCoroutine
  dsimp only
  by_cases hid : r.id = w.nextId
  · rw [if_pos hid, hid, object?_add_nextId]
  · rw [if_neg hid, object?_add_of_ne w _ hid]

theorem Like.addCoroutine (h : w.Like w') (kind : CoroutineKind) (entry : Value) :
    (w.addCoroutine kind entry).2.Like (w'.addCoroutine kind entry).2 := by
  have hextends := Extends.addCoroutine w kind entry
  refine ⟨?_, fun r c hc => ?_⟩
  · change (w'.add _).bare = (w.add _).bare
    rw [bare_add, bare_add, h.bare, h.settings]
  · rw [coroutine?_addCoroutine] at hc
    rw [coroutine?_addCoroutine, h.nextId, h.settings]
    by_cases hid : r.id = w.nextId
    · rw [if_pos hid] at hc ⊢
      obtain rfl := Option.some.inj hc
      exact ⟨_, rfl, .some (Processor.Fresh.rests ⟨rfl, rfl, rfl, rfl⟩ _ (Or.inl rfl))⟩
    · rw [if_neg hid] at hc ⊢
      obtain ⟨processor?, hc', hrel⟩ := h.resting r c hc
      exact ⟨processor?, hc', rel_rests_mono hextends.keepsClosures hrel⟩

/-- What is done to a coroutine but to its processor is seen in the bare world. -/
theorem bare_modifyCoroutine (w : World H) (r : CoroutineRef) {f g : Coroutine → Coroutine}
    (hf : ∀ c : Coroutine, { f c with processor? := none } = g { c with processor? := none }) :
    (w.modifyCoroutine r f).bare = w.bare.modifyCoroutine r g := by
  refine bare_modifyObject_of w r.id fun o => ?_
  cases o with
  | coroutine c => exact congrArg Object.coroutine (hf c)
  | _ => rfl

theorem bare_engage (w : World H) (r : CoroutineRef) : (w.engage r).bare = w.bare.engage r :=
  congrArg (fun u : World H => { u with inFlight := r :: u.inFlight })
    (bare_modifyCoroutine w r fun _ => rfl)

theorem Like.engage (h : w.Like w') (r : CoroutineRef) : (w.engage r).Like (w'.engage r) := by
  have hkeeps : w.KeepsClosures (w.engage r) := w.keepsClosures_modifyCoroutine r _
  refine ⟨by rw [bare_engage, bare_engage, h.bare], fun s c hc => ?_⟩
  by_cases hrs : r = s
  · subst hrs
    cases hold : w.coroutine? r with
    | none =>
      change (w.modifyCoroutine r _).coroutine? r = _ at hc
      rw [coroutine?_modifyCoroutine, if_pos rfl, hold] at hc
      cases hc
    | some co =>
      obtain ⟨processor?, hold', -⟩ := h.resting r co hold
      rw [coroutine?_engage_self hold] at hc
      obtain rfl := Option.some.inj hc
      rw [coroutine?_engage_self hold']
      exact ⟨none, rfl, .none⟩
  · rw [coroutine?_engage_of_ne w hrs] at hc
    obtain ⟨processor?, hc', hrel⟩ := h.resting s c hc
    exact ⟨processor?, (coroutine?_engage_of_ne w' hrs).trans hc', rel_rests_mono hkeeps hrel⟩

/-- A coroutine gives way in both worlds. -/
theorem Like.release (h : w.Like w') {r : CoroutineRef} {co : Coroutine}
    (hco : w.coroutine? r = some co) {p p' : Processor} {exit exit' : Except RuntimeError LoopExit}
    (hafter : ∀ s : CoroutineState, s.after exit' = s.after exit)
    (hrests : RestsAlike w (co.state.after exit) p p') :
    (w.release r p exit).Like (w'.release r p' exit') := by
  have hkeeps : w.KeepsClosures (w.release r p exit) := w.keepsClosures_modifyCoroutine r _
  have hbare (w : World H) (q : Processor) {exit' : Except RuntimeError LoopExit}
      (hafter : ∀ s : CoroutineState, s.after exit' = s.after exit) :
      (w.release r q exit').bare =
        let u := w.bare.modifyCoroutine r fun co =>
          { co with state := co.state.after exit, processor? := none }
        { u with inFlight := u.inFlight.tail } :=
    congrArg (fun u : World H => { u with inFlight := u.inFlight.tail })
      (bare_modifyCoroutine w r fun c => by rw [hafter])
  obtain ⟨processor?, hco', -⟩ := h.resting r co hco
  refine ⟨by rw [hbare w p fun _ => rfl, hbare w' p' hafter, h.bare], fun s c hc => ?_⟩
  by_cases hrs : r = s
  · subst hrs
    rw [coroutine?_release_self hco] at hc
    obtain rfl := Option.some.inj hc
    rw [coroutine?_release_self hco', hafter]
    exact ⟨some p', rfl, .some (hrests.mono hkeeps)⟩
  · rw [coroutine?_release_of_ne w p exit hrs] at hc
    obtain ⟨processor?, hc', hrel⟩ := h.resting s c hc
    exact ⟨processor?, (coroutine?_release_of_ne w' p' exit' hrs).trans hc',
      rel_rests_mono hkeeps hrel⟩

end World

/-! ## Answers and actions -/

/-- The same error, but for the traceback of a script error. -/
inductive RuntimeError.Alike : RuntimeError → RuntimeError → Prop where
  | script {e e' : ScriptError} (h : e.Alike e') : Alike (.script e) (.script e')
  | same (e : RuntimeError) : Alike e e

/-- The same value, or the same error but for the traceback. -/
inductive Concurs {α : Type} : Except RuntimeError α → Except RuntimeError α → Prop where
  | ok (a : α) : Concurs (.ok a) (.ok a)
  | error {e e' : RuntimeError} (h : e.Alike e') : Concurs (.error e) (.error e')

theorem Concurs.refl {α : Type} (r : Except RuntimeError α) : Concurs r r := by
  cases r with
  | ok a => exact .ok a
  | error e => exact .error (.same e)

theorem Concurs.map {α β : Type} {r r' : Except RuntimeError α} (h : Concurs r r') (f : α → β) :
    Concurs (r.map f) (r'.map f) := by
  cases h with
  | ok a => exact .ok (f a)
  | error h => exact .error h

/-- The actions do the same in worlds alike. -/
inductive Action.Alike {α : Type} : Action H α → Action H α → Prop where
  | done (a : α) : Alike (.done a) (.done a)
  | fail {e e' : RuntimeError} (h : e.Alike e') : Alike (.fail e) (.fail e')
  | read {next next' : World H → Action H α}
      (h : ∀ w w', w.Like w' → Alike (next w) (next' w')) : Alike (.read next) (.read next')
  | write {change change' : World H → World H} {next next' : Action H α}
      (hchange : ∀ w w', w.Like w' → (change w).Like (change' w')) (h : Alike next next') :
      Alike (.write change next) (.write change' next')
  | call (function : Value) (args : List Value)
      {next next' : Except RuntimeError Value → Action H α}
      (h : ∀ r r', Concurs r r' → Alike (next r) (next' r')) :
      Alike (.call function args next) (.call function args next')
  | resume (c : CoroutineRef) (args : List Value)
      {next next' : Except RuntimeError Value → Action H α}
      (h : ∀ r r', Concurs r r' → Alike (next r) (next' r')) :
      Alike (.resume c args next) (.resume c args next')
  | enterMain (function : Value) (args : List Value)
      {next next' : Except RuntimeError Value → Action H α}
      (h : ∀ r r', Concurs r r' → Alike (next r) (next' r')) :
      Alike (.enterMain function args next) (.enterMain function args next')

/-- The action does not look at processors at rest or at tracebacks. -/
def Action.Blind {α : Type} (a : Action H α) : Prop := a.Alike a

/-- A host whose functions do not look at processors at rest or at tracebacks. -/
class BlindHost (H : HostTypes) [Host H] : Prop where
  blind : ∀ f info args, (Host.run f info args : Action H NativeOutcome).Blind

namespace Action

variable {α β : Type}

theorem Alike.bind {x x' : Action H α} {f f' : α → Action H β} (hx : x.Alike x')
    (hf : ∀ a, (f a).Alike (f' a)) : (x >>= f).Alike (x' >>= f') := by
  change (Action.bind x f).Alike (Action.bind x' f')
  induction hx with
  | done a => exact hf a
  | fail h => exact .fail h
  | read h ih => exact .read ih
  | write hchange h ih => exact .write hchange ih
  | call function args h ih => exact .call function args ih
  | resume c args h ih => exact .resume c args ih
  | enterMain function args h ih => exact .enterMain function args ih

theorem alike_ofResult {r r' : Except RuntimeError α} (h : Concurs r r') :
    (ofResult r : Action H α).Alike (ofResult r') := by
  cases h with
  | ok a => exact .done a
  | error h => exact .fail h

theorem blind_ask {f : World H → α} (hf : World.Blind f) : (ask f).Blind := by
  refine .read fun w w' h => ?_
  rw [h.ask hf]
  exact .done _

theorem blind_newCoroutine (entry : Value) : (Library.newCoroutine entry : Action H _).Blind := by
  refine .read fun w w' h => ?_
  rw [h.nextId]
  exact .write (fun w w' h => h.addCoroutine _ _) (.done _)

/-- What scripts could do themselves does not look at processors or tracebacks. -/
theorem Simple.blind {E : RuntimeError → Prop} {x : Action H α} (hx : Simple E x) : x.Blind := by
  induction hx with
  | pure a => exact .done a
  | raise e => exact .fail (.same _)
  | bind hx hf ihx ihf => exact ihx.bind ihf
  | ask hf => exact blind_ask hf
  | consult hf hE => exact (blind_ask hf).bind fun r => alike_ofResult (.refl r)
  | change hf => exact .write (fun w w' h => h.of_tame hf) (.done _)
  | create ho hnative =>
    refine .read fun w w' h => ?_
    rw [h.nextId]
    exact .write (fun w w' h => h.add ho) (.done _)
  | newCoroutine entry => exact blind_newCoroutine entry
  | callValue function args => exact .call _ _ fun r r' h => alike_ofResult h

end Action

namespace Library

open ScriptEngine.Action

theorem blind_resume (a : Arguments) : (resume a : Action H NativeOutcome).Blind := by
  have hargument : (coroutineArgument a "resume" : Action H CoroutineRef).Blind :=
    (simple_coroutineArgument (E := fun _ => True) a "resume").blind
  refine hargument.bind fun c => .resume _ _ fun r r' h => ?_
  cases h with
  | ok v => exact .done _
  | @error e _ h =>
    cases h with
    | script h =>
      dsimp only
      rw [h.value_eq]
      exact .done _
    | same _ =>
      cases e with
      | script e => exact .done _
      | contract v =>
        dsimp only
        split
        · exact .done _
        · exact .fail (.same _)
      | _ => exact .fail (.same _)

theorem blind_wrapped (c : CoroutineRef) (a : Arguments) :
    (wrapped c a : Action H NativeOutcome).Blind := by
  refine .resume _ _ fun r r' h => ?_
  cases h with
  | ok v => exact .done _
  | error h =>
    cases h with
    | script h => exact .fail (.script h)
    | same e =>
      dsimp only
      split
      · exact .fail (.same _)
      · exact .fail (.same _)

end Library

theorem covers_all [HostObjects H] : Covers H fun _ => True := by
  refine ⟨?_, ?_, ?_, ?_, ?_⟩
  · intro _
    trivial
  · intro _
    trivial
  · intro _
    trivial
  · intro _ _ _ _ _
    trivial
  · intro _ _ _ _ _ _
    trivial

/-- No function of the library looks at processors at rest or at tracebacks. -/
theorem LibraryFunction.blind_action [HostObjects H] (f : LibraryFunction) (info : CallInfo)
    (a : Arguments) : (f.action info a : Action H NativeOutcome).Blind := by
  by_cases hresumes : f.resumes = true
  · cases f with
    | coroutineResume => exact Library.blind_resume a
    | wrapped c => exact Library.blind_wrapped c a
    | _ => cases hresumes
  · have hsimple := simple_action (E := fun _ => True) (H := H) covers_all
      (Bool.eq_false_iff.mpr hresumes) info a
    exact hsimple.blind

instance : BlindHost HostTypes.alone where
  blind f := f.elim

/-- A function does the same on both processors. -/
theorem alike_invoke [Host H] [BlindHost H] {c c' : Core H} (hworld : c.world.Like c'.world)
    (htwin : c.proc.Twin c'.proc) (hplaced : c.proc.Placed c'.proc) (f : NativeRef)
    (args : Arguments) : (c.invoke f args).Alike (c'.invoke f args) := by
  unfold Core.invoke
  rw [hworld.native?, hplaced.location_eq, htwin.isYieldable_eq]
  cases c.world.native? f with
  | none => exact .fail (.same _)
  | some native =>
    dsimp only
    cases native.body with
    | library g => exact g.blind_action _ _
    | host g => exact BlindHost.blind _ _ _

end ScriptEngine
