import ScriptEngine.Proofs.Frame.Protection
import ScriptEngine.Proofs.Request.PlacedSteps

/-!
# Errors of a loop in two places

An error in the loop comes to the same handler in both places and is shown to the same
functions before.  If no frame of the loop handles it, the first processor leaves the loop with
it.  On the second one it may go on to the frames below.
-/

namespace ScriptEngine

/-- The same error, but for the traceback. -/
def ScriptError.Alike (e e' : ScriptError) : Prop :=
  e' = { e with traceback := e'.traceback }

namespace ScriptError.Alike

variable {e e' : ScriptError}

theorem value_eq (h : e.Alike e') : e'.value = e.value := by
  rw [h]
  rfl

theorem replaceValue (h : e.Alike e') (v : Value) :
    (e.replaceValue v).Alike (e'.replaceValue v) := by
  rw [h]
  unfold ScriptError.replaceValue Alike
  cases v.toText? <;> rfl

end ScriptError.Alike

/-- None of the frames handles an error. -/
def Unhandled (frames : List Frame) : Prop :=
  ∀ f ∈ frames, f.handlers.errorHandler? = none

theorem Unhandled.of_handlers {frames frames' : List Frame} (h : Unhandled frames)
    (hsame : frames'.map (·.handlers) = frames.map (·.handlers)) : Unhandled frames' := by
  intro f hf
  have hmem : f.handlers ∈ frames.map (·.handlers) := hsame ▸ List.mem_map_of_mem hf
  obtain ⟨f', hf', heq⟩ := List.mem_map.mp hmem
  rw [← heq]
  exact h f' hf'

/-- The functions that see an error before it passes frames. -/
def decoratorsOf (frames : List Frame) : List Value :=
  frames.filterMap (·.handlers.beforeUnwind?)

theorem decoratorsOf_eq {frames frames' : List Frame}
    (h : frames'.map (·.handlers) = frames.map (·.handlers)) :
    decoratorsOf frames' = decoratorsOf frames := by
  have hmap (frames : List Frame) :
      decoratorsOf frames = (frames.map (·.handlers)).filterMap (·.beforeUnwind?) := by
    rw [List.filterMap_map]
    rfl
  rw [hmap, hmap, h]

namespace ResultTarget.Stacks

variable {T : ResultTarget} {fs gs : List Frame}

theorem handlers (h : T.Stacks fs gs) : gs.map (·.handlers) = fs.map (·.handlers) := by
  induction h with
  | nil => rfl
  | cons hframes h ih => rw [List.map_cons, List.map_cons, hframes.handlers, ih]

/-- An error that no frame of the loop handles passes all of them. -/
theorem errorPath_of_unhandled (h : T.Stacks fs gs) (hnone : Unhandled fs) {rest : List Frame}
    (halone : T.entryPoint = true → rest = []) :
    errorPath fs = fs ∧ errorPath (gs ++ rest) = gs ++ errorPath rest := by
  induction h with
  | nil => exact ⟨rfl, rfl⟩
  | @cons f g fs gs hframes h ih =>
    have hf : f.handlers.errorHandler? = none := hnone f List.mem_cons_self
    have hg : g.handlers.errorHandler? = none := by rw [hframes.handlers, hf]
    rw [List.cons_append, List.cons_append, errorPath, errorPath, hf, hg]
    rcases hframes.hands with ⟨rfl, hmeets⟩ | ⟨hne, hinner, hflags, -⟩
    · obtain ⟨hentry, hentry'⟩ := hmeets.entryPoint
      rw [h.nil_of_nil, hentry, hentry']
      refine ⟨rfl, ?_⟩
      cases htarget : T.entryPoint with
      | true =>
        rw [halone htarget]
        rfl
      | false => rfl
    · obtain ⟨hpath, hpath'⟩ := ih fun f' hf' => hnone f' (List.mem_cons_of_mem f hf')
      rw [hinner, hflags, hinner, hpath, hpath']
      exact ⟨rfl, rfl⟩

/-- The frames above one of the loop. -/
theorem split {path rest : List Frame} {d : Frame} (h : T.Stacks (path ++ d :: rest) gs) :
    ∃ path' d' rest', gs = path' ++ d' :: rest' ∧ T.Frames rest d d' ∧ T.Stacks rest rest' ∧
      path'.map (·.handlers) = path.map (·.handlers) ∧
      (∀ f ∈ path, f.flags.entryPoint = false) ∧ ∀ f ∈ path', f.flags.entryPoint = false := by
  induction path generalizing gs with
  | nil =>
    cases h with
    | cons hframes h => exact ⟨[], _, _, rfl, hframes, h, rfl, by simp, by simp⟩
  | cons f path ih =>
    cases h with
    | @cons _ g _ gs hframes h =>
      obtain ⟨path', d', rest', rfl, hd, hrest, hhandlers, hinner, hinner'⟩ := ih h
      rcases hframes.hands with ⟨hnil, -⟩ | ⟨-, hf, hg, -⟩
      · simp at hnil
      · refine ⟨g :: path', d', rest', rfl, hd, hrest, ?_, ?_, ?_⟩
        · rw [List.map_cons, List.map_cons, hhandlers, hframes.handlers]
        · simpa [hf] using hinner
        · simpa [hg, hf] using hinner'

/-- An error that a frame of the loop handles comes to the same frame. -/
theorem errorPath_of_handled {path rest : List Frame} {d : Frame} {handler : NativeRef}
    (h : T.Stacks (path ++ d :: rest) gs) (hnone : Unhandled path)
    (hd : d.handlers.errorHandler? = some handler) (lower : List Frame) :
    ∃ path' d' rest', gs = path' ++ d' :: rest' ∧ T.Frames rest d d' ∧ T.Stacks rest rest' ∧
      errorPath (path ++ d :: rest) = path ++ [d] ∧
      errorPath (path' ++ d' :: (rest' ++ lower)) = path' ++ [d'] ∧
      decoratorsOf (path' ++ [d']) = decoratorsOf (path ++ [d]) := by
  obtain ⟨path', d', rest', hgs, hframes, hrest, hhandlers, hinner, hinner'⟩ := h.split
  have hnone' := hnone.of_handlers hhandlers
  have hd' : d'.handlers.errorHandler? = some handler := by rw [hframes.handlers, hd]
  refine ⟨path', d', rest', hgs, hframes, hrest, ?_, ?_, ?_⟩
  · exact Machine.errorPath_eq (fun f hf => ⟨hnone f hf, hinner f hf⟩) (by rw [hd]; rfl)
  · exact Machine.errorPath_eq (fun f hf => ⟨hnone' f hf, hinner' f hf⟩) (by rw [hd']; rfl)
  · apply decoratorsOf_eq
    rw [List.map_append, List.map_append, hhandlers, List.map_singleton, List.map_singleton,
      hframes.handlers]

end ResultTarget.Stacks

namespace LoopPlacement

variable {H : HostTypes} {P : LoopPlacement} {fs gs : List Frame} {c c' : Core H}

/-- The error on both processors. -/
structure Errors (P : LoopPlacement) (e e' : ScriptError) : Prop where
  alike : e.Alike e'
  same : P.resultTarget = .same → e' = e

/-- The functions that see the error. -/
inductive Shows (P : LoopPlacement) (fs : List Frame) : List Value → List Value → Prop where
  | handled (h : ¬Unhandled fs) (decorators : List Value) : Shows P fs decorators decorators
  | passing (h : Unhandled fs) (decorators : List Value) :
      Shows P fs decorators (decorators ++ decoratorsOf (errorPath P.rest))

theorem Shows.tail {d : Value} {decorators decorators' : List Value}
    (h : P.Shows fs (d :: decorators) decorators') :
    ∃ rest, decorators' = d :: rest ∧ P.Shows fs decorators rest := by
  cases h with
  | handled h => exact ⟨_, rfl, .handled h _⟩
  | passing h => exact ⟨_, rfl, .passing h _⟩

theorem Meets.above (h : P.Meets fs gs c c') :
    c.proc.frames.above P.lower.length = fs ∧
      c'.proc.frames.above P.lower'.length = gs ++ P.rest := by
  have hframes' := h.beside.frames'
  rw [← List.append_assoc] at hframes'
  exact ⟨items_above_append h.beside.frames, items_above_append hframes'⟩

theorem Meets.location_eq (h : P.Meets fs gs c c') :
    c'.proc.location? = c.proc.location? := by
  unfold Processor.location?
  rw [h.beside.chunk, h.beside.ip]

theorem Meets.located (h : P.Meets fs gs c c') (e : ScriptError) :
    P.Errors (c.proc.located c.world P.lower.length e)
      (c'.proc.located c'.world P.lower'.length e) := by
  obtain ⟨habove, habove'⟩ := h.above
  unfold Processor.located
  rw [h.location_eq, habove, habove', h.world, h.beside.ip]
  constructor
  · dsimp only
    split <;> rfl
  · intro hsame
    have hgs : gs = fs := (hsame ▸ h.beside.framesAlike).eq_of_same
    have hrest : P.rest = [] := P.alone (by rw [hsame]; rfl)
    rw [hgs, hrest, List.append_nil]

theorem Meets.shows (h : P.Meets fs gs c c') :
    P.Shows fs (c.proc.decorators P.lower.length) (c'.proc.decorators P.lower'.length) := by
  obtain ⟨habove, habove'⟩ := h.above
  unfold Processor.decorators
  rw [habove, habove']
  change P.Shows fs (decoratorsOf _) (decoratorsOf _)
  rcases Machine.handler_cases fs with hnone | ⟨path, d, rest, handler, rfl, hpath, hd⟩
  · obtain ⟨hpath, hpath'⟩ := h.beside.framesAlike.errorPath_of_unhandled hnone P.alone
    have happend : decoratorsOf (gs ++ errorPath P.rest) =
        decoratorsOf fs ++ decoratorsOf (errorPath P.rest) := by
      rw [← decoratorsOf_eq h.beside.framesAlike.handlers]
      exact List.filterMap_append
    rw [hpath, hpath', happend]
    exact .passing hnone _
  · obtain ⟨path', d', rest', rfl, -, -, herror, herror', hsame⟩ :=
      h.beside.framesAlike.errorPath_of_handled hpath hd P.rest
    rw [List.append_assoc, List.cons_append, herror, herror', hsame]
    refine .handled (fun hnone => ?_) _
    rw [hnone d (by simp)] at hd
    cases hd

/-! ## Handlers -/

variable {as bs : List (Activation H)}

/-- The same handler is called on both processors. -/
theorem Meets.catchError {path rest : List Frame} {d : Frame} {handler : NativeRef}
    (h : P.Meets (path ++ d :: rest) gs c c') (hfloor : frameFloor as = P.lower.length)
    (hfloor' : frameFloor bs = P.lower'.length) (hnone : Unhandled path)
    (hd : d.handlers.errorHandler? = some handler) (e e' : ScriptError) :
    ∃ c₁ c₁' d' rest', P.Meets rest rest' c₁ c₁' ∧ P.resultTarget.Frames rest d d' ∧
      Machine.catchError c as e = ⟨c₁, as,
        .calling (.native handler) [e.value] (.caught d.flags d.returnAddress)⟩ ∧
      Machine.catchError c' bs e' = ⟨c₁', bs,
        .calling (.native handler) [e'.value] (.caught d'.flags d'.returnAddress)⟩ := by
  obtain ⟨path', d', rest', rfl, hframes, hrest, herror, herror', -⟩ :=
    h.beside.framesAlike.errorPath_of_handled hnone hd P.rest
  have hd' : d'.handlers.errorHandler? = some handler := by rw [hframes.handlers, hd]
  have hitems' : c'.proc.frames.items = path' ++ d' :: (rest' ++ P.rest) ++ P.lower' := by
    rw [h.beside.frames']
    simp
  obtain ⟨frames, hitems₁, hcaught⟩ :=
    Machine.catchError_eq e h.beside.frames hfloor.symm herror hd
  obtain ⟨frames', hitems₁', hcaught'⟩ :=
    Machine.catchError_eq e' hitems' hfloor'.symm herror' hd'
  rw [hframes.base] at hcaught'
  rw [List.append_assoc] at hitems₁'
  exact ⟨_, _, d', rest', (h.truncate d.base).withFrames hrest hitems₁ hitems₁', hframes,
    hcaught, hcaught'⟩

end LoopPlacement

/-- An error that nothing handles leaves the loop. -/
theorem Machine.catchError_of_unhandled {H : HostTypes} {core : Core H}
    {activations : List (Activation H)} {path below : List Frame} (e : ScriptError)
    (hframes : core.proc.frames.items = path ++ below)
    (hfloor : below.length = frameFloor activations) (hnone : Unhandled path)
    (hpath : errorPath path = path) :
    ∃ frames : Stack Frame, frames.items = below ∧
      catchError core activations e =
        ⟨⟨core.world, { core.proc with frames }⟩, activations, .leaving (.error (.script e))⟩ := by
  rcases catchError_split e hframes hfloor.symm with
    ⟨init, f, handler, rest, frames, rfl, -, hf, -, -⟩ | ⟨rest, frames, habove, -, hitems, hcaught⟩
  · rw [hnone f (List.mem_append_right init List.mem_cons_self)] at hf
    cases hf
  · rw [hpath] at habove
    obtain rfl : rest = [] := List.self_eq_append_right.mp habove
    exact ⟨frames, hitems, hcaught⟩

end ScriptEngine
