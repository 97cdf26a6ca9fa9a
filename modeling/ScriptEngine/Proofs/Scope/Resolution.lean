import ScriptEngine.Proofs.Scope.Agreement

/-!
# Names resolve to their declarations

The resolver keeps agreeing with the text along every history that leaves the outermost
function open, so each name resolves to its innermost visible declaration.  A symbol that was
handed out keeps its meaning while its function is open, and the layout of a closed function
captures what its symbols denoted.
-/

namespace ScriptEngine

open Resolver (follow Finds resolveIn)
open Lexicon (inScope?)

/-- The resolver has the functions of the text open. -/
def Resolver.Tracks (r : Resolver) (lexicon : Lexicon) : Prop :=
  Agrees r.functions (lexicon.body :: lexicon.enclosing)

namespace Lexicon

/-- What the symbol of a name has to be where the text stands.  A visible declaration is
denoted itself.  The environment without one is the host's.  Every other name without one is a
field of the innermost visible environment. -/
def Means (lexicon : Lexicon) (r : Resolver) (name : String) (symbol : Symbol) : Prop :=
  match lexicon.place? name with
  | some place => r.denotes symbol = some place
  | none =>
    if name = Symbol.envName then r.denotes symbol = some .hostEnvironment
    else ∃ env, symbol = .global name env ∧ r.denotes env = some lexicon.environment

end Lexicon

namespace Resolver

variable {r : Resolver} {lexicon : Lexicon}

theorem start_tracks : Resolver.start.Tracks {} := Agrees.start

/-- The symbol of a search that succeeds. -/
theorem Finds.means {functions : List FunctionScope} {name : String} {symbol : Symbol}
    (h : Finds name (lexicon.body :: lexicon.enclosing) functions (some symbol)) :
    lexicon.Means ⟨functions⟩ name symbol := by
  obtain ⟨-, place, hfollow, hscope⟩ := h
  rw [lexicon.inScope?_eq] at hscope
  cases hplace : lexicon.place? name with
  | some declared =>
    obtain rfl : declared = place := by simpa [hplace] using hscope
    simpa [Lexicon.Means, hplace, denotes] using hfollow
  | none =>
    obtain ⟨hname, rfl⟩ : name = Symbol.envName ∧ Place.hostEnvironment = place := by
      simpa [hplace] using hscope
    simp only [Lexicon.Means, hplace, if_pos hname]
    exact hfollow

/-- The field of the environment for a name that is not found. -/
theorem Finds.means_global {functions : List FunctionScope} {name : String} {env : Symbol}
    (h : inScope? name (lexicon.body :: lexicon.enclosing) = none)
    (henv : Finds Symbol.envName (lexicon.body :: lexicon.enclosing) functions (some env)) :
    lexicon.Means ⟨functions⟩ name (.global name env) := by
  obtain ⟨hplace, hname⟩ : lexicon.place? name = none ∧ name ≠ Symbol.envName := by
    simpa [lexicon.inScope?_eq] using h
  obtain ⟨-, place, hfollow, hscope⟩ := henv
  obtain rfl : lexicon.environment = place := by simpa [lexicon.inScope?_envName] using hscope
  simp only [Lexicon.Means, hplace, if_neg hname]
  exact ⟨env, rfl, hfollow⟩

theorem Tracks.resolve (h : r.Tracks lexicon) (name : String) :
    (r.resolve name).2.Tracks lexicon ∧ (r.resolve name).1.name = name ∧
      lexicon.Means (r.resolve name).2 name (r.resolve name).1 := by
  obtain ⟨hagrees, hfinds⟩ := Agrees.resolveIn h name
  cases hrest : resolveIn name r.functions with
  | mk found? functions =>
    rw [hrest] at hagrees hfinds
    cases found? with
    | some symbol =>
      simp only [Resolver.resolve, hrest]
      exact ⟨hagrees, hfinds.1, hfinds.means⟩
    | none =>
      obtain ⟨hagrees', hfinds'⟩ := hagrees.resolveIn Symbol.envName
      cases henv : resolveIn Symbol.envName functions with
      | mk env? functions' =>
        rw [henv] at hagrees' hfinds'
        -- The environment is always found: the outermost function has it from the host.
        cases env? with
        | none => simp [Finds, lexicon.inScope?_envName] at hfinds'
        | some env =>
          simp only [Resolver.resolve, hrest, henv]
          exact ⟨hagrees', rfl, Finds.means_global hfinds hfinds'⟩

/-- A declaration is handed the slot that the text gives it. -/
theorem Tracks.defineLocal (h : r.Tracks lexicon) (name : String) :
    (r.defineLocal name).1 = .slot lexicon.body.declared name ∧
      (r.defineLocal name).2.Tracks (lexicon.perform (.defineLocal name)) := by
  cases hfunctions : r.functions with
  | nil =>
    rw [Tracks, hfunctions] at h
    cases h
  | cons scope outer =>
    rw [Tracks, hfunctions] at h
    constructor
    · simp [Resolver.defineLocal, hfunctions, h.shows.localCount]
    · simp only [Tracks, Resolver.defineLocal, modifyCurrent, hfunctions, Lexicon.perform]
      exact h.declare (h.shows.define name) rfl

/-- Blocks begin and end in the innermost function. -/
theorem Tracks.modifyCurrent {change : FunctionScope → FunctionScope} {change' : Body → Body}
    (h : r.Tracks lexicon)
    (hshows : ∀ scope, scope.Shows lexicon.body → (change scope).Shows (change' lexicon.body))
    (hup : ∀ scope, (change scope).upvalues = scope.upvalues) :
    (r.modifyCurrent change).Tracks { lexicon with body := change' lexicon.body } := by
  cases hfunctions : r.functions with
  | nil =>
    rw [Tracks, hfunctions] at h
    cases h
  | cons scope outer =>
    rw [Tracks, hfunctions] at h
    simp only [Tracks, Resolver.modifyCurrent, hfunctions]
    exact h.declare (hshows scope h.shows) (hup scope)

theorem Tracks.pushFunction (h : r.Tracks lexicon) :
    r.pushFunction.Tracks (lexicon.perform .pushFunction) := by
  refine .inner .fresh ?_ h
  simp [FunctionScope.CapturesIn]

theorem Tracks.popFunction {body : Body} {enclosing : List Body} (h : r.Tracks lexicon)
    (hinner : lexicon.enclosing = body :: enclosing) :
    r.popFunction.2.Tracks (lexicon.perform .popFunction) := by
  cases hfunctions : r.functions with
  | nil =>
    rw [Tracks, hfunctions] at h
    cases h
  | cons scope outer =>
    rw [Tracks, hfunctions, hinner] at h
    simp only [Tracks, Resolver.popFunction, hfunctions, Lexicon.perform, hinner]
    cases h with
    | inner _ _ h => exact h

/-- Agreement is kept along every history that leaves the outermost function open. -/
theorem Tracks.performAll {steps : List ScopeStep} (h : r.Tracks lexicon)
    (hopen : ScopeStep.staysOpen lexicon.enclosing.length steps = true) :
    (r.performAll steps).Tracks (lexicon.performAll steps) := by
  induction steps generalizing r lexicon with
  | nil => exact h
  | cons step steps ih =>
    cases step with
    | pushFunction => exact ih h.pushFunction hopen
    | popFunction =>
      cases hinner : lexicon.enclosing with
      | nil => simp [hinner, ScopeStep.staysOpen] at hopen
      | cons body enclosing =>
        refine ih (h.popFunction hinner) ?_
        simpa [Lexicon.perform, hinner, ScopeStep.staysOpen] using hopen
    | pushBlock =>
      exact ih (h.modifyCurrent (fun _ hshows => hshows.pushBlock) fun _ => rfl) hopen
    | popBlock =>
      refine ih (h.modifyCurrent (fun _ hshows => hshows.popBlock) fun scope => ?_) hopen
      cases hblocks : scope.blocks <;> simp [FunctionScope.popBlock, hblocks]
    | defineLocal name => exact ih (h.defineLocal name).2 hopen
    | resolve name => exact ih (h.resolve name).1 hopen

/-- Lexical resolution: after any history of a text whose outermost function stays open, a
declaration gets the slot that is its own, and a name resolves to a symbol of that name which,
followed through the captures of the open functions, denotes its innermost visible declaration;
without one it is a field of the innermost visible environment, and the environment itself is
the one the host gives the outermost function. -/
theorem resolves_lexically (steps : List ScopeStep) (hopen : ScopeStep.staysOpen 0 steps = true)
    (name : String) :
    let r := Resolver.start.performAll steps
    let lexicon := (Lexicon.performAll {} steps)
    (r.defineLocal name).1 = .slot lexicon.body.declared name ∧
      (r.resolve name).1.name = name ∧
      lexicon.Means (r.resolve name).2 name (r.resolve name).1 := by
  intro r lexicon
  have htracks : r.Tracks lexicon := start_tracks.performAll hopen
  exact ⟨(htracks.defineLocal name).1, (htracks.resolve name).2⟩

/-- A function that captured a variable goes on finding it, past a block that hid it and an
inner function that came and went. -/
theorem resolves_hidden :
    let steps : List ScopeStep := [.defineLocal "x", .pushFunction, .resolve "x", .pushBlock,
      .defineLocal "x", .pushFunction, .resolve "x", .popFunction, .popBlock]
    let r := Resolver.start.performAll steps
    ScopeStep.staysOpen 0 steps = true ∧
      (r.resolve "x").2.denotes (r.resolve "x").1 = some (.slot 0 0) := by
  intro steps r
  have hopen : ScopeStep.staysOpen 0 steps = true := by decide
  have hplace : (Lexicon.performAll {} steps).place? "x" = some (.slot 0 0) := by decide
  have hmeans := (resolves_lexically steps hopen "x").2.2
  rw [Lexicon.Means, hplace] at hmeans
  exact ⟨hopen, hmeans⟩

/-- The environment is in scope without a declaration: its name resolves to what the host gives
and not to a field of the environment. -/
theorem environment_is_no_field :
    (Lexicon.performAll {} []).place? Symbol.envName = none ∧
      ¬ ∃ env, ((Resolver.start.performAll []).resolve Symbol.envName).1 =
        .global Symbol.envName env := by
  have hsymbol : ((Resolver.start.performAll []).resolve Symbol.envName).1 = Symbol.rootEnv := by
    decide
  refine ⟨by decide, ?_⟩
  rw [hsymbol]
  simp [Symbol.rootEnv]

/-! ## Symbols handed out earlier -/

theorem modifyCurrent_grows (r : Resolver) {change : FunctionScope → FunctionScope}
    (hup : ∀ scope, scope.upvalues <+: (change scope).upvalues) :
    CapturesGrow r.functions (r.modifyCurrent change).functions := by
  rcases r with ⟨_ | ⟨scope, outer⟩⟩
  · exact .nil
  · exact .cons (hup scope) (CapturesGrow.refl outer)

theorem resolve_grows (r : Resolver) (name : String) :
    CapturesGrow r.functions (r.resolve name).2.functions := by
  have hname := resolveIn_grows name r.functions
  cases hrest : resolveIn name r.functions with
  | mk found? functions =>
    rw [hrest] at hname
    cases found? with
    | some symbol => simpa [Resolver.resolve, hrest] using hname
    | none =>
      simpa [Resolver.resolve, hrest] using
        hname.trans (resolveIn_grows Symbol.envName functions)

/-- Along a history that leaves them open, functions only gain captures. -/
theorem performAll_grows {r : Resolver} {steps : List ScopeStep} {inner : Nat}
    {lower : List FunctionScope} (hopen : ScopeStep.staysOpen inner steps = true)
    (hlower : CapturesGrow lower (r.functions.drop inner)) :
    ∃ inner', CapturesGrow lower ((r.performAll steps).functions.drop inner') := by
  induction steps generalizing r inner with
  | nil => exact ⟨inner, hlower⟩
  | cons step steps ih =>
    have hkeep : ∀ later : Resolver, CapturesGrow r.functions later.functions →
        CapturesGrow lower (later.functions.drop inner) := fun later hgrow =>
      hlower.trans (List.forall₂_drop inner hgrow)
    cases step with
    | pushFunction => exact ih (r := r.pushFunction) hopen hlower
    | popFunction =>
      cases inner with
      | zero => simp [ScopeStep.staysOpen] at hopen
      | succ inner =>
        refine ih (r := r.popFunction.2) hopen ?_
        rcases r with ⟨_ | ⟨scope, outer⟩⟩
        · simpa [Resolver.popFunction] using hlower
        · simpa [Resolver.popFunction] using hlower
    | pushBlock => exact ih hopen (hkeep _ (modifyCurrent_grows r fun _ => List.prefix_rfl))
    | popBlock =>
      refine ih hopen (hkeep _ (modifyCurrent_grows r fun scope => ?_))
      cases hblocks : scope.blocks <;> simp [FunctionScope.popBlock, hblocks]
    | defineLocal name => exact ih hopen (hkeep _ (modifyCurrent_grows r fun _ => List.prefix_rfl))
    | resolve name => exact ih hopen (hkeep _ (resolve_grows r name))

/-- What a symbol denotes in a function it goes on denoting there for as long as the function
is open. -/
theorem denotes_later {r : Resolver} {steps : List ScopeStep} {symbol : Symbol} {place : Place}
    (hopen : ScopeStep.staysOpen 0 steps = true) (h : r.denotes symbol = some place) :
    ∃ inner, ((r.performAll steps).functions.drop inner).length = r.functions.length ∧
      follow ((r.performAll steps).functions.drop inner) symbol = some place := by
  obtain ⟨inner, hgrow⟩ := performAll_grows hopen (.refl r.functions)
  exact ⟨inner, hgrow.length_eq.symm, hgrow.follow h⟩

/-! ## Closed functions -/

/-- A closed inner function captures, one for each of its upvalue names, what the enclosing
functions have in scope for that name. -/
theorem Tracks.layout {r : Resolver} {lexicon : Lexicon} (h : r.Tracks lexicon)
    (hinner : lexicon.enclosing ≠ []) :
    ∃ layout, r.popFunction.1 = some layout ∧ layout.localCount = lexicon.body.declared ∧
      List.Forall₂ (fun capture name => ∃ place,
          r.popFunction.2.denotes capture = some place ∧
            inScope? name lexicon.enclosing = some place)
        layout.captures layout.upvalueNames := by
  cases hfunctions : r.functions with
  | nil =>
    rw [Tracks, hfunctions] at h
    cases h
  | cons scope outer =>
    rw [Tracks, hfunctions] at h
    refine ⟨scope.layout, by simp [Resolver.popFunction, hfunctions], h.shows.localCount, ?_⟩
    simp only [Resolver.popFunction, hfunctions, denotes, FunctionScope.layout]
    have hcaptures : scope.CapturesIn outer lexicon.enclosing := by
      generalize lexicon.enclosing = bodies at h hinner
      cases h with
      | root _ _ => exact absurd rfl hinner
      | inner _ hcaptures _ => exact hcaptures
    unfold FunctionScope.CapturesIn at hcaptures
    generalize scope.upvalues = upvalues at hcaptures
    induction upvalues with
    | nil => exact .nil
    | cons up rest ih =>
      obtain ⟨symbol, place, hcapture, hfollow, hscope⟩ := hcaptures up (by simp)
      simp only [List.filterMap_cons, hcapture, List.map_cons]
      exact .cons ⟨place, hfollow, hscope⟩ (ih fun up hmem => hcaptures up (by simp [hmem]))

end Resolver

end ScriptEngine
