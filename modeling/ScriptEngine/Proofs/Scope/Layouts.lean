import ScriptEngine.Proofs.Scope.Resolution

/-!
# Layouts

Slots and indices of captured variables are handed out while a function is open, and what
the function needs is known when it is closed.  `Audit` keeps, beside a resolver, a ledger
of all that was handed out for each open function.  A layout serves a ledger if everything
in it is within the bounds that the layout gives; an open function can only gain slots and
captures, so what is within its bounds stays within them.
-/

namespace ScriptEngine

/-! ## Symbols and bounds -/

namespace Symbol

/-- The slot or the captured variable that the symbol stands for, or that its environment
stands for, is one of so many. -/
def Fits (locals captured : Nat) : Symbol → Prop
  | .slot index _ => index < locals
  | .captured index _ => index < captured
  | .global _ env => env.isGlobal = false ∧ env.Fits locals captured

/-- The slot of a local. -/
def slot? : Symbol → Option Nat
  | .slot index _ => some index
  | _ => none

theorem Fits.mono {locals locals' captured captured' : Nat} {s : Symbol}
    (h : s.Fits locals captured) (hlocals : locals ≤ locals') (hcaptured : captured ≤ captured') :
    s.Fits locals' captured' := by
  induction s with
  | slot index name => exact Nat.lt_of_lt_of_le h hlocals
  | captured index name => exact Nat.lt_of_lt_of_le h hcaptured
  | global name env ih => exact ⟨h.1, ih h.2⟩

end Symbol

/-- A symbol of a function with this layout. -/
def FunctionLayout.Admits (layout : FunctionLayout) (s : Symbol) : Prop :=
  s.Fits layout.localCount layout.upvalueNames.length

/-- A symbol that can be captured from a function with this layout. -/
def FunctionLayout.Lends (layout : FunctionLayout) (s : Symbol) : Prop :=
  s.isGlobal = false ∧ layout.Admits s

/-! ## What was handed out -/

/-- What was handed out for a function, the latest first. -/
structure Ledger where
  /-- The symbols of its declarations. -/
  declared : List Symbol := []
  /-- The symbols of names that were looked up in it. -/
  resolved : List Symbol := []
  /-- The layouts of the functions closed directly in it. -/
  inner : List FunctionLayout := []

/-- A resolver and the ledgers of the open functions, the innermost first. -/
structure Audit where
  resolver : Resolver
  ledgers : List Ledger

namespace Audit

def start : Audit := ⟨.start, [{}]⟩

def perform (a : Audit) : ScopeStep → Audit
  | .pushFunction => ⟨a.resolver.pushFunction, {} :: a.ledgers⟩
  | .popFunction =>
    let (layout?, resolver) := a.resolver.popFunction
    ⟨resolver, a.ledgers.tail.modifyHead fun l => { l with inner := layout?.toList ++ l.inner }⟩
  | .pushBlock => { a with resolver := a.resolver.pushBlock }
  | .popBlock => { a with resolver := a.resolver.popBlock }
  | .defineLocal name =>
    let (symbol, resolver) := a.resolver.defineLocal name
    ⟨resolver, a.ledgers.modifyHead fun l => { l with declared := symbol :: l.declared }⟩
  | .resolve name =>
    let (symbol, resolver) := a.resolver.resolve name
    ⟨resolver, a.ledgers.modifyHead fun l => { l with resolved := symbol :: l.resolved }⟩

def performAll (a : Audit) (steps : List ScopeStep) : Audit := steps.foldl perform a

theorem resolver_perform (a : Audit) (step : ScopeStep) :
    (a.perform step).resolver = a.resolver.perform step := by
  cases step <;> rfl

/-- Keeping ledgers does not disturb the resolver. -/
theorem resolver_performAll (a : Audit) (steps : List ScopeStep) :
    (a.performAll steps).resolver = a.resolver.performAll steps := by
  induction steps generalizing a with
  | nil => rfl
  | cons step steps ih =>
    have hrest := ih (a.perform step)
    rw [resolver_perform] at hrest
    exact hrest

end Audit

/-- Everything that was handed out is within the bounds of the layout. -/
structure FunctionLayout.Serves (layout : FunctionLayout) (ledger : Ledger) : Prop where
  declared : ∀ s ∈ ledger.declared, ∃ index name, s = .slot index name ∧ index < layout.localCount
  distinct : (ledger.declared.map Symbol.slot?).Nodup
  resolved : ∀ s ∈ ledger.resolved, layout.Admits s
  inner : ∀ l ∈ ledger.inner, l.captures.length = l.upvalueNames.length ∧
    ∀ s ∈ l.captures, layout.Lends s

namespace FunctionLayout.Serves

variable {layout later : FunctionLayout} {ledger : Ledger}

theorem fresh : Serves ⟨0, [], []⟩ {} := by
  constructor <;> simp

/-- More slots and more captures serve as well. -/
theorem mono (h : layout.Serves ledger) (hlocals : layout.localCount ≤ later.localCount)
    (hcaptured : layout.upvalueNames.length ≤ later.upvalueNames.length) :
    later.Serves ledger where
  declared s hs := by
    obtain ⟨index, name, rfl, hindex⟩ := h.declared s hs
    exact ⟨index, name, rfl, Nat.lt_of_lt_of_le hindex hlocals⟩
  distinct := h.distinct
  resolved s hs := (h.resolved s hs).mono hlocals hcaptured
  inner l hl := ⟨(h.inner l hl).1, fun s hs =>
    ⟨((h.inner l hl).2 s hs).1, ((h.inner l hl).2 s hs).2.mono hlocals hcaptured⟩⟩

/-- The next slot is none of those handed out before. -/
theorem declare (h : layout.Serves ledger) (hlocals : layout.localCount < later.localCount)
    (hcaptured : layout.upvalueNames.length ≤ later.upvalueNames.length) (name : String) :
    later.Serves
      { ledger with declared := .slot layout.localCount name :: ledger.declared } := by
  have hlater : later.Serves ledger := h.mono (Nat.le_of_lt hlocals) hcaptured
  refine ⟨?_, ?_, hlater.resolved, hlater.inner⟩
  · rintro s (_ | ⟨_, hs⟩)
    · exact ⟨layout.localCount, name, rfl, hlocals⟩
    · exact hlater.declared s hs
  · rw [List.map_cons, List.nodup_cons]
    refine ⟨fun hmem => ?_, h.distinct⟩
    obtain ⟨s, hs, hslot⟩ := List.mem_map.mp hmem
    obtain ⟨index, other, rfl, hindex⟩ := h.declared s hs
    cases hslot
    exact Nat.lt_irrefl _ hindex

theorem resolve (h : layout.Serves ledger) {symbol : Symbol} (hsymbol : layout.Admits symbol) :
    layout.Serves { ledger with resolved := symbol :: ledger.resolved } where
  declared := h.declared
  distinct := h.distinct
  resolved := List.forall_mem_cons.mpr ⟨hsymbol, h.resolved⟩
  inner := h.inner

theorem close (h : layout.Serves ledger) {inner : FunctionLayout}
    (hlength : inner.captures.length = inner.upvalueNames.length)
    (hlends : ∀ s ∈ inner.captures, layout.Lends s) :
    layout.Serves { ledger with inner := inner :: ledger.inner } where
  declared := h.declared
  distinct := h.distinct
  resolved := h.resolved
  inner := List.forall_mem_cons.mpr ⟨⟨hlength, hlends⟩, h.inner⟩

end FunctionLayout.Serves

/-! ## Open functions -/

namespace FunctionScope

/-- The function has at least the slots and the captures it had. -/
structure Widens (scope later : FunctionScope) : Prop where
  visible : later.visible = scope.visible
  localCount : later.localCount = scope.localCount
  upvalues : scope.upvalues <+: later.upvalues

theorem Widens.refl (scope : FunctionScope) : scope.Widens scope := ⟨rfl, rfl, List.prefix_rfl⟩

theorem Widens.capture (scope : FunctionScope) (name : String) (outer : Symbol) :
    scope.Widens (scope.capture name outer) := ⟨rfl, rfl, List.prefix_append _ _⟩

variable {scope later : FunctionScope} {ledger : Ledger}

theorem Widens.names_le (h : scope.Widens later) :
    scope.layout.upvalueNames.length ≤ later.layout.upvalueNames.length := by
  simpa [layout] using h.upvalues.length_le

theorem Widens.admits (h : scope.Widens later) {s : Symbol} (hs : scope.layout.Admits s) :
    later.layout.Admits s := by
  have hcount := Nat.le_of_eq h.localCount.symm
  exact hs.mono hcount h.names_le

/-- What is visible has a slot, and if the function were closed now, its layout would
serve. -/
structure Keeps (scope : FunctionScope) (ledger : Ledger) : Prop where
  visible : ∀ v ∈ scope.visible, v.2 < scope.localCount
  serves : scope.layout.Serves ledger

theorem Keeps.fresh : Keeps {} {} := by
  refine ⟨?_, .fresh⟩
  simp

theorem Keeps.widen (h : scope.Keeps ledger) (hwidens : scope.Widens later) :
    later.Keeps ledger where
  visible := by
    rw [hwidens.visible, hwidens.localCount]
    exact h.visible
  serves := h.serves.mono (Nat.le_of_eq hwidens.localCount.symm) hwidens.names_le

theorem Keeps.define (h : scope.Keeps ledger) (name : String) :
    (scope.define name).Keeps
      { ledger with declared := .slot scope.localCount name :: ledger.declared } where
  visible := by
    rintro v (_ | ⟨_, hv⟩)
    · exact Nat.lt_succ_self _
    · exact Nat.lt_succ_of_lt (h.visible v hv)
  serves := by
    have hroom : scope.layout.localCount < (scope.define name).layout.localCount :=
      Nat.lt_succ_self _
    exact h.serves.declare hroom (Nat.le_refl _) name

theorem Keeps.pushBlock (h : scope.Keeps ledger) : scope.pushBlock.Keeps ledger :=
  ⟨h.visible, h.serves⟩

/-- The locals of a block go out of sight and keep their slots. -/
theorem Keeps.popBlock (h : scope.Keeps ledger) : scope.popBlock.Keeps ledger := by
  cases hblocks : scope.blocks with
  | nil =>
    rw [FunctionScope.popBlock, hblocks]
    exact h
  | cons mark blocks =>
    rw [FunctionScope.popBlock, hblocks]
    exact ⟨fun v hv => h.visible v (List.mem_of_mem_drop hv), h.serves⟩

/-- A function's own symbol is within its bounds. -/
theorem Keeps.lends_find (h : scope.Keeps ledger) {name : String} {s : Symbol}
    (hfind : scope.find? name = some s) : scope.layout.Lends s := by
  unfold find? at hfind
  split at hfind
  · next index hlocal =>
    cases hfind
    obtain ⟨before, after, hvisible, -⟩ := List.lookup_eq_some_iff.mp hlocal
    exact ⟨rfl, h.visible (name, index) (by simp [hvisible])⟩
  · obtain ⟨index, hindex, rfl⟩ := Option.map_eq_some_iff.mp hfind
    obtain ⟨hlt, -⟩ := List.findIdx?_eq_some_iff_getElem.mp hindex
    refine ⟨rfl, ?_⟩
    simpa [FunctionLayout.Admits, Symbol.Fits, layout] using hlt

/-- All that the function captures it can have from the function around it. -/
def Borrows (scope enclosing : FunctionScope) : Prop :=
  ∀ up ∈ scope.upvalues, ∃ s, up.capture? = some s ∧ enclosing.layout.Lends s

variable {enclosing enclosing' : FunctionScope}

theorem Borrows.widen (h : scope.Borrows enclosing) (hwidens : enclosing.Widens enclosing') :
    scope.Borrows enclosing' := by
  intro up hup
  obtain ⟨s, hcapture, hlocal, hadmits⟩ := h up hup
  exact ⟨s, hcapture, hlocal, hwidens.admits hadmits⟩

theorem Borrows.capture (h : scope.Borrows enclosing) (name : String) {s : Symbol}
    (hs : enclosing.layout.Lends s) : (scope.capture name s).Borrows enclosing := by
  intro up hup
  rcases List.mem_append.mp hup with hold | hnew
  · exact h up hold
  · obtain rfl := List.mem_singleton.mp hnew
    exact ⟨s, rfl, hs⟩

/-- There is one capture for each name. -/
theorem Borrows.captures_length (h : scope.Borrows enclosing) :
    scope.layout.captures.length = scope.layout.upvalueNames.length := by
  unfold layout Borrows at *
  generalize scope.upvalues = upvalues at h
  induction upvalues with
  | nil => rfl
  | cons up rest ih =>
    obtain ⟨s, hcapture, -⟩ := h up List.mem_cons_self
    rw [List.filterMap_cons_some hcapture, List.map_cons, List.length_cons, List.length_cons,
      ih fun up hup => h up (List.mem_cons_of_mem _ hup)]

theorem Borrows.lends (h : scope.Borrows enclosing) :
    ∀ s ∈ scope.layout.captures, enclosing.layout.Lends s := by
  intro s hs
  obtain ⟨up, hup, hcapture⟩ := List.mem_filterMap.mp hs
  obtain ⟨s', hcapture', hlends⟩ := h up hup
  rw [hcapture] at hcapture'
  cases hcapture'
  exact hlends

end FunctionScope

/-! ## All of them together -/

/-- The outermost function has the environment from the host and captures nothing else; every
other one captures from the one around it; and each keeps what its ledger says. -/
inductive Kept : List FunctionScope → List Ledger → Prop where
  | root {scope : FunctionScope} {ledger : Ledger}
      (hup : scope.upvalues = [⟨Symbol.envName, none⟩]) (h : scope.Keeps ledger) :
      Kept [scope] [ledger]
  | inner {scope enclosing : FunctionScope} {outer : List FunctionScope} {ledger : Ledger}
      {ledgers : List Ledger} (hborrows : scope.Borrows enclosing) (h : scope.Keeps ledger)
      (houter : Kept (enclosing :: outer) ledgers) :
      Kept (scope :: enclosing :: outer) (ledger :: ledgers)

namespace Kept

variable {functions outer : List FunctionScope} {scope later : FunctionScope}
  {ledgers : List Ledger} {ledger ledger' : Ledger}

theorem start : Kept [Resolver.rootScope] [{}] :=
  .root rfl ⟨by simp [Resolver.rootScope], by constructor <;> simp⟩

theorem exists_cons (h : Kept functions ledgers) : ∃ scope outer ledger rest,
    functions = scope :: outer ∧ ledgers = ledger :: rest := by
  cases h with
  | root _ _ => exact ⟨_, _, _, _, rfl, rfl⟩
  | inner _ _ _ => exact ⟨_, _, _, _, rfl, rfl⟩

theorem keeps (h : Kept (scope :: outer) (ledger :: ledgers)) : scope.Keeps ledger := by
  cases h with
  | root _ h => exact h
  | inner _ h _ => exact h

/-- The innermost function changes, but not what it has captured. -/
theorem modify (h : Kept (scope :: outer) (ledger :: ledgers))
    (hup : later.upvalues = scope.upvalues) (hkeeps : later.Keeps ledger') :
    Kept (later :: outer) (ledger' :: ledgers) := by
  cases h with
  | root hroot _ => exact .root (hup.trans hroot) hkeeps
  | inner hborrows _ houter =>
    refine .inner (fun up hmem => hborrows up ?_) hkeeps houter
    rwa [hup] at hmem

theorem push (h : Kept functions ledgers) : Kept ({} :: functions) ({} :: ledgers) := by
  have hnone : ∀ enclosing : FunctionScope, FunctionScope.Borrows {} enclosing := by
    simp [FunctionScope.Borrows]
  cases h with
  | root hup h => exact .inner (hnone _) .fresh (.root hup h)
  | inner hborrows h houter => exact .inner (hnone _) .fresh (.inner hborrows h houter)

/-- A search widens the innermost function, and what is found can be captured from it. -/
structure Searched (ledgers : List Ledger) (scope later : FunctionScope)
    (outer : List FunctionScope) (result : Option Symbol × List FunctionScope) : Prop where
  functions : result.2 = later :: outer
  widens : scope.Widens later
  kept : Kept (later :: outer) ledgers
  lends : ∀ s, result.1 = some s → later.layout.Lends s

theorem searched_own (h : Kept (scope :: outer) ledgers) {name : String} {s : Symbol}
    (hfind : scope.find? name = some s) :
    Searched ledgers scope scope outer (Resolver.resolveIn name (scope :: outer)) := by
  rw [Resolver.resolveIn, hfind]
  refine ⟨rfl, .refl _, h, ?_⟩
  rintro _ ⟨⟩
  cases h with
  | root _ hkeeps => exact hkeeps.lends_find hfind
  | inner _ hkeeps _ => exact hkeeps.lends_find hfind

/-- What a function does not have it captures from the one around it. -/
theorem searched_inner {enclosing enclosing' : FunctionScope} {outer' : List FunctionScope}
    {name : String} (hborrows : scope.Borrows enclosing) (hkeeps : scope.Keeps ledger)
    (hfind : scope.find? name = none)
    (hrest : Searched ledgers enclosing enclosing' outer'
      (Resolver.resolveIn name (enclosing :: outer))) :
    ∃ later, Searched (ledger :: ledgers) scope later (enclosing' :: outer')
      (Resolver.resolveIn name (scope :: enclosing :: outer)) := by
  obtain ⟨hfunctions, hwidens, hkept, hlends⟩ := hrest
  have hborrows' := hborrows.widen hwidens
  rw [Resolver.resolveIn, hfind]
  generalize Resolver.resolveIn name (enclosing :: outer) = result at hfunctions hlends ⊢
  obtain ⟨found?, functions⟩ := result
  obtain rfl : functions = enclosing' :: outer' := hfunctions
  cases found? with
  | none => exact ⟨scope, rfl, .refl _, .inner hborrows' hkeeps hkept, by simp⟩
  | some s =>
    have hcapture := FunctionScope.Widens.capture scope name s
    refine ⟨scope.capture name s, rfl, hcapture,
      .inner (hborrows'.capture name (hlends s rfl)) (hkeeps.widen hcapture) hkept, ?_⟩
    rintro s' ⟨⟩
    refine ⟨rfl, ?_⟩
    simp [FunctionLayout.Admits, Symbol.Fits, FunctionScope.layout, FunctionScope.capture]

theorem exists_searched (h : Kept (scope :: outer) ledgers) (name : String) :
    ∃ later outer', Searched ledgers scope later outer'
      (Resolver.resolveIn name (scope :: outer)) := by
  induction outer generalizing scope ledgers with
  | nil =>
    refine ⟨scope, [], ?_⟩
    cases hfind : scope.find? name with
    | some s => exact h.searched_own hfind
    | none =>
      rw [Resolver.resolveIn, hfind]
      exact ⟨rfl, .refl _, h, by simp [Resolver.resolveIn]⟩
  | cons enclosing outer ih =>
    cases hfind : scope.find? name with
    | some s => exact ⟨scope, _, h.searched_own hfind⟩
    | none =>
      cases h with
      | inner hborrows hkeeps houter =>
        obtain ⟨enclosing', outer', hrest⟩ := ih houter
        obtain ⟨later, hsearched⟩ := searched_inner hborrows hkeeps hfind hrest
        exact ⟨later, _, hsearched⟩

/-- The environment is always found, at the latest in the outermost function. -/
theorem resolveIn_envName_ne_none (h : Kept functions ledgers) :
    (Resolver.resolveIn Symbol.envName functions).1 ≠ none := by
  induction h with
  | @root scope _ hup _ =>
    cases hfind : scope.find? Symbol.envName with
    | some s => simp [Resolver.resolveIn, hfind]
    | none =>
      unfold FunctionScope.find? at hfind
      split at hfind
      · cases hfind
      · simp [FunctionScope.findUpvalue?, hup] at hfind
  | @inner scope enclosing outer _ _ _ _ _ ih =>
    cases hfind : scope.find? Symbol.envName with
    | some s => simp [Resolver.resolveIn, hfind]
    | none =>
      rw [Resolver.resolveIn, hfind]
      generalize Resolver.resolveIn Symbol.envName (enclosing :: outer) = result at ih ⊢
      obtain ⟨_ | s, functions⟩ := result
      · exact absurd rfl ih
      · simp

/-- The symbol of a name is within the bounds of the function it was looked up in. -/
theorem resolve {r : Resolver} (h : Kept r.functions ledgers) (name : String) :
    ∃ scope outer, (r.resolve name).2.functions = scope :: outer ∧
      Kept (scope :: outer) ledgers ∧ scope.layout.Admits (r.resolve name).1 := by
  obtain ⟨scope, outer, -, -, hfunctions, -⟩ := h.exists_cons
  rw [hfunctions] at h
  obtain ⟨later, outer', hafter, -, hkept, hlends⟩ := h.exists_searched name
  cases hsearch : Resolver.resolveIn name (scope :: outer) with
  | mk found? functions =>
    rw [hsearch] at hafter hlends
    obtain rfl : functions = later :: outer' := hafter
    cases found? with
    | some s =>
      simp only [Resolver.resolve, hfunctions, hsearch]
      exact ⟨later, outer', rfl, hkept, (hlends s rfl).2⟩
    | none =>
      -- The name is a field of the environment, which is looked up in its place.
      obtain ⟨latest, outer'', hafter', -, hkept', hlends'⟩ :=
        hkept.exists_searched Symbol.envName
      have henv := hkept.resolveIn_envName_ne_none
      cases hsearch' : Resolver.resolveIn Symbol.envName (later :: outer') with
      | mk env? functions' =>
        rw [hsearch'] at hafter' hlends' henv
        cases env? with
        | none => exact absurd rfl henv
        | some env =>
          simp only [Resolver.resolve, hfunctions, hsearch, hsearch']
          exact ⟨latest, outer'', hafter', hkept', hlends' env rfl⟩

end Kept

namespace Audit

/-- Every open function keeps what its ledger says. -/
def Sound (a : Audit) : Prop := Kept a.resolver.functions a.ledgers

theorem sound_start : start.Sound := Kept.start

variable {a : Audit}

/-- The innermost function and its ledger. -/
theorem Sound.exists_current (h : a.Sound) :
    ∃ scope outer ledger ledgers, a.resolver.functions = scope :: outer ∧
      a.ledgers = ledger :: ledgers ∧ Kept (scope :: outer) (ledger :: ledgers) := by
  obtain ⟨scope, outer, ledger, ledgers, hfunctions, hledgers⟩ := Kept.exists_cons h
  refine ⟨scope, outer, ledger, ledgers, hfunctions, hledgers, ?_⟩
  rw [← hfunctions, ← hledgers]
  exact h

theorem Sound.pushFunction (h : a.Sound) : (a.perform .pushFunction).Sound := Kept.push h

/-- The layout of a closed function is entered into the ledger of the one around it. -/
theorem Sound.popFunction (h : a.Sound) (hinner : 1 < a.ledgers.length) :
    (a.perform .popFunction).Sound := by
  obtain ⟨scope, outer, ledger, ledgers, hfunctions, hledgers, hkept⟩ := h.exists_current
  cases hkept with
  | root hup hkeeps =>
    rw [hledgers] at hinner
    exact absurd hinner (by simp)
  | @inner _ enclosing outer _ ledgers hborrows hkeeps houter =>
    unfold Sound
    simp only [perform, Resolver.popFunction, hfunctions, hledgers, List.tail_cons,
      Option.toList_some, List.singleton_append]
    cases ledgers with
    | nil => cases houter
    | cons around ledgers =>
      exact houter.modify rfl ⟨houter.keeps.visible,
        houter.keeps.serves.close hborrows.captures_length hborrows.lends⟩

/-- What happens in the innermost function leaves its captures alone. -/
theorem Sound.modifyCurrent (h : a.Sound) (change : FunctionScope → FunctionScope)
    (enter : Ledger → Ledger) (hup : ∀ scope, (change scope).upvalues = scope.upvalues)
    (hkeeps : ∀ scope ledger outer, a.resolver.functions = scope :: outer → scope.Keeps ledger →
      (change scope).Keeps (enter ledger)) :
    Sound ⟨a.resolver.modifyCurrent change, a.ledgers.modifyHead enter⟩ := by
  obtain ⟨scope, outer, ledger, ledgers, hfunctions, hledgers, hkept⟩ := h.exists_current
  unfold Sound
  simp only [Resolver.modifyCurrent, hfunctions, hledgers, List.modifyHead_cons]
  exact hkept.modify (hup scope) (hkeeps scope ledger outer hfunctions hkept.keeps)

theorem Sound.defineLocal (h : a.Sound) (name : String) :
    (a.perform (.defineLocal name)).Sound := by
  refine h.modifyCurrent (·.define name) _ (fun _ => rfl) ?_
  intro scope ledger outer hfunctions hkeeps
  have hdefined := hkeeps.define name
  rw [hfunctions]
  exact hdefined

/-- Blocks begin and end without an entry. -/
theorem Sound.modifyBlocks (h : a.Sound) (change : FunctionScope → FunctionScope)
    (hup : ∀ scope, (change scope).upvalues = scope.upvalues)
    (hkeeps : ∀ scope ledger, scope.Keeps ledger → (change scope).Keeps ledger) :
    Sound { a with resolver := a.resolver.modifyCurrent change } := by
  have hmodified := h.modifyCurrent change id hup fun scope ledger _ _ => hkeeps scope ledger
  rwa [List.modifyHead_id] at hmodified

theorem Sound.resolve (h : a.Sound) (name : String) : (a.perform (.resolve name)).Sound := by
  obtain ⟨-, -, ledger, ledgers, -, hledgers, -⟩ := h.exists_current
  obtain ⟨scope, outer, hfunctions, hkept, hadmits⟩ := Kept.resolve h name
  rw [hledgers] at hkept
  unfold Sound
  simp only [perform, hfunctions, hledgers, List.modifyHead_cons]
  exact hkept.modify rfl ⟨hkept.keeps.visible, hkept.keeps.serves.resolve hadmits⟩

/-- The ledgers are right along every history that leaves the outermost function open. -/
theorem Sound.performAll {steps : List ScopeStep} {inner : Nat} (h : a.Sound)
    (hledgers : a.ledgers.length = inner + 1)
    (hopen : ScopeStep.staysOpen inner steps = true) : (a.performAll steps).Sound := by
  induction steps generalizing a inner with
  | nil => exact h
  | cons step steps ih =>
    cases step with
    | pushFunction => exact ih h.pushFunction (by simp [perform, hledgers]) hopen
    | popFunction =>
      cases inner with
      | zero => simp [ScopeStep.staysOpen] at hopen
      | succ inner =>
        exact ih (h.popFunction (by omega)) (by simp [perform, hledgers]) hopen
    | pushBlock =>
      exact ih (h.modifyBlocks (·.pushBlock) (fun _ => rfl) fun _ _ hkeeps => hkeeps.pushBlock)
        hledgers hopen
    | popBlock =>
      refine ih (h.modifyBlocks (·.popBlock) (fun scope => ?_) fun _ _ hkeeps => hkeeps.popBlock)
        hledgers hopen
      cases hblocks : scope.blocks <;> simp [FunctionScope.popBlock, hblocks]
    | defineLocal name => exact ih (h.defineLocal name) (by simp [perform, hledgers]) hopen
    | resolve name => exact ih (h.resolve name) (by simp [perform, hledgers]) hopen

/-- Closing the innermost function gives a layout that serves its ledger. -/
structure Closes (a : Audit) (layout : FunctionLayout) (ledger : Ledger) : Prop where
  closed : a.resolver.popFunction.1 = some layout
  current : a.ledgers.head? = some ledger
  serves : layout.Serves ledger
  /-- The host gives the outermost function its environment. -/
  captures : if a.ledgers.length = 1
    then layout.captures = [] ∧ layout.upvalueNames = [Symbol.envName]
    else layout.captures.length = layout.upvalueNames.length

theorem Sound.exists_closes (h : a.Sound) : ∃ layout ledger, a.Closes layout ledger := by
  obtain ⟨scope, outer, ledger, ledgers, hfunctions, hledgers, hkept⟩ := h.exists_current
  refine ⟨scope.layout, ledger, by simp [Resolver.popFunction, hfunctions], by simp [hledgers],
    hkept.keeps.serves, ?_⟩
  rw [hledgers]
  cases hkept with
  | root hup hkeeps => simp [FunctionScope.layout, hup]
  | inner hborrows hkeeps houter =>
    cases houter with
    | root _ _ => simpa using hborrows.captures_length
    | inner _ _ _ => simpa using hborrows.captures_length

end Audit

end ScriptEngine
