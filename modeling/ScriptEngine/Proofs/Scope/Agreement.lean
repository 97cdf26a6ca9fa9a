import ScriptEngine.Proofs.Scope.Lexicon
import Mathlib.Data.List.Forall2

/-!
# The resolver and the text

What a resolver and a text have in common at every point: each open function shows the
declarations and blocks of its body, and each variable it has captured so far is the one
that the enclosing functions have in scope for its name.  The enclosing functions cannot
declare or end anything while an inner one is open, so a capture that is right when it is
made stays right.
-/

namespace ScriptEngine

open Resolver (follow)

/-! ## Captures only grow -/

/-- The same functions are open and each has captured at least what it had before. -/
def CapturesGrow (before after : List FunctionScope) : Prop :=
  List.Forall₂ (fun scope later => scope.upvalues <+: later.upvalues) before after

namespace CapturesGrow

theorem refl (functions : List FunctionScope) : CapturesGrow functions functions := by
  refine List.forall₂_same.2 fun _ _ => ?_
  exact List.prefix_rfl

theorem trans {first second third : List FunctionScope} (h : CapturesGrow first second)
    (h' : CapturesGrow second third) : CapturesGrow first third := by
  induction h generalizing third with
  | nil => exact h'
  | cons hhead _ ih =>
    cases h' with
    | cons hhead' htail' => exact .cons (hhead.trans hhead') (ih htail')

/-- A symbol that denotes a variable goes on denoting it. -/
theorem follow {before after : List FunctionScope} {symbol : Symbol} {place : Place}
    (h : CapturesGrow before after) (hplace : follow before symbol = some place) :
    follow after symbol = some place := by
  induction h generalizing symbol with
  | nil => simp [Resolver.follow] at hplace
  | @cons scope later outer outer' hhead htail ih =>
    have hlength : outer.length = outer'.length := htail.length_eq
    cases symbol with
    | slot index name => simpa [Resolver.follow, hlength] using hplace
    | global name env => simp [Resolver.follow] at hplace
    | captured index name =>
      cases hup : scope.upvalues[index]? with
      | none => simp [Resolver.follow, hup] at hplace
      | some up =>
        have hup' : later.upvalues[index]? = some up := by
          obtain ⟨more, hmore⟩ := hhead
          rw [← hmore, List.getElem?_append_left]
          · exact hup
          · exact (List.getElem?_eq_some_iff.1 hup).1
        rcases up with ⟨upName, _ | outerSymbol⟩
        · simpa [Resolver.follow, hup, hup', hlength] using hplace
        · simp only [Resolver.follow, hup] at hplace
          simp only [Resolver.follow, hup']
          exact ih hplace

end CapturesGrow

/-- Looking a name up only adds captures. -/
theorem Resolver.resolveIn_grows (name : String) (functions : List FunctionScope) :
    CapturesGrow functions (resolveIn name functions).2 := by
  fun_induction resolveIn name functions with
  | case1 => exact .nil
  | case2 scope outer symbol _ => exact .refl _
  | case3 scope outer _ outer' hrest ih =>
    rw [hrest] at ih
    exact .cons List.prefix_rfl ih
  | case4 scope outer _ symbol outer' hrest ih =>
    rw [hrest] at ih
    exact .cons (List.prefix_append _ _) ih

/-! ## Blocks -/

namespace Body

/-- How many declarations stand before each of the given blocks and around it. -/
def marks : List Block → List Nat
  | [] => []
  | block :: enclosing => (block ++ enclosing.flatten).length :: marks enclosing

end Body

/-- The scope of a function has the declarations and blocks of its body. -/
structure FunctionScope.Shows (scope : FunctionScope) (body : Body) : Prop where
  visible : scope.visible = body.visible
  blocks : scope.blocks = Body.marks body.enclosing
  localCount : scope.localCount = body.declared

namespace FunctionScope.Shows

variable {scope : FunctionScope} {body : Body}

theorem findLocal? (h : scope.Shows body) (name : String) :
    scope.findLocal? name = body.find? name := by
  simp [FunctionScope.findLocal?, Body.find?, h.visible]

theorem fresh : Shows {} {} := ⟨rfl, rfl, rfl⟩

theorem define (h : scope.Shows body) (name : String) :
    (scope.define name).Shows (body.define name) := by
  constructor
  · simp [FunctionScope.define, Body.define, Body.visible, h.visible, h.localCount]
  · exact h.blocks
  · simp [FunctionScope.define, Body.define, h.localCount]

theorem pushBlock (h : scope.Shows body) : scope.pushBlock.Shows body.pushBlock := by
  constructor
  · simp [FunctionScope.pushBlock, Body.pushBlock, Body.visible, h.visible]
  · simp [FunctionScope.pushBlock, Body.pushBlock, Body.marks, h.visible, h.blocks, Body.visible]
  · exact h.localCount

theorem popBlock (h : scope.Shows body) : scope.popBlock.Shows body.popBlock := by
  obtain ⟨hvisible, hblocks, hcount⟩ := h
  cases henclosing : body.enclosing with
  | nil =>
    have hnone : scope.blocks = [] := by simp [hblocks, henclosing, Body.marks]
    have hscope : scope.popBlock = scope := by simp [FunctionScope.popBlock, hnone]
    have hbody : body.popBlock = body := by simp [Body.popBlock, henclosing]
    rw [hscope, hbody]
    exact ⟨hvisible, hblocks, hcount⟩
  | cons block enclosing =>
    have hmark : scope.blocks = (block ++ enclosing.flatten).length :: Body.marks enclosing := by
      rw [hblocks, henclosing, Body.marks]
    have hall : scope.visible = body.block ++ (block ++ enclosing.flatten) := by
      simp [hvisible, Body.visible, henclosing]
    constructor
    · simp only [FunctionScope.popBlock, hmark, Body.popBlock, henclosing, Body.visible, hall,
        List.length_append, Nat.add_sub_cancel]
      rw [List.drop_left]
    · simp [FunctionScope.popBlock, hmark, Body.popBlock, henclosing]
    · simpa [FunctionScope.popBlock, hmark, Body.popBlock, henclosing] using hcount

/-- Capturing declares nothing. -/
theorem capture (h : scope.Shows body) (name : String) (outer : Symbol) :
    (scope.capture name outer).Shows body := ⟨h.visible, h.blocks, h.localCount⟩

end FunctionScope.Shows

/-! ## Variables in scope -/

namespace Lexicon

/-- The variable a name stands for in the functions of the list: its innermost visible
declaration, and for the environment at last the one the host gives. -/
def inScope? (name : String) (bodies : List Body) : Option Place :=
  (lookup? name bodies).or (if name = Symbol.envName then some .hostEnvironment else none)

theorem inScope?_cons_of_some {body : Body} {name : String} {index : Nat}
    (h : body.find? name = some index) (outer : List Body) :
    inScope? name (body :: outer) = some (.slot outer.length index) := by
  simp [inScope?, lookup?, h]

theorem inScope?_cons_of_none {body : Body} {name : String} (h : body.find? name = none)
    (outer : List Body) : inScope? name (body :: outer) = inScope? name outer := by
  simp [inScope?, lookup?, h]

theorem inScope?_eq (lexicon : Lexicon) (name : String) :
    inScope? name (lexicon.body :: lexicon.enclosing) =
      (lexicon.place? name).or
        (if name = Symbol.envName then some .hostEnvironment else none) := rfl

theorem inScope?_envName (lexicon : Lexicon) :
    inScope? Symbol.envName (lexicon.body :: lexicon.enclosing) = some lexicon.environment := by
  cases h : lexicon.place? Symbol.envName <;> simp [inScope?_eq, environment, h]

end Lexicon

open Lexicon (inScope?)

/-- Every captured variable is the one the enclosing functions have in scope for its name. -/
def FunctionScope.CapturesIn (scope : FunctionScope) (outer : List FunctionScope)
    (bodies : List Body) : Prop :=
  ∀ up ∈ scope.upvalues, ∃ symbol place, up.capture? = some symbol ∧
    follow outer symbol = some place ∧ inScope? up.name bodies = some place

/-- The open functions of a resolver are those of the text. -/
inductive Agrees : List FunctionScope → List Body → Prop where
  /-- The outermost function has captured the environment of the host and nothing else. -/
  | root {scope : FunctionScope} {body : Body} (shows : scope.Shows body)
      (hosted : scope.upvalues = [⟨Symbol.envName, none⟩]) : Agrees [scope] [body]
  | inner {scope : FunctionScope} {body : Body} {outer : List FunctionScope} {bodies : List Body}
      (shows : scope.Shows body) (captures : scope.CapturesIn outer bodies)
      (enclosing : Agrees outer bodies) : Agrees (scope :: outer) (body :: bodies)

theorem FunctionScope.CapturesIn.grow {scope : FunctionScope} {outer later : List FunctionScope}
    {bodies : List Body} (h : scope.CapturesIn outer bodies) (hgrow : CapturesGrow outer later) :
    scope.CapturesIn later bodies := by
  intro up hmem
  obtain ⟨symbol, place, hcapture, hfollow, hscope⟩ := h up hmem
  exact ⟨symbol, place, hcapture, hgrow.follow hfollow, hscope⟩

namespace Agrees

variable {functions : List FunctionScope} {bodies : List Body}

theorem length_eq (h : Agrees functions bodies) : functions.length = bodies.length := by
  induction h with
  | root => rfl
  | inner _ _ _ ih => simp [ih]

/-- The innermost function shows its body. -/
theorem shows {scope : FunctionScope} {outer : List FunctionScope} {body : Body}
    (h : Agrees (scope :: outer) (body :: bodies)) : scope.Shows body := by
  cases h with
  | root hshows _ => exact hshows
  | inner hshows _ _ => exact hshows

theorem start : Agrees Resolver.start.functions [{}] := .root ⟨rfl, rfl, rfl⟩ rfl

/-- A change that only touches what the innermost function declares. -/
theorem declare {scope later : FunctionScope} {outer : List FunctionScope} {body body' : Body}
    (h : Agrees (scope :: outer) (body :: bodies)) (hshows : later.Shows body')
    (hup : later.upvalues = scope.upvalues) :
    Agrees (later :: outer) (body' :: bodies) := by
  cases h with
  | root _ hosted => exact .root hshows (hup.trans hosted)
  | inner _ captures enclosing =>
    refine .inner hshows ?_ enclosing
    intro up hmem
    exact captures up (hup ▸ hmem)

end Agrees

/-! ## Looking a name up -/

/-- What a search for a name comes to: the symbol found leads to the variable the name stands
for, and a name that is not found stands for none. -/
def Resolver.Finds (name : String) (bodies : List Body) (functions : List FunctionScope) :
    Option Symbol → Prop
  | none => inScope? name bodies = none
  | some symbol => symbol.name = name ∧ ∃ place,
      follow functions symbol = some place ∧ inScope? name bodies = some place

open Resolver (Finds resolveIn)

theorem FunctionScope.find?_of_findLocal? {scope : FunctionScope} {name : String} {index : Nat}
    (h : scope.findLocal? name = some index) : scope.find? name = some (.slot index name) := by
  simp [FunctionScope.find?, h]

/-- A name the function itself declares. -/
theorem Agrees.finds_slot {scope : FunctionScope} {outer : List FunctionScope} {body : Body}
    {bodies : List Body} {name : String} {index : Nat}
    (h : Agrees (scope :: outer) (body :: bodies)) (hfind : body.find? name = some index) :
    Finds name (body :: bodies) (scope :: outer) (some (.slot index name)) := by
  have hlength : outer.length = bodies.length := by simpa using h.length_eq
  refine ⟨rfl, .slot bodies.length index, ?_, Lexicon.inScope?_cons_of_some hfind bodies⟩
  simp [follow, hlength]

/-- A variable that was captured before stands for its name again. -/
theorem FunctionScope.CapturesIn.finds {scope : FunctionScope} {outer : List FunctionScope}
    {body : Body} {bodies : List Body} {name : String} {index : Nat}
    (h : scope.CapturesIn outer bodies) (hfind : body.find? name = none)
    (hup : scope.findUpvalue? name = some index) :
    Finds name (body :: bodies) (scope :: outer) (some (.captured index name)) := by
  obtain ⟨hlt, hname, -⟩ := List.findIdx?_eq_some_iff_getElem.1 hup
  obtain ⟨symbol, place, hcapture, hfollow, hscope⟩ :=
    h scope.upvalues[index] (List.getElem_mem hlt)
  have hat : scope.upvalues[index]? = some ⟨scope.upvalues[index].name, some symbol⟩ := by
    rw [List.getElem?_eq_getElem hlt, ← hcapture]
  refine ⟨rfl, place, ?_, ?_⟩
  · simpa only [follow, hat] using hfollow
  · rw [Lexicon.inScope?_cons_of_none hfind, ← hscope, of_decide_eq_true hname]

/-- A name found further out is found here through the new capture. -/
theorem FunctionScope.finds_capture {scope : FunctionScope} {outer : List FunctionScope}
    {body : Body} {bodies : List Body} {name : String} {symbol : Symbol}
    (hfind : body.find? name = none) (hfound : Finds name bodies outer (some symbol)) :
    Finds name (body :: bodies) (scope.capture name symbol :: outer)
      (some (.captured scope.upvalues.length name)) := by
  obtain ⟨-, place, hfollow, hscope⟩ := hfound
  refine ⟨rfl, place, ?_, ?_⟩
  · simpa [follow, FunctionScope.capture] using hfollow
  · rw [Lexicon.inScope?_cons_of_none hfind, hscope]

theorem FunctionScope.CapturesIn.capture {scope : FunctionScope} {outer : List FunctionScope}
    {bodies : List Body} {name : String} {symbol : Symbol} (h : scope.CapturesIn outer bodies)
    (hfound : Finds name bodies outer (some symbol)) :
    (scope.capture name symbol).CapturesIn outer bodies := by
  obtain ⟨-, place, hfollow, hscope⟩ := hfound
  intro up hmem
  rcases List.mem_append.1 hmem with hold | hnew
  · exact h up hold
  · obtain rfl := List.mem_singleton.1 hnew
    exact ⟨symbol, place, rfl, hfollow, hscope⟩

/-- The outermost function finds its own names and the environment of the host. -/
theorem FunctionScope.resolveIn_root {scope : FunctionScope} {body : Body}
    (hshows : scope.Shows body) (hosted : scope.upvalues = [⟨Symbol.envName, none⟩])
    (name : String) :
    Agrees (resolveIn name [scope]).2 [body] ∧
      Finds name [body] (resolveIn name [scope]).2 (resolveIn name [scope]).1 := by
  have hroot : Agrees [scope] [body] := .root hshows hosted
  cases hfind : body.find? name with
  | some index =>
    have hsymbol := FunctionScope.find?_of_findLocal? ((hshows.findLocal? name).trans hfind)
    simp only [resolveIn, hsymbol]
    exact ⟨hroot, hroot.finds_slot hfind⟩
  | none =>
    have hlocal : scope.findLocal? name = none := (hshows.findLocal? name).trans hfind
    have hscope := Lexicon.inScope?_cons_of_none hfind []
    by_cases hname : name = Symbol.envName
    · subst hname
      have hsymbol : scope.find? Symbol.envName = some Symbol.rootEnv := by
        simp [FunctionScope.find?, hlocal, FunctionScope.findUpvalue?, hosted, Symbol.rootEnv]
      simp only [resolveIn, hsymbol]
      refine ⟨hroot, rfl, .hostEnvironment, ?_, ?_⟩
      · simp [follow, Symbol.rootEnv, hosted, Place.hostEnvironment]
      · rw [hscope]
        simp [inScope?, Lexicon.lookup?]
    · have hsymbol : scope.find? name = none := by
        simp [FunctionScope.find?, hlocal, FunctionScope.findUpvalue?, hosted, Ne.symm hname]
      simp only [resolveIn, hsymbol]
      refine ⟨hroot, ?_⟩
      rw [Finds, hscope]
      simp [inScope?, Lexicon.lookup?, hname]

/-- A search keeps the resolver in agreement with the text and finds what the text has in
scope. -/
theorem Agrees.resolveIn {functions : List FunctionScope} {bodies : List Body}
    (h : Agrees functions bodies) (name : String) :
    Agrees (resolveIn name functions).2 bodies ∧
      Finds name bodies (resolveIn name functions).2 (resolveIn name functions).1 := by
  induction h with
  | root hshows hosted => exact FunctionScope.resolveIn_root hshows hosted name
  | @inner scope body outer bodies hshows captures enclosing ih =>
    have hinner : Agrees (scope :: outer) (body :: bodies) := .inner hshows captures enclosing
    -- A local hides an upvalue of its name, and that hides what the enclosing functions have.
    cases hfind : body.find? name with
    | some index =>
      have hsymbol := FunctionScope.find?_of_findLocal? ((hshows.findLocal? name).trans hfind)
      simp only [Resolver.resolveIn, hsymbol]
      exact ⟨hinner, hinner.finds_slot hfind⟩
    | none =>
      have hlocal : scope.findLocal? name = none := (hshows.findLocal? name).trans hfind
      cases hup : scope.findUpvalue? name with
      | some index =>
        have hsymbol : scope.find? name = some (.captured index name) := by
          simp [FunctionScope.find?, hlocal, hup]
        simp only [Resolver.resolveIn, hsymbol]
        exact ⟨hinner, captures.finds hfind hup⟩
      | none =>
        have hsymbol : scope.find? name = none := by simp [FunctionScope.find?, hlocal, hup]
        have hgrow := Resolver.resolveIn_grows name outer
        obtain ⟨hagrees, hfinds⟩ := ih
        cases hrest : Resolver.resolveIn name outer with
        | mk found? outer' =>
          rw [hrest] at hagrees hfinds hgrow
          cases found? with
          | none =>
            simp only [Resolver.resolveIn, hsymbol, hrest]
            refine ⟨.inner hshows (captures.grow hgrow) hagrees, ?_⟩
            rw [Finds, Lexicon.inScope?_cons_of_none hfind]
            exact hfinds
          | some symbol =>
            simp only [Resolver.resolveIn, hsymbol, hrest]
            exact ⟨.inner (hshows.capture name symbol) ((captures.grow hgrow).capture hfinds)
              hagrees, FunctionScope.finds_capture hfind hfinds⟩

end ScriptEngine
