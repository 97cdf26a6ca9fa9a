import ScriptEngine.Config.Layer

/-!
# Settings of an engine

Every setting with its value: that of the project's layer, else that of the user's,
else the default.
-/

namespace ScriptEngine

/-- Which parts of the core library an engine has. -/
structure ModuleSet where
  base : Bool := true
  table : Bool := true
  coroutine : Bool := true
deriving DecidableEq, Repr, Inhabited

/-- What an engine is made with. -/
structure Settings where
  /-- The most frames on one processor. -/
  maxCallDepth : Nat := 100000
  /-- The most loops nested on one processor, and the most coroutines in flight. -/
  maxNativeNesting : Nat := 200
  stackCapacity : Nat := 1024
  /-- Instructions a new coroutine runs before it is suspended. -/
  autoYield? : Option Nat := none
  modules : ModuleSet := {}
deriving DecidableEq, Repr, Inhabited

namespace Settings

open Config

/-- Puts the limits that a section sets. -/
def withLimits (s : Settings) : Option LimitsLayer → Settings
  | none => s
  | some l =>
    { s with
      maxCallDepth := l.maxCallDepth?.getD s.maxCallDepth
      maxNativeNesting := l.maxNativeNesting?.getD s.maxNativeNesting
      stackCapacity := l.stackCapacity?.getD s.stackCapacity }

/-- Puts the budget that a section sets; zero takes the budget away. -/
def withScheduling (s : Settings) : Option SchedulingLayer → Settings
  | none => s
  | some l =>
    match l.autoYield? with
    | none => s
    | some budget => { s with autoYield? := if 0 < budget then some budget else none }

/-- Puts the modules of a section; those it leaves open are there. -/
def withModules (s : Settings) : Option ModulesLayer → Settings
  | none => s
  | some l =>
    { s with
      modules := ⟨l.base?.getD true, l.table?.getD true, l.coroutine?.getD true⟩ }

/-- The project's layer over the user's over the defaults. -/
def resolve (global : GlobalLayer) (project : ProjectLayer) : Settings :=
  ((((({} : Settings).withLimits global.limits?).withLimits project.limits?).withScheduling
    global.scheduling?).withScheduling project.scheduling?).withModules project.modules?

end Settings

end ScriptEngine
