/-!
# Layers of settings

A layer sets some settings and leaves the others open.  Layers are merged, a later one
over an earlier one; `Settings.resolve` then fills what is still open with defaults.
Limits are checked for each layer on its own, whatever wins in the end.
-/

namespace ScriptEngine.Config

/-- Limits of a processor. -/
structure LimitsLayer where
  maxCallDepth? : Option Nat := none
  maxNativeNesting? : Option Nat := none
  stackCapacity? : Option Nat := none
deriving DecidableEq, Repr, Inhabited

/-- How coroutines are scheduled; a budget of zero means none. -/
structure SchedulingLayer where
  autoYield? : Option Nat := none
deriving DecidableEq, Repr, Inhabited

/-- Which parts of the core library there are. -/
structure ModulesLayer where
  base? : Option Bool := none
  table? : Option Bool := none
  coroutine? : Option Bool := none
deriving DecidableEq, Repr, Inhabited

/-- Settings of a user. -/
structure GlobalLayer where
  limits? : Option LimitsLayer := none
  scheduling? : Option SchedulingLayer := none
deriving DecidableEq, Repr, Inhabited

/-- Settings of a project. -/
structure ProjectLayer where
  limits? : Option LimitsLayer := none
  scheduling? : Option SchedulingLayer := none
  modules? : Option ModulesLayer := none
deriving DecidableEq, Repr, Inhabited

/-! ## Merging -/

/-- What `top` sets over what `under` sets. -/
def LimitsLayer.merge (under top : LimitsLayer) : LimitsLayer where
  maxCallDepth? := top.maxCallDepth?.or under.maxCallDepth?
  maxNativeNesting? := top.maxNativeNesting?.or under.maxNativeNesting?
  stackCapacity? := top.stackCapacity?.or under.stackCapacity?

def SchedulingLayer.merge (under top : SchedulingLayer) : SchedulingLayer where
  autoYield? := top.autoYield?.or under.autoYield?

def ModulesLayer.merge (under top : ModulesLayer) : ModulesLayer where
  base? := top.base?.or under.base?
  table? := top.table?.or under.table?
  coroutine? := top.coroutine?.or under.coroutine?

/-- Merges a section that either layer may lack. -/
def mergeSection {α : Type} [Inhabited α] (merge : α → α → α) (under top : Option α) : Option α :=
  match top with
  | none => under
  | some t => some (merge (under.getD default) t)

/-- The scheduling section of a user's layer replaces an earlier one as a whole. -/
def GlobalLayer.merge (under top : GlobalLayer) : GlobalLayer where
  limits? := mergeSection LimitsLayer.merge under.limits? top.limits?
  scheduling? := top.scheduling?.or under.scheduling?

def ProjectLayer.merge (under top : ProjectLayer) : ProjectLayer where
  limits? := mergeSection LimitsLayer.merge under.limits? top.limits?
  scheduling? := mergeSection SchedulingLayer.merge under.scheduling? top.scheduling?
  modules? := mergeSection ModulesLayer.merge under.modules? top.modules?

/-! Merging is associative and an empty layer changes nothing, so only the order of the layers
matters. -/

@[simp] theorem LimitsLayer.merge_empty (l : LimitsLayer) : l.merge {} = l := by
  simp [LimitsLayer.merge]

@[simp] theorem LimitsLayer.empty_merge (l : LimitsLayer) : LimitsLayer.merge {} l = l := by
  simp [LimitsLayer.merge]

theorem LimitsLayer.merge_assoc (a b c : LimitsLayer) :
    (a.merge b).merge c = a.merge (b.merge c) := by
  simp [LimitsLayer.merge, Option.or_assoc]

theorem SchedulingLayer.merge_assoc (a b c : SchedulingLayer) :
    (a.merge b).merge c = a.merge (b.merge c) := by
  simp [SchedulingLayer.merge, Option.or_assoc]

theorem ModulesLayer.merge_assoc (a b c : ModulesLayer) :
    (a.merge b).merge c = a.merge (b.merge c) := by
  simp [ModulesLayer.merge, Option.or_assoc]

@[simp] theorem GlobalLayer.merge_empty (l : GlobalLayer) : l.merge {} = l := by
  simp [GlobalLayer.merge, mergeSection]

@[simp] theorem ProjectLayer.merge_empty (l : ProjectLayer) : l.merge {} = l := by
  simp [ProjectLayer.merge, mergeSection]

/-! ## Checking -/

/-- A setting with a value it must not have. -/
inductive InvalidSetting where
  | outOfRange (setting : String) (low high value : Nat)
  | notANumber (source raw : String)
  | unknownModule (source name : String)
deriving DecidableEq, Repr

def InvalidSetting.message : InvalidSetting → String
  | .outOfRange setting low high value =>
    "Invalid value for '" ++ setting ++ "': must be between " ++ toString low ++ " and " ++
      toString high ++ ", got " ++ toString value
  | .notANumber source raw =>
    "Invalid value for '" ++ source ++ "': expected a non-negative integer, got '" ++ raw ++ "'"
  | .unknownModule source name =>
    "Invalid value for '" ++ source ++ "': unknown module '" ++ name ++ "'"

/-- The most frames a call depth may allow. -/
def callDepthLimit : Nat := 10000000

/-- The most nested loops that may be allowed. -/
def nativeNestingLimit : Nat := 10000

/-- A setting that is left open is in range. -/
def checkRange (setting : String) (low high : Nat) : Option Nat → Except InvalidSetting Unit
  | none => .ok ()
  | some value =>
    if value < low || high < value then .error (.outOfRange setting low high value) else .ok ()

def LimitsLayer.check (l : LimitsLayer) : Except InvalidSetting Unit :=
  match checkRange "vm.max_call_depth" 1 callDepthLimit l.maxCallDepth? with
  | .error e => .error e
  | .ok () => checkRange "vm.max_native_nesting" 1 nativeNestingLimit l.maxNativeNesting?

def checkLimits : Option LimitsLayer → Except InvalidSetting Unit
  | none => .ok ()
  | some l => l.check

def GlobalLayer.check (l : GlobalLayer) : Except InvalidSetting Unit := checkLimits l.limits?

def ProjectLayer.check (l : ProjectLayer) : Except InvalidSetting Unit := checkLimits l.limits?

end ScriptEngine.Config
