import ScriptEngine.Config.Settings
import Mathlib.Data.List.Induction

/-!
# What rows of layers settle

Layers are merged in a row, each over what the ones before it left.  What a row settles
about one member is the value that was set last, and a layer that leaves the member open
has no say.  The limits, the modules and a project's budget follow this law.  A user's
budget follows it for whole sections only: the last scheduling section that stands
decides, also where it leaves the budget open.
-/

namespace ScriptEngine

namespace Config

/-- The last value that is set in a row. -/
def lastSet {α : Type} (values : List (Option α)) : Option α := (values.filterMap id).getLast?

section Rows

variable {α σ layer : Type}

theorem lastSet_append (before after : List (Option α)) :
    lastSet (before ++ after) = (lastSet after).or (lastSet before) := by
  simp [lastSet, List.getLast?_append]

@[simp] theorem lastSet_singleton (value : Option α) : lastSet [value] = value := by
  cases value with
  | none => rfl
  | some v => rfl

theorem lastSet_cons (value : Option α) (after : List (Option α)) :
    lastSet (value :: after) = (lastSet after).or value := by
  simpa using lastSet_append [value] after

/-- A member that merging settles on its own. -/
structure SettledAlone (merge : σ → σ → σ) (member : σ → Option α) : Prop where
  merged : ∀ under top, member (merge under top) = (member top).or (member under)

theorem SettledAlone.foldl {merge : layer → layer → layer} {member : layer → Option α}
    (hmember : SettledAlone merge member) (start : layer) (layers : List layer) :
    member (layers.foldl merge start) = (lastSet (layers.map member)).or (member start) := by
  induction layers generalizing start with
  | nil => simp [lastSet]
  | cons top rest ih =>
    simp [ih, hmember.merged, lastSet_cons, Option.or_assoc]

theorem SettledAlone.of_open {merge : layer → layer → layer} {member : layer → Option α}
    (hmember : SettledAlone merge member) {start : layer} (hopen : member start = none)
    (layers : List layer) :
    member (layers.foldl merge start) = lastSet (layers.map member) := by
  rw [hmember.foldl, hopen, Option.or_none]

/-- A member of a section is settled on its own where the section is merged. -/
theorem SettledAlone.inSection [Inhabited σ] {merge : σ → σ → σ} {member : σ → Option α}
    (hmember : SettledAlone merge member) (hopen : member default = none)
    {mergeLayer : layer → layer → layer} {part : layer → Option σ}
    (hpart : ∀ under top,
      part (mergeLayer under top) = mergeSection merge (part under) (part top)) :
    SettledAlone mergeLayer fun l => (part l).bind member := by
  refine ⟨fun under top => ?_⟩
  cases htop : part top with
  | none => simp [hpart, htop, mergeSection]
  | some t =>
    cases hunder : part under with
    | none => simp [hpart, htop, hunder, mergeSection, hmember.merged, hopen]
    | some u => simp [hpart, htop, hunder, mergeSection, hmember.merged]

end Rows

/-! ## The members of the layers -/

def GlobalLayer.limit? (member : LimitsLayer → Option Nat) (l : GlobalLayer) : Option Nat :=
  l.limits?.bind member

def GlobalLayer.budget? (l : GlobalLayer) : Option Nat := l.scheduling?.bind (·.autoYield?)

def ProjectLayer.limit? (member : LimitsLayer → Option Nat) (l : ProjectLayer) : Option Nat :=
  l.limits?.bind member

def ProjectLayer.budget? (l : ProjectLayer) : Option Nat := l.scheduling?.bind (·.autoYield?)

def ProjectLayer.module? (member : ModulesLayer → Option Bool) (l : ProjectLayer) : Option Bool :=
  l.modules?.bind member

/-- A row of a user's layers, the first one lowest. -/
def GlobalLayer.mergeAll (layers : List GlobalLayer) : GlobalLayer :=
  layers.foldl GlobalLayer.merge {}

/-- A row of a project's layers, the first one lowest. -/
def ProjectLayer.mergeAll (layers : List ProjectLayer) : ProjectLayer :=
  layers.foldl ProjectLayer.merge {}

theorem GlobalLayer.limit?_mergeAll {member : LimitsLayer → Option Nat}
    (hmember : SettledAlone LimitsLayer.merge member) (hopen : member default = none)
    (layers : List GlobalLayer) :
    (GlobalLayer.mergeAll layers).limit? member = lastSet (layers.map (·.limit? member)) := by
  have hsettled : SettledAlone GlobalLayer.merge (GlobalLayer.limit? member) :=
    hmember.inSection hopen fun _ _ => rfl
  exact hsettled.of_open rfl layers

theorem ProjectLayer.limit?_mergeAll {member : LimitsLayer → Option Nat}
    (hmember : SettledAlone LimitsLayer.merge member) (hopen : member default = none)
    (layers : List ProjectLayer) :
    (ProjectLayer.mergeAll layers).limit? member = lastSet (layers.map (·.limit? member)) := by
  have hsettled : SettledAlone ProjectLayer.merge (ProjectLayer.limit? member) :=
    hmember.inSection hopen fun _ _ => rfl
  exact hsettled.of_open rfl layers

theorem ProjectLayer.budget?_mergeAll (layers : List ProjectLayer) :
    (ProjectLayer.mergeAll layers).budget? = lastSet (layers.map (·.budget?)) := by
  have hmember : SettledAlone SchedulingLayer.merge (·.autoYield?) := ⟨fun _ _ => rfl⟩
  have hsettled : SettledAlone ProjectLayer.merge ProjectLayer.budget? :=
    hmember.inSection rfl fun _ _ => rfl
  exact hsettled.of_open rfl layers

theorem ProjectLayer.module?_mergeAll {member : ModulesLayer → Option Bool}
    (hmember : SettledAlone ModulesLayer.merge member) (hopen : member default = none)
    (layers : List ProjectLayer) :
    (ProjectLayer.mergeAll layers).module? member = lastSet (layers.map (·.module? member)) := by
  have hsettled : SettledAlone ProjectLayer.merge (ProjectLayer.module? member) :=
    hmember.inSection hopen fun _ _ => rfl
  exact hsettled.of_open rfl layers

/-- For a user the section as a whole is the member that is settled. -/
theorem GlobalLayer.scheduling?_mergeAll (layers : List GlobalLayer) :
    (GlobalLayer.mergeAll layers).scheduling? = lastSet (layers.map (·.scheduling?)) := by
  have hsettled : SettledAlone GlobalLayer.merge GlobalLayer.scheduling? := ⟨fun _ _ => rfl⟩
  exact hsettled.of_open rfl layers

end Config

/-! ## The settings -/

namespace Settings

open Config

theorem withLimits_eq (s : Settings) (l : Option LimitsLayer) :
    s.withLimits l =
      { s with
        maxCallDepth := (l.bind (·.maxCallDepth?)).getD s.maxCallDepth
        maxNativeNesting := (l.bind (·.maxNativeNesting?)).getD s.maxNativeNesting
        stackCapacity := (l.bind (·.stackCapacity?)).getD s.stackCapacity } := by
  cases l with
  | none => rfl
  | some l => rfl

theorem withModules_eq (s : Settings) (l : Option ModulesLayer) (hall : s.modules = {}) :
    s.withModules l =
      { s with
        modules :=
          ⟨(l.bind (·.base?)).getD true, (l.bind (·.table?)).getD true,
            (l.bind (·.coroutine?)).getD true⟩ } := by
  cases l with
  | none => simp [withModules, ← hall]
  | some l => simp [withModules]

/-- A budget of zero is none. -/
def budgetOf (budget : Option Nat) : Option Nat := budget.filter (0 < ·)

theorem withScheduling_eq (s : Settings) (l : Option SchedulingLayer) :
    s.withScheduling l =
      { s with
        autoYield? :=
          (l.bind (·.autoYield?)).elim s.autoYield? fun budget => budgetOf (some budget) } := by
  cases l with
  | none => rfl
  | some l => cases h : l.autoYield? <;> simp [withScheduling, h, budgetOf, Option.filter]

theorem elim_budgetOf (under top : Option Nat) :
    (top.elim (under.elim none fun budget => budgetOf (some budget)) fun budget =>
      budgetOf (some budget)) = budgetOf (top.or under) := by
  cases top with
  | some budget => rfl
  | none =>
    cases under with
    | none => rfl
    | some budget => rfl

/-- The project's values, else the user's, else the defaults. -/
theorem resolve_eq (global : GlobalLayer) (project : ProjectLayer) :
    resolve global project =
      { maxCallDepth :=
          ((project.limit? (·.maxCallDepth?)).or (global.limit? (·.maxCallDepth?))).getD 100000
        maxNativeNesting :=
          ((project.limit? (·.maxNativeNesting?)).or
            (global.limit? (·.maxNativeNesting?))).getD 200
        stackCapacity :=
          ((project.limit? (·.stackCapacity?)).or (global.limit? (·.stackCapacity?))).getD 1024
        autoYield? := budgetOf (project.budget?.or global.budget?)
        modules :=
          ⟨(project.module? (·.base?)).getD true, (project.module? (·.table?)).getD true,
            (project.module? (·.coroutine?)).getD true⟩ } := by
  rw [resolve, withModules_eq _ _ (by simp [withLimits_eq, withScheduling_eq])]
  simp [withLimits_eq, withScheduling_eq, elim_budgetOf, GlobalLayer.limit?, GlobalLayer.budget?,
    ProjectLayer.limit?, ProjectLayer.budget?, ProjectLayer.module?, Option.getD_or]

/-- The settings that are set last, all layers of the project coming after those of the user. -/
def lastOf (globals : List GlobalLayer) (projects : List ProjectLayer) : Settings :=
  let limit (member : LimitsLayer → Option Nat) : Option Nat :=
    lastSet (globals.map (·.limit? member) ++ projects.map (·.limit? member))
  let module (member : ModulesLayer → Option Bool) : Bool :=
    (lastSet (projects.map (·.module? member))).getD true
  { maxCallDepth := (limit (·.maxCallDepth?)).getD 100000
    maxNativeNesting := (limit (·.maxNativeNesting?)).getD 200
    stackCapacity := (limit (·.stackCapacity?)).getD 1024
    autoYield? := budgetOf (lastSet (globals.map (·.budget?) ++ projects.map (·.budget?)))
    modules := ⟨module (·.base?), module (·.table?), module (·.coroutine?)⟩ }

/-- The budget that is in force: the project's last one, else that of the user's last scheduling
section. -/
def budgetIn (globals : List GlobalLayer) (projects : List ProjectLayer) : Option Nat :=
  (lastSet (projects.map (·.budget?))).or
    ((lastSet (globals.map (·.scheduling?))).bind (·.autoYield?))

/-- The user's last scheduling section leaves the budget open, and so does the whole project. -/
def DropsBudget (globals : List GlobalLayer) (projects : List ProjectLayer) : Prop :=
  (∃ last, lastSet (globals.map (·.scheduling?)) = some last ∧ last.autoYield? = none) ∧
    lastSet (projects.map (·.budget?)) = none

/-- A section at the end of a row is the last one; without one the end has no say. -/
theorem lastSet_budgets_of_last (globals : List GlobalLayer)
    (hlast : ∀ last, lastSet (globals.map (·.scheduling?)) = some last → last.autoYield? ≠ none) :
    lastSet (globals.map (·.budget?)) =
      (lastSet (globals.map (·.scheduling?))).bind (·.autoYield?) := by
  induction globals using List.reverseRecOn with
  | nil => rfl
  | append_singleton before top ih =>
    simp only [List.map_append, List.map_cons, List.map_nil, lastSet_append,
      lastSet_singleton] at hlast ⊢
    cases hsection : top.scheduling? with
    | none =>
      simp only [hsection, Option.none_or] at hlast
      simp [GlobalLayer.budget?, hsection, ← ih hlast]
    | some last =>
      have hset : last.autoYield? ≠ none := hlast last (by simp [hsection])
      obtain ⟨budget, hbudget⟩ := Option.ne_none_iff_exists'.1 hset
      simp [GlobalLayer.budget?, hsection, hbudget]

theorem budgetIn_of_drops {globals : List GlobalLayer} {projects : List ProjectLayer}
    (h : DropsBudget globals projects) : budgetIn globals projects = none := by
  obtain ⟨⟨last, hlast, hunset⟩, hproject⟩ := h
  simp [budgetIn, hproject, hlast, hunset]

theorem budgetIn_of_not_drops {globals : List GlobalLayer} {projects : List ProjectLayer}
    (h : ¬ DropsBudget globals projects) :
    budgetIn globals projects =
      lastSet (globals.map (·.budget?) ++ projects.map (·.budget?)) := by
  rw [budgetIn, lastSet_append]
  cases hproject : lastSet (projects.map (·.budget?)) with
  | some budget => rfl
  | none =>
    rw [lastSet_budgets_of_last]
    intro last hlast hunset
    exact h ⟨⟨last, hlast, hunset⟩, hproject⟩

/-- What the rows settle is what they set last, in every member but the user's budget: there the
last section stands for all before it.  The two agree unless that section forgets a budget. -/
theorem resolve_mergeAll (globals : List GlobalLayer) (projects : List ProjectLayer) :
    resolve (.mergeAll globals) (.mergeAll projects) =
        { lastOf globals projects with autoYield? := budgetOf (budgetIn globals projects) } ∧
      (resolve (.mergeAll globals) (.mergeAll projects) = lastOf globals projects ↔
        (DropsBudget globals projects → (lastOf globals projects).autoYield? = none)) := by
  have heq : resolve (.mergeAll globals) (.mergeAll projects) =
      { lastOf globals projects with autoYield? := budgetOf (budgetIn globals projects) } := by
    have hbudget : ProjectLayer.budget? (.mergeAll projects) = lastSet (projects.map (·.budget?)) :=
      ProjectLayer.budget?_mergeAll projects
    have hsection := GlobalLayer.scheduling?_mergeAll globals
    have hlimit {member : LimitsLayer → Option Nat}
        (hmember : SettledAlone LimitsLayer.merge member)
        (hunset : member default = none) :
        (ProjectLayer.limit? member (.mergeAll projects)).or
            (GlobalLayer.limit? member (.mergeAll globals)) =
          lastSet (globals.map (·.limit? member) ++ projects.map (·.limit? member)) := by
      rw [ProjectLayer.limit?_mergeAll hmember hunset, GlobalLayer.limit?_mergeAll hmember hunset,
        lastSet_append]
    rw [resolve_eq, hlimit ⟨fun _ _ => rfl⟩ rfl, hlimit ⟨fun _ _ => rfl⟩ rfl,
      hlimit ⟨fun _ _ => rfl⟩ rfl, ProjectLayer.module?_mergeAll ⟨fun _ _ => rfl⟩ rfl,
      ProjectLayer.module?_mergeAll ⟨fun _ _ => rfl⟩ rfl,
      ProjectLayer.module?_mergeAll ⟨fun _ _ => rfl⟩ rfl, hbudget, GlobalLayer.budget?, hsection]
    rfl
  refine ⟨heq, ?_⟩
  rw [heq]
  by_cases hdrops : DropsBudget globals projects
  · rw [budgetIn_of_drops hdrops]
    constructor
    · intro hsame _
      exact (congrArg Settings.autoYield? hsame).symm
    · intro hnone
      have hbudget : budgetOf none = (lastOf globals projects).autoYield? := (hnone hdrops).symm
      rw [hbudget]
  · simp only [budgetIn_of_not_drops hdrops, hdrops, false_implies, iff_true]
    rfl

/-- A section that sets nothing takes the budget of an earlier layer away. -/
theorem forgets_budget :
    resolve (.mergeAll [{ scheduling? := some { autoYield? := some 10 } },
        { scheduling? := some {} }]) (.mergeAll []) ≠
      lastOf
        [{ scheduling? := some { autoYield? := some 10 } }, { scheduling? := some {} }] [] := by
  decide

end Settings

end ScriptEngine
