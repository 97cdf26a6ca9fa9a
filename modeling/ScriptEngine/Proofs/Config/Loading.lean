import ScriptEngine.Proofs.Config.Consultation

/-!
# What loading settles

The settings that are loaded are those of the environment, over the nearest project's,
over the user's, over the defaults.  Loading goes through exactly when every layer that
is consulted can be read, keeps to the ranges, and every variable that is set makes
sense; a fault is never passed over for a lower layer.
-/

namespace ScriptEngine.Config

/-! ## The project's layer with the variables on top -/

theorem ProjectLayer.limit?_merge {member : LimitsLayer → Option Nat}
    (hmember : SettledAlone LimitsLayer.merge member) (hopen : member default = none)
    (under top : ProjectLayer) :
    (under.merge top).limit? member = (top.limit? member).or (under.limit? member) := by
  have hsettled : SettledAlone ProjectLayer.merge (ProjectLayer.limit? member) :=
    hmember.inSection hopen fun _ _ => rfl
  exact hsettled.merged under top

theorem ProjectLayer.budget?_merge (under top : ProjectLayer) :
    (under.merge top).budget? = top.budget?.or under.budget? := by
  have hmember : SettledAlone SchedulingLayer.merge (·.autoYield?) := ⟨fun _ _ => rfl⟩
  have hsettled : SettledAlone ProjectLayer.merge ProjectLayer.budget? :=
    hmember.inSection rfl fun _ _ => rfl
  exact hsettled.merged under top

theorem ProjectLayer.module?_merge {member : ModulesLayer → Option Bool}
    (hmember : SettledAlone ModulesLayer.merge member) (hopen : member default = none)
    (under top : ProjectLayer) :
    (under.merge top).module? member = (top.module? member).or (under.module? member) := by
  have hsettled : SettledAlone ProjectLayer.merge (ProjectLayer.module? member) :=
    hmember.inSection hopen fun _ _ => rfl
  exact hsettled.merged under top

section Given

variable (depth nesting budget : Option Nat) (modules : Option ModulesLayer)

@[simp] theorem ProjectLayer.depth_ofGiven :
    (ofGiven depth nesting budget modules).limit? (·.maxCallDepth?) = depth := by
  cases depth <;> cases nesting <;> rfl

@[simp] theorem ProjectLayer.nesting_ofGiven :
    (ofGiven depth nesting budget modules).limit? (·.maxNativeNesting?) = nesting := by
  cases depth <;> cases nesting <;> rfl

@[simp] theorem ProjectLayer.capacity_ofGiven :
    (ofGiven depth nesting budget modules).limit? (·.stackCapacity?) = none := by
  cases depth <;> cases nesting <;> rfl

@[simp] theorem ProjectLayer.budget?_ofGiven :
    (ofGiven depth nesting budget modules).budget? = budget := by
  cases budget <;> rfl

end Given

/-- The limits that the variables set are in range. -/
def Sources.VariablesInRange (s : Sources) : Prop :=
  (∀ n, s.number? "MAX_CALL_DEPTH" = some n → DepthInRange n) ∧
    ∀ n, s.number? "MAX_NATIVE_NESTING" = some n → NestingInRange n

/-- Over a layer that is in range it is the variables alone that can be out of range. -/
theorem limitsInRange_merge_iff {s : Sources} {project : ProjectLayer}
    (hproject : LimitsInRange project.limit?) :
    LimitsInRange (project.merge s.overrides).limit? ↔ s.VariablesInRange := by
  have hover : ∀ {P : Nat → Prop} {under : Option Nat} (top : Option Nat),
      (∀ n, under = some n → P n) →
        ((∀ n, top.or under = some n → P n) ↔ ∀ n, top = some n → P n) := by
    intro P under top hunder
    cases top with
    | none => simpa using hunder
    | some n => simp
  have hdepth : (project.merge s.overrides).limit? (·.maxCallDepth?) =
      (s.number? "MAX_CALL_DEPTH").or (project.limit? (·.maxCallDepth?)) := by
    rw [ProjectLayer.limit?_merge ⟨fun _ _ => rfl⟩ rfl, Sources.overrides,
      ProjectLayer.depth_ofGiven]
  have hnesting : (project.merge s.overrides).limit? (·.maxNativeNesting?) =
      (s.number? "MAX_NATIVE_NESTING").or (project.limit? (·.maxNativeNesting?)) := by
    rw [ProjectLayer.limit?_merge ⟨fun _ _ => rfl⟩ rfl, Sources.overrides,
      ProjectLayer.nesting_ofGiven]
  simp only [LimitsInRange, Sources.VariablesInRange, hdepth, hnesting]
  rw [hover _ hproject.1, hover _ hproject.2]

theorem withEnvironment_eq_ok_iff {s : Sources} {project merged : ProjectLayer}
    (hproject : LimitsInRange project.limit?) :
    withEnvironment s.application s.environment project = .ok merged ↔
      s.VariablesMakeSense ∧ s.VariablesInRange ∧ merged = project.merge s.overrides := by
  have hlayer := gives_environmentLayer s
  rw [← limitsInRange_merge_iff hproject, ← ProjectLayer.check_eq_ok_iff, withEnvironment]
  by_cases hsense : s.VariablesMakeSense
  · rw [hlayer.ok hsense]
    cases hcheck : (project.merge s.overrides).check with
    | error e => simp [hcheck]
    | ok done => simp [hcheck, hsense, @eq_comm _ merged]
  · obtain ⟨e, he⟩ := hlayer.error hsense
    simp [he, hsense]

/-! ## Loading -/

namespace Sources

variable {s : Sources}

def HasProject (s : Sources) (directory : List String) : Prop :=
  s.tree.presentAt (directory ++ [s.application.projectFile]) = true

/-- The project that the path of a directory leads to is the nearest one along the path.  That is
the nearest at or above the directory if the path only goes down; and also if the directory is there
and what is found lies at or above it.  From the working directory the search goes no further up
than that, so a project above it is not found; an absolute path is searched up to the top. -/
structure LeadsTo (s : Sources) (path : FilePath) (root? : Option (List String)) : Prop where
  within : ∀ root, root? = some root → s.tree.startOf path <+: root
  along : IsNearest (s.tree.startOf path) s.HasProject (s.tree.fullNames path) root?
  down : ".." ∉ s.tree.fullNames path →
    IsNearest (s.tree.startOf path) s.HasProject (placeOf (s.tree.fullNames path)) root?
  there : s.tree.find path = .directory →
    (∀ root, root? = some root → placeOf root <+: placeOf (s.tree.fullNames path)) →
      ∀ passed, s.tree.startOf path <+: passed → passed <+: s.tree.fullNames path →
        IsNearest (placeOf passed) s.HasProject (placeOf (s.tree.fullNames path))
          (root?.map placeOf)

theorem leadsTo_of_nearest {path : FilePath} {root? : Option (List String)}
    (hwithin : ∀ root, root? = some root → s.tree.startOf path <+: root)
    (hnearest : IsNearest (s.tree.startOf path) s.HasProject (s.tree.fullNames path) root?) :
    s.LeadsTo path root? where
  within := hwithin
  along := hnearest
  down hdown := by rwa [placeOf_eq_self hdown]
  there hthere habove _ hfrom hpassed := hnearest.ofPresent hthere habove hfrom hpassed

/-- The file of the project that a start leads to, by its names from the top. -/
def Consults (s : Sources) : Start → Option (List String) → Prop
  | .file path, file? => file? = some (s.tree.fullNames path)
  | .directory path, file? =>
    ∃ root?, file? = root?.map (· ++ [s.application.projectFile]) ∧ s.LeadsTo path root?

theorem bind_eq_ok_iff {ε α β : Type} {x : Except ε α} {f : α → Except ε β} {b : β} :
    x >>= f = .ok b ↔ ∃ a, x = .ok a ∧ f a = .ok b := by
  cases x with
  | error e => simp [bind, Except.bind]
  | ok a => simp [bind, Except.bind]

/-- The layers as they are consulted, with nothing at fault: both can be read and are in range, and
so are the variables. -/
structure Layers (s : Sources) (file? : Option (List String)) (ofProject : ProjectLayer)
    (ofUser : GlobalLayer) : Prop where
  project : s.decoders.HoldsProject s.tree file? ofProject
  projectInRange : LimitsInRange ofProject.limit?
  global : s.decoders.HoldsGlobal s.tree s.globalPath? ofUser
  globalInRange : LimitsInRange ofUser.limit?
  sense : s.VariablesMakeSense
  range : s.VariablesInRange

/-- What follows once the project's layer has been read. -/
theorem withGlobal_eq_ok_iff {file? : Option (List String)} {root? : Option FilePath}
    {project : ProjectLayer} {loaded : Loaded}
    (hproject : s.decoders.HoldsProject s.tree file? project)
    (hrange : LimitsInRange project.limit?) :
    (do
        let global ← s.decoders.readGlobalIfPresent s.tree s.globalPath?
        let project ← withEnvironment s.application s.environment project
        pure ⟨project, global, root?⟩ : Except LoadError Loaded) = .ok loaded ↔
      ∃ global, s.Layers file? project global ∧
        loaded = ⟨project.merge s.overrides, global, root?⟩ := by
  simp only [bind_eq_ok_iff, Decoders.readGlobalIfPresent_eq_ok_iff,
    withEnvironment_eq_ok_iff hrange]
  constructor
  · rintro ⟨global, ⟨hglobal, hglobalRange⟩, _, ⟨hsense, hvariables, rfl⟩, hloaded⟩
    exact ⟨global, ⟨hproject, hrange, hglobal, hglobalRange, hsense, hvariables⟩,
      (Except.ok.inj hloaded).symm⟩
  · rintro ⟨global, h, rfl⟩
    exact ⟨global, ⟨h.global, h.globalInRange⟩, _, ⟨h.sense, h.range, rfl⟩, rfl⟩

/-- Loading goes through with the layers that are consulted, and with nothing else. -/
theorem load_eq_ok_iff (s : Sources) (start : Start) :
    ∃ file? root?, s.Consults start file? ∧ ∀ loaded, s.load start = .ok loaded ↔
      ∃ project global, s.Layers file? project global ∧
        loaded = ⟨project.merge s.overrides, global, root?⟩ := by
  cases start with
  | file path =>
    refine ⟨some (s.tree.fullNames path), path.parent?, rfl, fun loaded => ?_⟩
    rw [load, loadFromFile, bind_eq_ok_iff]
    constructor
    · rintro ⟨project, hread, hrest⟩
      obtain ⟨hproject, hrange⟩ := Decoders.readProject_eq_ok_iff.mp hread
      exact ⟨project, (withGlobal_eq_ok_iff hproject hrange).mp hrest⟩
    · rintro ⟨project, global, h, hloaded⟩
      exact ⟨project, Decoders.readProject_eq_ok_iff.mpr ⟨h.project, h.projectInRange⟩,
        (withGlobal_eq_ok_iff h.project h.projectInRange).mpr ⟨global, h, hloaded⟩⟩
  | directory path =>
    obtain ⟨root?, hwithin, hnearest, written?, hfound⟩ := Decoders.findProject_eq_ok_iff
      s.decoders s.application s.tree path.absolute path.names.reverse
    rw [List.reverse_reverse] at hnearest
    refine ⟨_, written?, ⟨root?, rfl, leadsTo_of_nearest hwithin hnearest⟩, fun loaded => ?_⟩
    rw [load, loadFromDirectory, bind_eq_ok_iff]
    constructor
    · rintro ⟨⟨found?, project⟩, hread, hrest⟩
      obtain ⟨hproject, hrange, rfl⟩ := (hfound found? project).mp hread
      exact ⟨project, (withGlobal_eq_ok_iff hproject hrange).mp hrest⟩
    · rintro ⟨project, global, h, hloaded⟩
      exact ⟨(written?, project), (hfound written? project).mpr ⟨h.project, h.projectInRange, rfl⟩,
        (withGlobal_eq_ok_iff h.project h.projectInRange).mpr ⟨global, h, hloaded⟩⟩

/-! ## The law of loading -/

/-- What the layers come to: every setting has the value of its variable, else the project's, else
the user's, else the default. -/
def precedence (s : Sources) (project : ProjectLayer) (global : GlobalLayer) : Settings :=
  let limit (given? : Option Nat) (member : LimitsLayer → Option Nat) : Option Nat :=
    given?.or ((project.limit? member).or (global.limit? member))
  let module (member : ModulesLayer → Option Bool) : Bool :=
    ((s.modules?.bind member).or (project.module? member)).getD true
  { maxCallDepth := (limit (s.number? "MAX_CALL_DEPTH") (·.maxCallDepth?)).getD 100000
    maxNativeNesting := (limit (s.number? "MAX_NATIVE_NESTING") (·.maxNativeNesting?)).getD 200
    stackCapacity := (limit none (·.stackCapacity?)).getD 1024
    autoYield? := Settings.budgetOf
      ((s.number? "AUTO_YIELD").or (project.budget?.or global.budget?))
    modules := ⟨module (·.base?), module (·.table?), module (·.coroutine?)⟩ }

theorem resolve_merge_overrides (s : Sources) (project : ProjectLayer) (global : GlobalLayer) :
    Settings.resolve global (project.merge s.overrides) = s.precedence project global := by
  have hlimit {member : LimitsLayer → Option Nat}
      (hmember : SettledAlone LimitsLayer.merge member) (hopen : member default = none) :
      (project.merge s.overrides).limit? member =
        (s.overrides.limit? member).or (project.limit? member) :=
    ProjectLayer.limit?_merge hmember hopen _ _
  have hmodule {member : ModulesLayer → Option Bool}
      (hmember : SettledAlone ModulesLayer.merge member) (hopen : member default = none) :
      (project.merge s.overrides).module? member =
        (s.modules?.bind member).or (project.module? member) :=
    ProjectLayer.module?_merge hmember hopen _ _
  rw [Settings.resolve_eq, hlimit ⟨fun _ _ => rfl⟩ rfl, hlimit ⟨fun _ _ => rfl⟩ rfl,
    hlimit ⟨fun _ _ => rfl⟩ rfl, hmodule ⟨fun _ _ => rfl⟩ rfl, hmodule ⟨fun _ _ => rfl⟩ rfl,
    hmodule ⟨fun _ _ => rfl⟩ rfl, ProjectLayer.budget?_merge]
  simp only [overrides, ProjectLayer.depth_ofGiven, ProjectLayer.nesting_ofGiven,
    ProjectLayer.capacity_ofGiven, ProjectLayer.budget?_ofGiven, Option.or_assoc]
  rfl

/-- Limits that an engine may be made with, and no budget of zero. -/
structure InRange (settings : Settings) : Prop where
  depth : DepthInRange settings.maxCallDepth
  nesting : NestingInRange settings.maxNativeNesting
  budget : settings.autoYield? ≠ some 0

theorem inRange_precedence {file? : Option (List String)} {project : ProjectLayer}
    {global : GlobalLayer}
    (h : s.Layers file? project global) : InRange (s.precedence project global) := by
  have hgetD : ∀ {P : Nat → Prop} {top middle under : Option Nat} {last : Nat},
      (∀ n, top = some n → P n) → (∀ n, middle = some n → P n) → (∀ n, under = some n → P n) →
        P last → P ((top.or (middle.or under)).getD last) := by
    intro P top middle under last htop hmiddle hunder hlast
    cases top with
    | some n => exact htop n rfl
    | none =>
      cases middle with
      | some n => exact hmiddle n rfl
      | none =>
        cases under with
        | some n => exact hunder n rfl
        | none => exact hlast
  constructor
  · exact hgetD h.range.1 h.projectInRange.1 h.globalInRange.1
      (by simp [DepthInRange, callDepthLimit])
  · exact hgetD h.range.2 h.projectInRange.2 h.globalInRange.2
      (by simp [NestingInRange, nativeNestingLimit])
  · simp [precedence, Settings.budgetOf, Option.filter_eq_some_iff]

/-- A layer that is consulted is out of range, or a variable cannot be read or is out of range. -/
def Faulty (s : Sources) (file? : Option (List String)) : Prop :=
  (∃ project, s.decoders.HoldsProject s.tree file? project ∧ ¬ LimitsInRange project.limit?) ∨
    (∃ global, s.decoders.HoldsGlobal s.tree s.globalPath? global ∧
      ¬ LimitsInRange global.limit?) ∨
    ¬ s.VariablesMakeSense ∨ ¬ s.VariablesInRange

theorem Layers.not_faulty {file? : Option (List String)} {project : ProjectLayer}
    {global : GlobalLayer} (h : s.Layers file? project global) : ¬ s.Faulty file? := by
  rintro (⟨project', hproject', hbad⟩ | ⟨global', hglobal', hbad⟩ | hbad | hbad)
  · exact hbad (h.project.unique hproject' ▸ h.projectInRange)
  · exact hbad (h.global.unique hglobal' ▸ h.globalInRange)
  · exact hbad h.sense
  · exact hbad h.range

/-- Whatever is loaded has the settings that the precedence of the consulted layers asks for, in
range.  If one of these layers is at fault nothing is loaded, and if they are all in order something
is. -/
theorem load_settles (s : Sources) (start : Start) :
    ∃ file?, s.Consults start file? ∧
      (∀ loaded, s.load start = .ok loaded → ∃ project global,
        s.Layers file? project global ∧ loaded.settings = s.precedence project global ∧
          InRange loaded.settings) ∧
      (s.Faulty file? → ∃ e, s.load start = .error e) ∧
      (∀ project global, s.Layers file? project global → ∃ loaded, s.load start = .ok loaded) := by
  obtain ⟨file?, root?, hconsults, hloads⟩ := load_eq_ok_iff s start
  refine ⟨file?, hconsults, ?_, ?_, ?_⟩
  · intro loaded hloaded
    obtain ⟨project, global, hlayers, rfl⟩ := (hloads loaded).mp hloaded
    have hsettings : Settings.resolve global (project.merge s.overrides) =
        s.precedence project global :=
      resolve_merge_overrides s project global
    refine ⟨project, global, hlayers, hsettings, ?_⟩
    rw [Loaded.settings, hsettings]
    exact inRange_precedence hlayers
  · intro hfaulty
    cases hload : s.load start with
    | error e => exact ⟨e, rfl⟩
    | ok loaded =>
      obtain ⟨project, global, hlayers, -⟩ := (hloads loaded).mp hload
      exact absurd hfaulty hlayers.not_faulty
  · intro project global hlayers
    exact ⟨_, (hloads _).mpr ⟨project, global, hlayers, rfl⟩⟩

/-- A directory that holds a project and nothing else. -/
def inner : Sources where
  application := ⟨"engine"⟩
  tree := ⟨[(["inner", "engine.toml"], "[vm]\nmax_call_depth = 5\n")], [], []⟩
  environment := []
  globalPath? := some ⟨true, ["global.toml"]⟩

/-- The directory above has no project at or above it.  Under the name that leads to it through the
one below, the project below is found and its settings are loaded. -/
theorem strays_below :
    inner.tree.find ⟨true, ["inner", ".."]⟩ = .directory ∧
      IsNearest [] inner.HasProject (placeOf ["inner", ".."]) none ∧
      inner.decoders.HoldsGlobal inner.tree inner.globalPath? {} ∧
      ∃ loaded, inner.load (.directory ⟨true, ["inner", ".."]⟩) = .ok loaded ∧
        loaded.settings ≠ inner.precedence {} {} := by
  have hload : inner.load (.directory ⟨true, ["inner", ".."]⟩) =
      .ok ⟨{ limits? := some { maxCallDepth? := some 5 } }, {}, some ⟨true, ["inner"]⟩⟩ := by
    decide +kernel
  have habsent : inner.tree.present ⟨true, ["global.toml"]⟩ = false := by decide +kernel
  refine ⟨by decide +kernel, ?_, ?_, _, hload, by decide +kernel⟩
  · intro other _ hle
    obtain rfl := List.prefix_nil.mp hle
    have hnone : inner.tree.presentAt [inner.application.projectFile] = false := by
      decide +kernel
    simp [HasProject, hnone]
  · simp [inner, Decoders.HoldsGlobal] at habsent ⊢
    simp [habsent]

end Sources

end ScriptEngine.Config
