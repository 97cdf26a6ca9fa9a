import ScriptEngine.Config.Loader
import ScriptEngine.Proofs.Config.Places
import ScriptEngine.Proofs.Config.Resolution

/-!
# What is consulted

What the files and the variables say on their own: which layer a file holds, which
numbers and modules the variables give, and when reading them goes through.  The search
for a project reads the nearest file along a path.
-/

namespace ScriptEngine.Config

/-! ## Ranges -/

def DepthInRange (n : Nat) : Prop := 1 ≤ n ∧ n ≤ callDepthLimit

def NestingInRange (n : Nat) : Prop := 1 ≤ n ∧ n ≤ nativeNestingLimit

/-- The limits that are set are in range. -/
def LimitsInRange (limit? : (LimitsLayer → Option Nat) → Option Nat) : Prop :=
  (∀ n, limit? (·.maxCallDepth?) = some n → DepthInRange n) ∧
    ∀ n, limit? (·.maxNativeNesting?) = some n → NestingInRange n

theorem checkRange_eq_ok_iff (setting : String) (low high : Nat) (value? : Option Nat) :
    checkRange setting low high value? = .ok () ↔ ∀ n, value? = some n → low ≤ n ∧ n ≤ high := by
  cases value? with
  | none => simp [checkRange]
  | some value =>
    simp only [checkRange, Option.some.injEq, forall_eq', Bool.or_eq_true, decide_eq_true_eq]
    by_cases hout : value < low ∨ high < value
    · simp only [hout, if_true, reduceCtorEq, false_iff]
      omega
    · simp only [hout, if_false, true_iff]
      omega

theorem LimitsLayer.check_eq_ok_iff {l : LimitsLayer} :
    l.check = .ok () ↔ LimitsInRange fun member => member l := by
  have hdepth := checkRange_eq_ok_iff "vm.max_call_depth" 1 callDepthLimit l.maxCallDepth?
  have hnesting :=
    checkRange_eq_ok_iff "vm.max_native_nesting" 1 nativeNestingLimit l.maxNativeNesting?
  unfold LimitsLayer.check LimitsInRange DepthInRange NestingInRange
  rw [← hdepth, ← hnesting]
  cases checkRange "vm.max_call_depth" 1 callDepthLimit l.maxCallDepth? with
  | error e => simp
  | ok done => simp

theorem checkLimits_eq_ok_iff {l? : Option LimitsLayer} :
    checkLimits l? = .ok () ↔ LimitsInRange fun member => l?.bind member := by
  cases l? with
  | none => simp [checkLimits, LimitsInRange]
  | some l => exact LimitsLayer.check_eq_ok_iff

theorem GlobalLayer.check_eq_ok_iff {l : GlobalLayer} :
    l.check = .ok () ↔ LimitsInRange l.limit? :=
  checkLimits_eq_ok_iff

theorem ProjectLayer.check_eq_ok_iff {l : ProjectLayer} :
    l.check = .ok () ↔ LimitsInRange l.limit? :=
  checkLimits_eq_ok_iff

/-! ## Files -/

/-- The layer that a file holds. -/
def HoldsLayer {α : Type} (ofText? : String → Option α) (tree : FileTree) (names : List String)
    (layer : α) : Prop :=
  ∃ text, tree.follow [] names = .file text ∧ ofText? text = some layer

theorem readLayer_eq_ok_iff {α : Type} {ofText? : String → Option α}
    {check : α → Except InvalidSetting Unit} {tree : FileTree} {path : FilePath} {layer : α} :
    readLayer ofText? check tree path = .ok layer ↔
      HoldsLayer ofText? tree (tree.fullNames path) layer ∧ check layer = .ok () := by
  unfold readLayer HoldsLayer
  rw [FileTree.find]
  cases hfind : tree.follow [] (tree.fullNames path) with
  | file text =>
    cases hlayer : ofText? text with
    | none => simp [hlayer]
    | some found =>
      cases hcheck : check found with
      | error e =>
        simp only [hlayer, hcheck, reduceCtorEq, FileLookup.file.injEq, exists_eq_left',
          Option.some.injEq, false_iff, not_and]
        rintro rfl
        simp [hcheck]
      | ok done =>
        simp only [hlayer, hcheck, Except.ok.injEq, FileLookup.file.injEq, exists_eq_left',
          Option.some.injEq]
        constructor
        · rintro rfl
          exact ⟨rfl, hcheck⟩
        · exact fun h => h.1
  | _ => simp

theorem HoldsLayer.unique {α : Type} {ofText? : String → Option α} {tree : FileTree}
    {names : List String} {layer layer' : α} (h : HoldsLayer ofText? tree names layer)
    (h' : HoldsLayer ofText? tree names layer') : layer = layer' := by
  obtain ⟨text, hfind, hlayer⟩ := h
  obtain ⟨text', hfind', hlayer'⟩ := h'
  obtain rfl : text = text' := by simpa [hfind] using hfind'
  simpa [hlayer] using hlayer'

namespace FileTree

theorem fullNames_start (tree : FileTree) (absolute : Bool) :
    tree.fullNames ⟨absolute, []⟩ = tree.startOf ⟨absolute, []⟩ := by
  rw [fullNames, List.append_nil]

theorem fullNames_concat (tree : FileTree) (absolute : Bool) (names : List String)
    (name : String) :
    tree.fullNames ⟨absolute, names ++ [name]⟩ = tree.fullNames ⟨absolute, names⟩ ++ [name] := by
  rw [fullNames, fullNames, List.append_assoc]
  rfl

theorem fullNames_join (tree : FileTree) (path : FilePath) (name : String) :
    tree.fullNames (path.join name) = tree.fullNames path ++ [name] :=
  fullNames_concat tree path.absolute path.names name

end FileTree

namespace Decoders

variable (d : Decoders)

/-- The project's layer is what its file holds; without a file it is empty. -/
def HoldsProject (tree : FileTree) (file? : Option (List String)) (layer : ProjectLayer) : Prop :=
  match file? with
  | none => layer = {}
  | some file => HoldsLayer d.project? tree file layer

/-- The user's layer is what the file holds if it is there. -/
def HoldsGlobal (tree : FileTree) (file? : Option FilePath) (layer : GlobalLayer) : Prop :=
  match file? with
  | none => layer = {}
  | some file =>
    if tree.present file = true then HoldsLayer d.global? tree (tree.fullNames file) layer
    else layer = {}

variable {d : Decoders}

theorem readProject_eq_ok_iff {tree : FileTree} {file : FilePath} {layer : ProjectLayer} :
    d.readProject tree file = .ok layer ↔
      d.HoldsProject tree (some (tree.fullNames file)) layer ∧ LimitsInRange layer.limit? := by
  rw [readProject, readLayer_eq_ok_iff, ProjectLayer.check_eq_ok_iff]
  rfl

theorem readGlobalIfPresent_eq_ok_iff {tree : FileTree} {file? : Option FilePath}
    {layer : GlobalLayer} :
    d.readGlobalIfPresent tree file? = .ok layer ↔
      d.HoldsGlobal tree file? layer ∧ LimitsInRange layer.limit? := by
  have hopen : Except.ok (ε := LoadError) {} = .ok layer ↔
      layer = {} ∧ LimitsInRange layer.limit? := by
    constructor
    · intro h
      obtain rfl : {} = layer := by simpa using h
      exact ⟨rfl, by simp [LimitsInRange, GlobalLayer.limit?]⟩
    · rintro ⟨rfl, -⟩
      rfl
  cases file? with
  | none => exact hopen
  | some file =>
    simp only [readGlobalIfPresent, HoldsGlobal]
    split
    · rw [readGlobal, readLayer_eq_ok_iff, GlobalLayer.check_eq_ok_iff]
    · exact hopen

theorem HoldsProject.unique {tree : FileTree} {file? : Option (List String)}
    {layer layer' : ProjectLayer} (h : d.HoldsProject tree file? layer)
    (h' : d.HoldsProject tree file? layer') : layer = layer' := by
  cases file? with
  | none => exact Eq.trans h h'.symm
  | some file => exact HoldsLayer.unique h h'

theorem HoldsGlobal.unique {tree : FileTree} {file? : Option FilePath} {layer layer' : GlobalLayer}
    (h : d.HoldsGlobal tree file? layer) (h' : d.HoldsGlobal tree file? layer') :
    layer = layer' := by
  cases file? with
  | none => exact Eq.trans h h'.symm
  | some file =>
    simp only [HoldsGlobal] at h h'
    split at h
    · next hpresent =>
      rw [if_pos hpresent] at h'
      exact HoldsLayer.unique h h'
    · next habsent =>
      rw [if_neg habsent] at h'
      exact h.trans h'.symm

/-- What is found without a project is the empty layer. -/
theorem withoutProject_eq_ok_iff {tree : FileTree} {found? : Option FilePath}
    {layer : ProjectLayer} :
    Except.ok (ε := LoadError) (none, {}) = .ok (found?, layer) ↔
      d.HoldsProject tree none layer ∧ LimitsInRange layer.limit? ∧ found? = none := by
  simp only [Except.ok.injEq, Prod.mk.injEq, HoldsProject]
  constructor
  · rintro ⟨rfl, rfl⟩
    exact ⟨rfl, by simp [LimitsInRange, ProjectLayer.limit?], rfl⟩
  · rintro ⟨rfl, -, rfl⟩
    exact ⟨rfl, rfl⟩

/-- What is found with a project in a directory is the layer that its file holds. -/
theorem readFound_eq_ok_iff {tree : FileTree} {directory : FilePath} {name : String}
    {found? : Option FilePath} {layer : ProjectLayer} :
    (d.readProject tree (directory.join name)).map (fun layer => (some directory, layer)) =
        .ok (found?, layer) ↔
      d.HoldsProject tree (some (tree.fullNames directory ++ [name])) layer ∧
        LimitsInRange layer.limit? ∧ found? = some directory := by
  rw [← FileTree.fullNames_join, ← and_assoc, ← readProject_eq_ok_iff]
  cases d.readProject tree (directory.join name) with
  | error e => simp [Except.map]
  | ok held => simp [Except.map, and_comm, @eq_comm _ found?]

/-- The search for a project gives the nearest one along the path, and its layer. -/
theorem findProject_eq_ok_iff (d : Decoders) (a : Application) (tree : FileTree) (absolute : Bool)
    (names : List String) :
    ∃ root? : Option (List String),
      (∀ root, root? = some root → tree.startOf ⟨absolute, []⟩ <+: root) ∧
      IsNearest (tree.startOf ⟨absolute, []⟩)
        (fun directory => tree.presentAt (directory ++ [a.projectFile]) = true)
        (tree.fullNames ⟨absolute, names.reverse⟩) root? ∧
      ∃ written? : Option FilePath, ∀ found? layer,
        d.findProject a tree absolute names = .ok (found?, layer) ↔
          d.HoldsProject tree (root?.map (· ++ [a.projectFile])) layer ∧
            LimitsInRange layer.limit? ∧ found? = written? := by
  -- Up the written path, one name at a time.
  induction names with
  | nil =>
    rw [findProject, FileTree.present_eq_presentAt, FileTree.fullNames_join, List.reverse_nil,
      FileTree.fullNames_start]
    by_cases hpresent :
        tree.presentAt (tree.startOf ⟨absolute, []⟩ ++ [a.projectFile]) = true
    · refine ⟨some (tree.startOf ⟨absolute, []⟩), ?_, isNearest_self hpresent,
        some ⟨absolute, []⟩, fun found? layer => ?_⟩
      · rintro root ⟨⟩
        exact List.prefix_rfl
      · rw [if_pos hpresent, readFound_eq_ok_iff, FileTree.fullNames_start]
        rfl
    · refine ⟨none, by simp, isNearest_none hpresent, none, fun found? layer => ?_⟩
      rw [if_neg hpresent, withoutProject_eq_ok_iff]
      rfl
  | cons name above ih =>
    rw [findProject, FileTree.present_eq_presentAt, FileTree.fullNames_join]
    by_cases hpresent : tree.presentAt
        (tree.fullNames ⟨absolute, (name :: above).reverse⟩ ++ [a.projectFile]) = true
    · refine ⟨some (tree.fullNames ⟨absolute, (name :: above).reverse⟩), ?_,
        isNearest_self hpresent, some ⟨absolute, (name :: above).reverse⟩, fun found? layer => ?_⟩
      · rintro root ⟨⟩
        exact List.prefix_append _ _
      · rw [if_pos hpresent, readFound_eq_ok_iff]
        rfl
    · obtain ⟨root?, hwithin, hnearest, written?, hfound⟩ := ih
      rw [List.reverse_cons, FileTree.fullNames_concat] at hpresent ⊢
      refine ⟨root?, hwithin, hnearest.below hpresent, written?, fun found? layer => ?_⟩
      rw [if_neg hpresent]
      exact hfound found? layer

end Decoders

/-! ## Variables -/

/-- A computation that goes through exactly under a condition, and then with a known result. -/
structure Gives {ε α : Type} (x : Except ε α) (condition : Prop) (value : α) : Prop where
  ok : condition → x = .ok value
  error : ¬ condition → ∃ e, x = .error e

namespace Gives

variable {ε α β : Type} {x : Except ε α} {p q : Prop} {a : α} {b : β}

theorem bind {f : α → Except ε β} (hx : Gives x p a) (hf : Gives (f a) q b) :
    Gives (x >>= f) (p ∧ q) b := by
  constructor
  · rintro ⟨hp, hq⟩
    rw [hx.ok hp]
    exact hf.ok hq
  · intro hpq
    by_cases hp : p
    · obtain ⟨e, he⟩ := hf.error fun hq => hpq ⟨hp, hq⟩
      rw [hx.ok hp]
      exact ⟨e, he⟩
    · obtain ⟨e, he⟩ := hx.error hp
      rw [he]
      exact ⟨e, rfl⟩

theorem map (hx : Gives x p a) (f : α → β) : Gives (x.map f) p (f a) := by
  constructor
  · intro hp
    rw [hx.ok hp]
    rfl
  · intro hp
    obtain ⟨e, he⟩ := hx.error hp
    rw [he]
    exact ⟨e, rfl⟩

theorem pure (value : α) : Gives (Pure.pure value : Except ε α) True value := by
  constructor
  · intro _
    rfl
  · intro h
    exact absurd trivial h

end Gives

/-- The number that a variable gives. -/
def numberGiven? (env : Environment) (name : String) : Option Nat :=
  (readVariable env name).toOption.bind fun raw => wordOf? (Blank.trim raw.toList)

/-- The variable has no text, or the text of a number. -/
def NumberMakesSense (env : Environment) (name : String) : Prop :=
  ∀ raw, readVariable env name = .ok raw → (wordOf? (Blank.trim raw.toList)).isSome = true

theorem gives_numberVariable (env : Environment) (name : String) :
    Gives (numberVariable env name) (NumberMakesSense env name) (numberGiven? env name) := by
  unfold numberVariable NumberMakesSense numberGiven?
  cases hraw : readVariable env name with
  | error e => exact ⟨fun _ => rfl, fun h => absurd (by simp) h⟩
  | ok raw =>
    cases hword : wordOf? (Blank.trim raw.toList) with
    | none =>
        exact ⟨fun h => by simp [hword] at h, fun _ => ⟨.notANumber name raw, by simp [hword]⟩⟩
    | some n =>
        exact ⟨fun _ => by simp [Except.toOption, hword], fun h => absurd (by simp [hword]) h⟩

/-- The modules that there are. -/
def moduleNames : List String := ["base", "table", "coroutine"]

/-- A module that is listed is on; one that is not keeps what it had. -/
def ModulesLayer.withListed (layer : ModulesLayer) (names : List String) : ModulesLayer :=
  ⟨if names.contains "base" then some true else layer.base?,
    if names.contains "table" then some true else layer.table?,
    if names.contains "coroutine" then some true else layer.coroutine?⟩

theorem ModulesLayer.withListed_cons (layer : ModulesLayer) (name : String) (names : List String) :
    layer.withListed (name :: names) = (layer.withListed [name]).withListed names := by
  have hor : ∀ (module : String) (had? : Option Bool),
      (if (name :: names).contains module then some true else had?) =
        if names.contains module then some true
        else if [name].contains module then some true else had? := by
    intro module had?
    by_cases hrest : names.contains module = true
    · simp_all
    · by_cases hhead : module = name
      · simp_all
      · simp_all
  simp only [ModulesLayer.withListed, hor]

theorem gives_enableModule (source name : String) (layer : ModulesLayer) :
    Gives (enableModule source layer name) (name ∈ moduleNames) (layer.withListed [name]) := by
  unfold enableModule
  by_cases hbase : name = "base"
  · subst hbase
    exact ⟨fun _ => rfl, fun h => absurd (by decide) h⟩
  by_cases htable : name = "table"
  · subst htable
    exact ⟨fun _ => rfl, fun h => absurd (by decide) h⟩
  by_cases hcoroutine : name = "coroutine"
  · subst hcoroutine
    exact ⟨fun _ => rfl, fun h => absurd (by decide) h⟩
  simp only [hbase, htable, hcoroutine, if_false]
  exact ⟨fun h => by simp [moduleNames, hbase, htable, hcoroutine] at h, fun _ => ⟨_, rfl⟩⟩

/-- Names are turned on one after the other. -/
theorem gives_enableModules (source : String) (names : List String) (layer : ModulesLayer) :
    Gives
      (names.foldlM (fun layer module => enableModule source layer (Lowercase.lower module)) layer)
      (∀ module ∈ names.map Lowercase.lower, module ∈ moduleNames)
      (layer.withListed (names.map Lowercase.lower)) := by
  induction names generalizing layer with
  | nil =>
    have hlayer : layer.withListed [] = layer := rfl
    simpa [hlayer] using Gives.pure layer
  | cons name rest ih =>
    rw [List.foldlM_cons, List.map_cons, List.forall_mem_cons, ModulesLayer.withListed_cons]
    exact (gives_enableModule source _ layer).bind (ih _)

/-- The names in a list of modules, in lower case. -/
def listedModules (list : String) : List String :=
  (((list.splitOn ",").map Blank.trimString).filter (· != "")).map Lowercase.lower

/-- What a variable says of the modules: those it lists are on and the others off. -/
def modulesGiven? (env : Environment) (name : String) : Option ModulesLayer :=
  (readVariable env name).toOption.map fun list =>
    ⟨some ((listedModules list).contains "base"), some ((listedModules list).contains "table"),
      some ((listedModules list).contains "coroutine")⟩

/-- The variable has no text, or lists modules that there are. -/
def ModulesMakeSense (env : Environment) (name : String) : Prop :=
  ∀ list, readVariable env name = .ok list → ∀ module ∈ listedModules list, module ∈ moduleNames

theorem gives_modulesVariable (env : Environment) (name : String) :
    Gives (modulesVariable env name) (ModulesMakeSense env name) (modulesGiven? env name) := by
  unfold modulesVariable ModulesMakeSense modulesGiven?
  cases hlist : readVariable env name with
  | error e => exact ⟨fun _ => rfl, fun h => absurd (by simp) h⟩
  | ok list =>
    have hoff : (⟨some false, some false, some false⟩ : ModulesLayer).withListed
        (listedModules list) =
          ⟨some ((listedModules list).contains "base"),
            some ((listedModules list).contains "table"),
            some ((listedModules list).contains "coroutine")⟩ := by
      have hif : ∀ b : Bool, (if b = true then some true else some false) = some b := by decide
      simp only [ModulesLayer.withListed, hif]
    simp only [Except.ok.injEq, forall_eq', Except.toOption, Option.map_some, ← hoff]
    exact (gives_enableModules name _ _).map some

/-- The number that a setting's variable gives. -/
def Sources.number? (s : Sources) (setting : String) : Option Nat :=
  numberGiven? s.environment (s.application.variableName setting)

/-- What the variable of the modules says. -/
def Sources.modules? (s : Sources) : Option ModulesLayer :=
  modulesGiven? s.environment (s.application.variableName "MODULES")

/-- Every variable that has a text can be read. -/
def Sources.VariablesMakeSense (s : Sources) : Prop :=
  NumberMakesSense s.environment (s.application.variableName "MAX_CALL_DEPTH") ∧
    NumberMakesSense s.environment (s.application.variableName "MAX_NATIVE_NESTING") ∧
    NumberMakesSense s.environment (s.application.variableName "AUTO_YIELD") ∧
    ModulesMakeSense s.environment (s.application.variableName "MODULES")

/-- A layer that sets what variables give. -/
def ProjectLayer.ofGiven (depth nesting budget : Option Nat) (modules : Option ModulesLayer) :
    ProjectLayer :=
  ⟨if depth.isSome || nesting.isSome then some ⟨depth, nesting, none⟩ else none,
    budget.map fun b => ⟨some b⟩, modules⟩

/-- What the variables set, as a layer. -/
def Sources.overrides (s : Sources) : ProjectLayer :=
  .ofGiven (s.number? "MAX_CALL_DEPTH") (s.number? "MAX_NATIVE_NESTING") (s.number? "AUTO_YIELD")
    s.modules?

theorem gives_environmentLayer (s : Sources) :
    Gives (environmentLayer s.application s.environment) s.VariablesMakeSense s.overrides := by
  have hlast : Gives (modulesVariable s.environment (s.application.variableName "MODULES") >>=
      fun modules => Pure.pure (ProjectLayer.ofGiven (s.number? "MAX_CALL_DEPTH")
        (s.number? "MAX_NATIVE_NESTING") (s.number? "AUTO_YIELD") modules))
      (ModulesMakeSense s.environment (s.application.variableName "MODULES")) s.overrides := by
    rw [← and_true (ModulesMakeSense _ _)]
    exact (gives_modulesVariable _ _).bind (Gives.pure s.overrides)
  exact (gives_numberVariable _ _).bind
    ((gives_numberVariable _ _).bind ((gives_numberVariable _ _).bind hlast))

end ScriptEngine.Config
