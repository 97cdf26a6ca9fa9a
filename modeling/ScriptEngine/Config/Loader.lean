import ScriptEngine.Config.Decode
import ScriptEngine.Config.FileTree
import ScriptEngine.Config.Settings
import ScriptEngine.Text.Blank
import ScriptEngine.Text.Lowercase

/-!
# Loading settings

The project's file is the nearest one at or above a directory.  The user's file is
read as well if it is there, and environment variables are put on top of the
project's layer.  Each file is checked when it is read, and the project's layer again
with the variables in place; of several faults the first in this order counts.

The names of files and variables come from the name of the application.
-/

namespace ScriptEngine.Config

/-- Why settings could not be loaded. -/
inductive LoadError where
  | notFound (path : FilePath)
  /-- The path leads to something that cannot be read as a file. -/
  | unreadable
  /-- The text is no TOML, or TOML that writes no layer. -/
  | malformed (path : FilePath)
  | invalid (setting : InvalidSetting)
deriving DecidableEq, Repr

/-! ## Names -/

/-- The name that files and variables are called after. -/
structure Application where
  name : String

namespace Application

def projectFile (a : Application) : String := a.name ++ ".toml"

/-- The user's file in the home directory. -/
def userFile (a : Application) (home : FilePath) : FilePath :=
  (home.join ("." ++ a.name)).join "config.toml"

def variableName (a : Application) (setting : String) : String :=
  a.name.map Char.toUpper ++ "_" ++ setting

end Application

/-! ## Files -/

/-- Reads a layer from a file and checks it. -/
def readLayer {α : Type} (ofText? : String → Option α) (check : α → Except InvalidSetting Unit)
    (tree : FileTree) (path : FilePath) : Except LoadError α :=
  match tree.find path with
  | .missing => .error (.notFound path)
  | .directory => .error .unreadable
  | .throughFile => .error .unreadable
  | .file text =>
    match ofText? text with
    | none => .error (.malformed path)
    | some layer =>
      match check layer with
      | .error e => .error (.invalid e)
      | .ok () => .ok layer

/-- How the texts of the two files are read. -/
structure Decoders where
  project? : String → Option ProjectLayer
  global? : String → Option GlobalLayer

/-- Both files are TOML. -/
def Decoders.toml : Decoders := ⟨ProjectLayer.ofText?, GlobalLayer.ofText?⟩

namespace Decoders

variable (d : Decoders)

def readProject (tree : FileTree) (path : FilePath) : Except LoadError ProjectLayer :=
  readLayer d.project? ProjectLayer.check tree path

def readGlobal (tree : FileTree) (path : FilePath) : Except LoadError GlobalLayer :=
  readLayer d.global? GlobalLayer.check tree path

/-- The user's layer; without a home directory or a file in it nothing is set. -/
def readGlobalIfPresent (tree : FileTree) : Option FilePath → Except LoadError GlobalLayer
  | none => .ok {}
  | some path => if tree.present path then d.readGlobal tree path else .ok {}

/-- The directory and the layer of the nearest project, from the directory with the given names,
last name first, upwards along the path as it is written. -/
def findProject (a : Application) (tree : FileTree) (absolute : Bool) :
    List String → Except LoadError (Option FilePath × ProjectLayer)
  | [] =>
    let directory : FilePath := ⟨absolute, []⟩
    let file := directory.join a.projectFile
    if tree.present file then (d.readProject tree file).map fun layer => (some directory, layer)
    else .ok (none, {})
  | name :: above =>
    let directory : FilePath := ⟨absolute, (name :: above).reverse⟩
    let file := directory.join a.projectFile
    if tree.present file then (d.readProject tree file).map fun layer => (some directory, layer)
    else findProject a tree absolute above

end Decoders

/-! ## Environment -/

/-- The value of a variable, which may be no Unicode. -/
inductive VariableValue where
  | unicode (text : String)
  | other
deriving DecidableEq, Repr

/-- The variables that are set. -/
abbrev Environment := List (String × VariableValue)

/-- Why a variable has no text. -/
inductive VariableError where
  | notPresent
  | notUnicode
deriving DecidableEq, Repr

/-- The text of a variable. -/
def readVariable (env : Environment) (name : String) : Except VariableError String :=
  match env.lookup name with
  | none => .error .notPresent
  | some .other => .error .notUnicode
  | some (.unicode text) => .ok text

/-- A natural number of 64 bits with an optional plus. -/
def wordOf? (text : List Char) : Option Nat :=
  let digits :=
    match text with
    | '+' :: rest => rest
    | rest => rest
  if digits.isEmpty || !digits.all Char.isDigit then none
  else
    let n := Numeral.digitsValue digits
    if n < Nat.pow 2 64 then some n else none

/-- The number a variable gives, blanks around it aside; a variable without a text gives none. -/
def numberVariable (env : Environment) (name : String) :
    Except InvalidSetting (Option Nat) :=
  match readVariable env name with
  | .error _ => .ok none
  | .ok raw =>
    match wordOf? (Blank.trim raw.toList) with
    | some n => .ok (some n)
    | none => .error (.notANumber name raw)

/-- Turns a module on by its name in lower case. -/
def enableModule (source : String) (layer : ModulesLayer) (name : String) :
    Except InvalidSetting ModulesLayer :=
  if name = "base" then .ok { layer with base? := some true }
  else if name = "table" then .ok { layer with table? := some true }
  else if name = "coroutine" then .ok { layer with coroutine? := some true }
  else .error (.unknownModule source name)

/-- The modules a variable lists between commas; those it does not list are off. -/
def modulesVariable (env : Environment) (name : String) :
    Except InvalidSetting (Option ModulesLayer) :=
  match readVariable env name with
  | .error _ => .ok none
  | .ok list =>
    let names := ((list.splitOn ",").map Blank.trimString).filter (· != "")
    (names.foldlM (fun layer module => enableModule name layer (Lowercase.lower module))
      ⟨some false, some false, some false⟩).map some

/-- What the variables set, as a layer of a project. -/
def environmentLayer (a : Application) (env : Environment) :
    Except InvalidSetting ProjectLayer := do
  let depth ← numberVariable env (a.variableName "MAX_CALL_DEPTH")
  let nesting ← numberVariable env (a.variableName "MAX_NATIVE_NESTING")
  let budget ← numberVariable env (a.variableName "AUTO_YIELD")
  let modules ← modulesVariable env (a.variableName "MODULES")
  let limits :=
    if depth.isSome || nesting.isSome then some ⟨depth, nesting, none⟩ else none
  pure ⟨limits, budget.map fun b => ⟨some b⟩, modules⟩

/-- The project's layer with the variables on top, checked once more. -/
def withEnvironment (a : Application) (env : Environment) (project : ProjectLayer) :
    Except LoadError ProjectLayer :=
  match environmentLayer a env with
  | .error e => .error (.invalid e)
  | .ok top =>
    let merged := project.merge top
    match merged.check with
    | .error e => .error (.invalid e)
    | .ok () => .ok merged

/-! ## Loading -/

/-- Both layers, with the directory of the project if there is one. -/
structure Loaded where
  project : ProjectLayer
  global : GlobalLayer
  root? : Option FilePath
deriving DecidableEq, Repr

/-- The settings that the layers come to. -/
def Loaded.settings (l : Loaded) : Settings := Settings.resolve l.global l.project

/-- Where the layers are read from. -/
structure Sources where
  application : Application
  tree : FileTree
  environment : Environment
  /-- The user's file, unless there is no home directory. -/
  globalPath? : Option FilePath
  decoders : Decoders := .toml

/-- Loads for the project at or above a directory. -/
def Sources.loadFromDirectory (s : Sources) (directory : FilePath) : Except LoadError Loaded := do
  let (root?, project) ←
    s.decoders.findProject s.application s.tree directory.absolute directory.names.reverse
  let global ← s.decoders.readGlobalIfPresent s.tree s.globalPath?
  let project ← withEnvironment s.application s.environment project
  pure ⟨project, global, root?⟩

/-- Loads for the project whose file is given. -/
def Sources.loadFromFile (s : Sources) (file : FilePath) : Except LoadError Loaded := do
  let project ← s.decoders.readProject s.tree file
  let global ← s.decoders.readGlobalIfPresent s.tree s.globalPath?
  let project ← withEnvironment s.application s.environment project
  pure ⟨project, global, file.parent?⟩

/-- Where loading starts. -/
inductive Start where
  | directory (path : FilePath)
  | file (path : FilePath)

def Sources.load (s : Sources) : Start → Except LoadError Loaded
  | .directory path => s.loadFromDirectory path
  | .file path => s.loadFromFile path

end ScriptEngine.Config
