import ScriptEngine.Scope.Symbol

/-!
# Lexical scope

`Resolver` follows the nesting of functions and blocks in a source text and resolves
names to symbols.  The latest visible declaration of the innermost function wins; a
name found further out is captured by every function on the way in; a name found
nowhere is a field of the environment.  All stacks here have their innermost part
first.
-/

namespace ScriptEngine

/-- What a closed function needs at run time. -/
structure FunctionLayout where
  /-- Number of slots the function allocates when it begins. -/
  localCount : Nat
  /-- What to capture when the function is made, as the enclosing function resolves it. -/
  captures : List Symbol
  /-- Names of the captured variables in the order of their indices. -/
  upvalueNames : List String
deriving DecidableEq, Repr

/-- A captured variable; the outermost environment comes from the host and is captured from
nowhere. -/
structure Upvalue where
  name : String
  capture? : Option Symbol
deriving DecidableEq, Repr

/-- An open function. -/
structure FunctionScope where
  /-- Visible locals with their slots. -/
  visible : List (String × Nat) := []
  /-- How many locals were visible when each open block began. -/
  blocks : List Nat := []
  /-- Slots handed out so far. -/
  localCount : Nat := 0
  /-- Captured variables in the order of their indices. -/
  upvalues : List Upvalue := []
deriving DecidableEq, Inhabited, Repr

namespace FunctionScope

/-- Slot of the latest visible declaration of the name. -/
def findLocal? (scope : FunctionScope) (name : String) : Option Nat :=
  scope.visible.lookup name

/-- Index of the name among the captured variables. -/
def findUpvalue? (scope : FunctionScope) (name : String) : Option Nat :=
  scope.upvalues.findIdx? (·.name = name)

/-- The function's own symbol for the name, if it declares or has captured it. -/
def find? (scope : FunctionScope) (name : String) : Option Symbol :=
  match scope.findLocal? name with
  | some index => some (.slot index name)
  | none => (scope.findUpvalue? name).map fun index => .captured index name

def define (scope : FunctionScope) (name : String) : FunctionScope :=
  { scope with
    visible := (name, scope.localCount) :: scope.visible
    localCount := scope.localCount + 1 }

def capture (scope : FunctionScope) (name : String) (outer : Symbol) : FunctionScope :=
  { scope with upvalues := scope.upvalues ++ [⟨name, some outer⟩] }

def pushBlock (scope : FunctionScope) : FunctionScope :=
  { scope with blocks := scope.visible.length :: scope.blocks }

/-- Ends the innermost block: what was declared since it began is no longer visible. -/
def popBlock (scope : FunctionScope) : FunctionScope :=
  match scope.blocks with
  | [] => scope
  | mark :: blocks =>
    { scope with
      visible := scope.visible.drop (scope.visible.length - mark)
      blocks := blocks }

/-- A block without declarations leaves nothing behind. -/
@[simp] theorem popBlock_pushBlock (scope : FunctionScope) : scope.pushBlock.popBlock = scope := by
  simp [pushBlock, popBlock]

def layout (scope : FunctionScope) : FunctionLayout where
  localCount := scope.localCount
  captures := scope.upvalues.filterMap (·.capture?)
  upvalueNames := scope.upvalues.map (·.name)

end FunctionScope

/-- The open functions. -/
structure Resolver where
  functions : List FunctionScope
deriving DecidableEq, Repr

namespace Resolver

/-- The scope of the outermost function, which has the environment as its first captured
variable. -/
def rootScope : FunctionScope :=
  { upvalues := [⟨Symbol.envName, none⟩] }

/-- Only the outermost function is open. -/
def start : Resolver := ⟨[rootScope]⟩

def pushFunction (r : Resolver) : Resolver :=
  ⟨{} :: r.functions⟩

/-- Closes the innermost function and gives its layout. -/
def popFunction (r : Resolver) : Option FunctionLayout × Resolver :=
  match r.functions with
  | [] => (none, r)
  | scope :: outer => (some scope.layout, ⟨outer⟩)

/-- Changes the innermost function. -/
def modifyCurrent (r : Resolver) (f : FunctionScope → FunctionScope) : Resolver :=
  match r.functions with
  | [] => r
  | scope :: outer => ⟨f scope :: outer⟩

def pushBlock (r : Resolver) : Resolver := r.modifyCurrent (·.pushBlock)

def popBlock (r : Resolver) : Resolver := r.modifyCurrent (·.popBlock)

/-- Declares a local in the innermost function, hiding earlier ones of its name. -/
def defineLocal (r : Resolver) (name : String) : Symbol × Resolver :=
  let index := (r.functions.head?.map (·.localCount)).getD 0
  (.slot index name, r.modifyCurrent (·.define name))

/-- Looks a name up from the innermost function outwards and captures what is found on the way
back in. -/
def resolveIn (name : String) : List FunctionScope → Option Symbol × List FunctionScope
  | [] => (none, [])
  | scope :: outer =>
    match scope.find? name with
    | some symbol => (some symbol, scope :: outer)
    | none =>
      match resolveIn name outer with
      | (none, outer) => (none, scope :: outer)
      | (some symbol, outer) =>
        (some (.captured scope.upvalues.length name), scope.capture name symbol :: outer)

/-- The symbol of a name; one that no open function declares is a field of the environment that is
visible here. -/
def resolve (r : Resolver) (name : String) : Symbol × Resolver :=
  match resolveIn name r.functions with
  | (some symbol, functions) => (symbol, ⟨functions⟩)
  | (none, functions) =>
    let (env?, functions) := resolveIn Symbol.envName functions
    (.global name (env?.getD Symbol.rootEnv), ⟨functions⟩)

end Resolver

end ScriptEngine
