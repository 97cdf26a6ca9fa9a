import ScriptEngine.Scope.Resolver

/-!
# What a text has in scope

The scopes of a source text by themselves, with no captures: open functions, their open
blocks, and in each block the declarations made so far.  A name belongs to its latest
declaration in the innermost block that has one, then to enclosing blocks, then to
enclosing functions.  `Place` is where a variable lives among the open functions, and
`denotes` follows a symbol there through the captures.
-/

namespace ScriptEngine

/-- Where a variable lives among the open functions, which are counted from the outermost. -/
inductive Place where
  /-- A slot among the locals of a function. -/
  | slot (level index : Nat)
  /-- A captured variable that comes from the host. -/
  | given (level index : Nat)
deriving DecidableEq, Repr

namespace Place

/-- The environment the host gives the outermost function. -/
def hostEnvironment : Place := .given 0 0

end Place

/-! ## Lexical order -/

/-- Names declared in a block with their slots, the latest one first. -/
abbrev Block := List (String × Nat)

/-- The text of an open function up to now. -/
structure Body where
  /-- The innermost open block. -/
  block : Block := []
  /-- The blocks around it in this function, from inside out. -/
  enclosing : List Block := []
  /-- How many declarations the function has made, closed blocks included. -/
  declared : Nat := 0
deriving DecidableEq, Repr

namespace Body

/-- All visible declarations in lexical order. -/
def visible (body : Body) : Block :=
  body.block ++ body.enclosing.flatten

/-- The slot of the innermost visible declaration of the name. -/
def find? (body : Body) (name : String) : Option Nat :=
  body.visible.lookup name

def pushBlock (body : Body) : Body :=
  { body with block := [], enclosing := body.block :: body.enclosing }

/-- Ends the innermost block; the block of the function itself cannot be ended. -/
def popBlock (body : Body) : Body :=
  match body.enclosing with
  | [] => body
  | block :: enclosing => { body with block := block, enclosing := enclosing }

/-- Every declaration of a function has a slot of its own. -/
def define (body : Body) (name : String) : Body :=
  { body with block := (name, body.declared) :: body.block, declared := body.declared + 1 }

end Body

/-- The open functions of a text. -/
structure Lexicon where
  body : Body := {}
  /-- The functions around the innermost one, from inside out. -/
  enclosing : List Body := []
deriving DecidableEq, Repr

namespace Lexicon

/-- The innermost visible declaration of the name in the functions of the list. -/
def lookup? (name : String) : List Body → Option Place
  | [] => none
  | body :: outer =>
    match body.find? name with
    | some index => some (.slot outer.length index)
    | none => lookup? name outer

/-- Where the innermost visible declaration of the name is, if there is one. -/
def place? (lexicon : Lexicon) (name : String) : Option Place :=
  lookup? name (lexicon.body :: lexicon.enclosing)

/-- The innermost visible declaration of the environment, else the one the host gives. -/
def environment (lexicon : Lexicon) : Place :=
  (lexicon.place? Symbol.envName).getD .hostEnvironment

end Lexicon

/-! ## Histories -/

/-- What a compiler asks of a resolver as it goes through a text. -/
inductive ScopeStep where
  | pushFunction
  | popFunction
  | pushBlock
  | popBlock
  | defineLocal (name : String)
  | resolve (name : String)
deriving DecidableEq, Repr

namespace ScopeStep

/-- Whether none of the steps closes a function that was open below the given number of
inner ones. -/
def staysOpen : Nat → List ScopeStep → Bool
  | _, [] => true
  | inner, .pushFunction :: steps => staysOpen (inner + 1) steps
  | 0, .popFunction :: _ => false
  | inner + 1, .popFunction :: steps => staysOpen inner steps
  | inner, _ :: steps => staysOpen inner steps

end ScopeStep

namespace Lexicon

/-- Looking a name up changes nothing in a text. -/
def perform (lexicon : Lexicon) : ScopeStep → Lexicon
  | .pushFunction => ⟨{}, lexicon.body :: lexicon.enclosing⟩
  | .popFunction =>
    match lexicon.enclosing with
    | [] => lexicon
    | body :: enclosing => ⟨body, enclosing⟩
  | .pushBlock => { lexicon with body := lexicon.body.pushBlock }
  | .popBlock => { lexicon with body := lexicon.body.popBlock }
  | .defineLocal name => { lexicon with body := lexicon.body.define name }
  | .resolve _ => lexicon

def performAll (lexicon : Lexicon) (steps : List ScopeStep) : Lexicon :=
  steps.foldl perform lexicon

end Lexicon

namespace Resolver

def perform (r : Resolver) : ScopeStep → Resolver
  | .pushFunction => r.pushFunction
  | .popFunction => r.popFunction.2
  | .pushBlock => r.pushBlock
  | .popBlock => r.popBlock
  | .defineLocal name => (r.defineLocal name).2
  | .resolve name => (r.resolve name).2

def performAll (r : Resolver) (steps : List ScopeStep) : Resolver :=
  steps.foldl perform r

/-! ## Symbols followed through captures -/

/-- Where the variable of a symbol lives when the innermost function of the list uses it.  A
field of an environment is no variable. -/
def follow : List FunctionScope → Symbol → Option Place
  | [], _ => none
  | _ :: outer, .slot index _ => some (.slot outer.length index)
  | scope :: outer, .captured index _ =>
    match scope.upvalues[index]? with
    | none => none
    | some ⟨_, none⟩ => some (.given outer.length index)
    | some ⟨_, some symbol⟩ => follow outer symbol
  | _, .global _ _ => none

/-- Where the variable of a symbol of the innermost open function lives. -/
def denotes (r : Resolver) (symbol : Symbol) : Option Place :=
  follow r.functions symbol

end Resolver

end ScriptEngine
