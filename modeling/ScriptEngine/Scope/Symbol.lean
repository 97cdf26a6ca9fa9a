/-!
# Resolved variables

A compiler resolves every variable before the program runs.  A symbol says where the
variable lives: in a slot of the running function, among the variables the function
captured, or as a field of the table that another symbol, the environment, holds.
-/

namespace ScriptEngine

inductive Symbol where
  /-- A slot among the locals of the running function. -/
  | slot (index : Nat) (name : String)
  /-- A variable captured by the running function. -/
  | captured (index : Nat) (name : String)
  /-- A field of the environment that `env` resolves to. -/
  | global (name : String) (env : Symbol)
deriving DecidableEq, Inhabited, Repr

namespace Symbol

/-- The variable that holds the environment of a chunk. -/
def envName : String := "_ENV"

/-- The name of the parameter that takes all remaining arguments. -/
def varargsName : String := "..."

/-- The environment as the outermost function of a chunk sees it. -/
def rootEnv : Symbol := .captured 0 envName

def name : Symbol → String
  | .slot _ name => name
  | .captured _ name => name
  | .global name _ => name

def isGlobal : Symbol → Bool
  | .global _ _ => true
  | _ => false

/-- Whether a parameter takes all remaining arguments. -/
def isVarargs : Symbol → Bool
  | .slot _ name => name = varargsName
  | _ => false

/-- The symbol as listings and messages show it. -/
def display : Symbol → String
  | .slot index name => "local " ++ name ++ "@" ++ toString index
  | .captured index name => "upvalue " ++ name ++ "@" ++ toString index
  | .global name env => "global " ++ name ++ " in " ++ env.display

end Symbol

end ScriptEngine
