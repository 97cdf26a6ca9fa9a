import ScriptEngine.World.Basic

/-!
# Paths through tables

A path is a row of keys.  All its tables are read without metamethods, and all values on
the way but the last have to be tables.
-/

namespace ScriptEngine.World

variable {H : HostTypes}

/-- The table at the end of a path. -/
def navigate (w : World H) (t : TableRef) : List Value → Except ScriptError TableRef
  | [] => .ok t
  | key :: rest =>
    match (w.table t).get key with
    | .table next => navigate w next rest
    | v =>
      .error
        { kind := .index
          message := "cannot navigate through key '" ++ key.display ++ "': " ++ v.typeName ++
            " is not a table" }

/-- The value at the end of a path. -/
def getPath (w : World H) (t : TableRef) (path : List Value) : Except ScriptError Value :=
  match path.getLast? with
  | none => .ok (.table t)
  | some key => do
    let parent ← w.navigate t path.dropLast
    pure ((w.table parent).get key)

/-- Puts a value at the end of a path. -/
def setPath (w : World H) (t : TableRef) (path : List Value) (v : Value) :
    Except ScriptError (World H) :=
  match path.getLast? with
  | none => .error { kind := .index, message := "empty key path" }
  | some key => do
    let parent ← w.navigate t path.dropLast
    w.setEntry parent key v

end ScriptEngine.World
