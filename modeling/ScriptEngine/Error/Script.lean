import ScriptEngine.Chunk.Instruction

/-!
# Errors that scripts can catch

A script error has a kind, a message and, when a script raised something that is no
text, that value as payload.  The place where it happened is put in front of the
message once it is known, unless the error is frozen or carries a payload.
-/

namespace ScriptEngine

inductive ScriptErrorKind where
  | arithmetic
  | comparison
  | concat
  | length
  | index
  | indexLoop
  | call
  | badArgument
  | stackOverflow
  | user
  | conversion
deriving DecidableEq, Inhabited, Repr

structure ScriptError where
  kind : ScriptErrorKind
  message : String
  payload? : Option Value := none
  location? : Option SourceLocation := none
  traceback : List String := []
  /-- No place is put in front of the message any more. -/
  frozen : Bool := false
deriving DecidableEq, Inhabited

namespace ScriptError

/-! ## Causes -/

/-- Raised by a script with a value of its own; a text is the message itself, and a number leaves
its text as message. -/
def user (value : Value) : ScriptError :=
  match value with
  | .string s => { kind := .user, message := s }
  | v =>
    { kind := .user
      message := v.toText?.getD ("(error object is a " ++ v.typeName ++ " value)")
      payload? := some v }

/-- Raised with a text. -/
def userText (text : String) : ScriptError := { kind := .user, message := text }

/-- The operand that is to blame is the left one unless it counts as a number. -/
def arithmetic (sign : String) (left right : Value) : ScriptError :=
  let bad := if left.toNumber?.isNone then left else right
  { kind := .arithmetic
    message := "attempt to perform arithmetic on a " ++ bad.typeName ++ " value (" ++
      left.typeName ++ " " ++ sign ++ " " ++ right.typeName ++ ")" }

def negate (operand : Value) : ScriptError :=
  { kind := .arithmetic
    message := "attempt to perform arithmetic on a " ++ operand.typeName ++ " value" }

def comparison (left right : Value) : ScriptError :=
  { kind := .comparison
    message :=
      if left.typeName = right.typeName then
        "attempt to compare two " ++ left.typeName ++ " values"
      else "attempt to compare " ++ left.typeName ++ " with " ++ right.typeName }

def concat (operand : Value) : ScriptError :=
  { kind := .concat, message := "attempt to concatenate a " ++ operand.typeName ++ " value" }

def length (operand : Value) : ScriptError :=
  { kind := .length, message := "attempt to get length of a " ++ operand.typeName ++ " value" }

def lengthNotNumber : ScriptError :=
  { kind := .length, message := "length is not a number" }

def index (operand : Value) : ScriptError :=
  { kind := .index, message := "attempt to index a " ++ operand.typeName ++ " value" }

def multiIndex (operand : Value) : ScriptError :=
  { kind := .index
    message := "cannot index a " ++ operand.typeName ++ " value with multiple keys" }

/-- The key of a table must not be nil or NaN. -/
def badKey (key : Value) : ScriptError :=
  { kind := .index
    message :=
      match key.toScalar with
      | .number _ => "table index is NaN"
      | _ => "table index is nil" }

def indexLoop (writing : Bool) : ScriptError :=
  { kind := .indexLoop, message := if writing then "loop in newindex" else "loop in index" }

def call (callee : Value) : ScriptError :=
  { kind := .call, message := "attempt to call a " ++ callee.typeName ++ " value" }

/-- `position` counts from one. -/
def badArgument (position : Nat) (function reason : String) : ScriptError :=
  { kind := .badArgument
    message := "bad argument #" ++ toString position ++ " to '" ++ function ++ "' (" ++ reason ++
      ")" }

def stackOverflow : ScriptError :=
  { kind := .stackOverflow, message := "stack overflow" }

def missingField (typeName : String) (key : Value) : ScriptError :=
  { kind := .index
    message := "cannot access field " ++ key.display ++ " of userdata<" ++ typeName ++ ">" }

/-! ## Place and value -/

/-- Attaches a place, unless there is one or the error takes none. -/
def withLocation (e : ScriptError) (location? : Option SourceLocation) : ScriptError :=
  if e.location?.isNone && e.payload?.isNone && !e.frozen then { e with location? } else e

/-- Keeps places away from the error. -/
def freeze (e : ScriptError) : ScriptError := { e with frozen := true }

/-- The message with the place in front of it. -/
def decorated (e : ScriptError) : String :=
  match e.location? with
  | some l => l.display ++ ": " ++ e.message
  | none => e.message

/-- What a handler in the script receives. -/
def value (e : ScriptError) : Value :=
  e.payload?.getD (.string e.decorated)

/-- Puts another value in the error's place; what counts as text becomes the message. -/
def replaceValue (e : ScriptError) (v : Value) : ScriptError :=
  match v.toText? with
  | some text => { e with message := text, location? := none, payload? := none, frozen := true }
  | none => { e with payload? := some v, frozen := true }

end ScriptError

end ScriptEngine
