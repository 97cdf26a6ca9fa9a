import ScriptEngine.World.Basic

/-!
# Describing host functions

A description gathers what is known about a function before it is made.
-/

namespace ScriptEngine

structure NativeBuilder (H : HostTypes) where
  name : String
  description? : Option String := none
  arity? : Option Nat := none
  body? : Option (NativeBody H) := none

/-- A function without a body. -/
structure MissingBody where
  name : String
deriving DecidableEq, Repr

def MissingBody.message (e : MissingBody) : String :=
  "native function '" ++ e.name ++ "' missing implementation"

namespace NativeBuilder

variable {H : HostTypes}

def withDescription (b : NativeBuilder H) (text : String) : NativeBuilder H :=
  { b with description? := some text }

/-- Declares the number of arguments. -/
def withArity (b : NativeBuilder H) (n : Nat) : NativeBuilder H := { b with arity? := some n }

/-- Declares that any number of arguments will do. -/
def variadic (b : NativeBuilder H) : NativeBuilder H := { b with arity? := none }

def withBody (b : NativeBuilder H) (body : NativeBody H) : NativeBuilder H :=
  { b with body? := some body }

/-- Makes the function. -/
def build (b : NativeBuilder H) (w : World H) : Except MissingBody (NativeRef × World H) :=
  match b.body? with
  | none => .error ⟨b.name⟩
  | some body =>
    .ok (w.addNative { name := b.name, body, description? := b.description?, arity? := b.arity? })

end NativeBuilder

end ScriptEngine
