import ScriptEngine.Value.Operator
import ScriptEngine.Error.Runtime

/-!
# What a host brings along

A host adds functions and kinds of objects to an engine and may keep a state of its
own.  Here are only the types and how objects behave; what host functions do is said
where there is an engine to do it with.
-/

namespace ScriptEngine

/-- The types a host chooses. -/
structure HostTypes where
  /-- Functions of the host, with whatever they carry. -/
  Function : Type
  /-- Objects that scripts see as user data. -/
  Object : Type
  /-- What the host keeps between calls. -/
  State : Type

/-- How the objects of a host answer to scripts.  An answer depends on what the host keeps, on the
object and on what is asked; apart from an object that is written it changes nothing. -/
class HostObjects (H : HostTypes) where
  /-- The name of the kind of object in messages. -/
  typeName : H.Object → String
  /-- Whether two objects are of one kind. -/
  sameKind : H.Object → H.Object → Bool
  /-- `object[key]`. -/
  index : H.State → H.Object → Value → Except RuntimeError Value
  /-- `object[key] = value`. -/
  setIndex : H.State → H.Object → Value → Value → Except RuntimeError H.Object
  /-- The object's own definition of an operator. -/
  metamethod : H.State → H.Object → Operator → Option Value
  /-- Whether two different objects of one kind are equal. -/
  equal : H.Object → H.Object → Bool

end ScriptEngine
