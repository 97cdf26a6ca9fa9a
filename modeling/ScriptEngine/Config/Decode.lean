import ScriptEngine.Config.Layer
import ScriptEngine.Toml.Document

/-!
# Layers in TOML

A layer is written with one table for each section.  Only the known keys may occur.
A section may also be written as an array that gives all its settings in order;
what stands after them is not looked at.
-/

namespace ScriptEngine.Config

open Toml (Node Entries)

/-- A natural number that fits into 64 bits with a sign. -/
def natOf? : Node → Option Nat
  | .integer n => if 0 ≤ n then some n.toNat else none
  | _ => none

def boolOf? : Node → Option Bool
  | .boolean b => some b
  | _ => none

/-- The value of a key, `none` inside when the key is absent. -/
def optionalKey {α : Type} (decode : Node → Option α) (key : String) (entries : Entries) :
    Option (Option α) :=
  match entries.lookup key with
  | none => some none
  | some node => (decode node).map some

/-- Whether all keys are among the known ones. -/
def onlyKeys (known : List String) (entries : Entries) : Bool :=
  entries.all fun (key, _) => known.contains key

/-- The settings of a section by name: those of a table, or those of an array in order. -/
def sectionEntries? (keys : List String) : Node → Option Entries
  | .table _ entries => if onlyKeys keys entries then some entries else none
  | .array items => if items.length < keys.length then none else some (keys.zip items)
  | .tables items => if items.length < keys.length then none else some (keys.zip items)
  | _ => none

def limitsOf? (node : Node) : Option LimitsLayer := do
  let entries ← sectionEntries? ["max_call_depth", "max_native_nesting", "stack_capacity"] node
  let depth ← optionalKey natOf? "max_call_depth" entries
  let nesting ← optionalKey natOf? "max_native_nesting" entries
  let capacity ← optionalKey natOf? "stack_capacity" entries
  pure ⟨depth, nesting, capacity⟩

def schedulingOf? (node : Node) : Option SchedulingLayer := do
  let entries ← sectionEntries? ["auto_yield"] node
  let budget ← optionalKey natOf? "auto_yield" entries
  pure ⟨budget⟩

def modulesOf? (node : Node) : Option ModulesLayer := do
  let entries ← sectionEntries? ["base", "table", "coroutine"] node
  let base ← optionalKey boolOf? "base" entries
  let table ← optionalKey boolOf? "table" entries
  let coroutine ← optionalKey boolOf? "coroutine" entries
  pure ⟨base, table, coroutine⟩

/-- The layer of a user that a text writes. -/
def GlobalLayer.ofText? (text : String) : Option GlobalLayer := do
  let entries ← Toml.read? text
  if !onlyKeys ["vm", "coroutines"] entries then none
  else
    let limits ← optionalKey limitsOf? "vm" entries
    let scheduling ← optionalKey schedulingOf? "coroutines" entries
    pure ⟨limits, scheduling⟩

/-- The layer of a project that a text writes. -/
def ProjectLayer.ofText? (text : String) : Option ProjectLayer := do
  let entries ← Toml.read? text
  if !onlyKeys ["vm", "coroutines", "modules"] entries then none
  else
    let limits ← optionalKey limitsOf? "vm" entries
    let scheduling ← optionalKey schedulingOf? "coroutines" entries
    let modules ← optionalKey modulesOf? "modules" entries
    pure ⟨limits, scheduling, modules⟩

end ScriptEngine.Config
