import ScriptEngine.Library.Coroutines
import ScriptEngine.Library.Iteration
import ScriptEngine.Library.Reflection
import ScriptEngine.Library.Sequences
import ScriptEngine.Library.Texts

/-!
# The core library

What each function does, and how the library is put into a new world: the functions of
the base module become globals, the other modules tables of functions.
-/

namespace ScriptEngine

variable {H : HostTypes}

/-- What a function of the core library does. -/
def LibraryFunction.action [HostObjects H] (f : LibraryFunction) (info : CallInfo)
    (a : Arguments) : Action H NativeOutcome :=
  match f with
  | .assert => Library.assert a
  | .error => Library.error a
  | .getMetatable => Library.getMetatable a
  | .next => Library.next a
  | .print => Library.print a
  | .rawEqual => Library.rawEqual a
  | .rawGet => Library.rawGet a
  | .rawLen => Library.rawLength a
  | .rawSet => Library.rawSet a
  | .select => Library.select a
  | .setMetatable => Library.setMetatable a
  | .toNumber => Library.toNumber a
  | .toString => Library.toString a
  | .typeOf => Library.typeOf a
  | .unpack => Library.unpack a
  | .pairs nextEntry => Library.pairs nextEntry a
  | .ipairsStep => Library.ipairsStep a
  | .ipairs step => Library.ipairs step a
  | .protectedOk => Library.protectedOk a
  | .protectedFailed => Library.protectedFailed a
  | .pcall ok failed => Library.pcall ok failed a
  | .xpcall ok failed => Library.xpcall ok failed a
  | .tableConcat => Library.concat a
  | .tableInsert => Library.insert a
  | .tablePack => Library.pack a
  | .tableRemove => Library.remove a
  | .coroutineCreate => Library.create a
  | .coroutineIsYieldable => Library.isYieldable info
  | .coroutineResume => Library.resume a
  | .coroutineRunning => Library.running
  | .coroutineStatus => Library.status a
  | .coroutineWrap => Library.wrap a
  | .wrapped c => Library.wrapped c a
  | .coroutineYield => Library.yieldValues a

namespace World

/-- A new function of the library. -/
def addLibrary (w : World H) (name : String) (f : LibraryFunction) : NativeRef × World H :=
  w.addNative { name, body := .library f }

/-- Puts a new function of the library into a table. -/
def installAs (w : World H) (target : TableRef) (name : String) (f : LibraryFunction) : World H :=
  let (r, w) := w.addLibrary name f
  w.setNamed target name (.native r)

/-- Puts several new functions into a table, in the order of the list. -/
def install (w : World H) (target : TableRef) (fs : List (String × LibraryFunction)) : World H :=
  fs.foldl (fun w (name, f) => w.installAs target name f) w

/-- The functions of the base module that need no others. -/
def baseFunctions : List (String × LibraryFunction) :=
  [("assert", .assert), ("error", .error), ("getmetatable", .getMetatable), ("next", .next),
   ("print", .print), ("rawequal", .rawEqual), ("rawget", .rawGet), ("rawlen", .rawLen),
   ("rawset", .rawSet), ("select", .select), ("setmetatable", .setMetatable),
   ("tonumber", .toNumber), ("tostring", .toString), ("type", .typeOf), ("unpack", .unpack)]

def tableFunctions : List (String × LibraryFunction) :=
  [("concat", .tableConcat), ("insert", .tableInsert), ("pack", .tablePack),
   ("remove", .tableRemove), ("unpack", .unpack)]

def coroutineFunctions : List (String × LibraryFunction) :=
  [("create", .coroutineCreate), ("isyieldable", .coroutineIsYieldable),
   ("resume", .coroutineResume), ("running", .coroutineRunning), ("status", .coroutineStatus),
   ("wrap", .coroutineWrap), ("yield", .coroutineYield)]

/-- The globals of the base module.  The functions that loops and protected calls hand on are made
once and belong to no table. -/
def installBase (w : World H) : World H :=
  let g := w.globals
  let w := w.install g baseFunctions
  let (next, w) := w.addLibrary "next" .next
  let w := w.installAs g "pairs" (.pairs next)
  let (step, w) := w.addLibrary "ipairs_step" .ipairsStep
  let w := w.installAs g "ipairs" (.ipairs step)
  let (ok, w) := w.addLibrary "pcall_ok" .protectedOk
  let (failed, w) := w.addLibrary "pcall_failed" .protectedFailed
  let w := w.installAs g "pcall" (.pcall ok failed)
  let w := w.installAs g "xpcall" (.xpcall ok failed)
  w.setNamed g "_G" (.table g)

/-- A global table of functions. -/
def installModule (w : World H) (name : String) (fs : List (String × LibraryFunction)) : World H :=
  let (t, w) := w.newTable
  (w.install t fs).setNamed w.globals name (.table t)

/-- The modules of the library that are asked for. -/
def installModules (w : World H) (modules : ModuleSet) : World H :=
  let w := if modules.base then w.installBase else w
  let w := if modules.table then w.installModule "table" tableFunctions else w
  if modules.coroutine then w.installModule "coroutine" coroutineFunctions else w

/-- A new world: the table of globals, the main coroutine and the library. -/
def start (settings : Settings) (host : H.State) : World H :=
  let main : Coroutine := ⟨.main, .script, .nil, some {}⟩
  let w : World H :=
    { objects := #[.table {}, .coroutine main], globals := ⟨1⟩, main := ⟨2⟩, settings, host }
  w.installModules settings.modules

end World

end ScriptEngine
