import ScriptEngine.Toml.Lexical

/-!
# TOML: documents

A text is read into statements, and the statements are assembled into one table.
Assembly is where the format's rules on tables are kept: a table is defined once, a
table that a header or a dotted key only implied may still be defined, and what an
inline table holds is closed.
-/

namespace ScriptEngine.Toml

/-- How a table came to be. -/
inductive Origin where
  /-- Written between braces. -/
  | inline
  /-- Defined by a header of its own. -/
  | header
  /-- Implied by the header of a table inside it. -/
  | implied
  /-- Made by a dotted key. -/
  | dotted
deriving DecidableEq, Repr

inductive Node where
  | text (s : String)
  | integer (n : Int)
  | float (x : Float)
  | boolean (b : Bool)
  /-- A date, a time or both. -/
  | moment
  | array (items : List Node)
  | table (origin : Origin) (entries : List (String × Node))
  /-- Tables with headers in double brackets. -/
  | tables (items : List Node)

inductive Statement where
  | header (path : List String)
  | arrayHeader (path : List String)
  | pair (path : List String) (value : Node)

/-! ## Assembly -/

/-- The entries of a table and where it comes from. -/
abbrev Entries := List (String × Node)

/-- Replaces the entry of a key, or adds one at the end. -/
def putEntry (key : String) (node : Node) : Entries → Entries
  | [] => [(key, node)]
  | (k, n) :: rest => if k = key then (key, node) :: rest else (k, n) :: putEntry key node rest

/-- Changes the table at the end of a path.  Missing tables on the way are made, as a header or a
dotted key implies them; tables that are closed are not entered. -/
def editAt (byDots : Bool) (edit : Origin → Entries → Option (Origin × Entries)) :
    List String → Origin → Entries → Option (Origin × Entries)
  | [], origin, entries => edit origin entries
  | key :: path, origin, entries =>
    match entries.lookup key with
    | none =>
      match editAt byDots edit path (if byDots then .dotted else .implied) [] with
      | some (o, es) => some (origin, putEntry key (.table o es) entries)
      | none => none
    | some (.table inner es) =>
      if inner = .inline || (byDots && inner = .header) then none
      else
        match editAt byDots edit path inner es with
        | some (o, es) => some (origin, putEntry key (.table o es) entries)
        | none => none
    | some (.tables items) =>
      match items.getLast? with
      | some (.table inner es) =>
        match editAt byDots edit path inner es with
        | some (o, es) =>
          some (origin, putEntry key (.tables (items.dropLast ++ [.table o es])) entries)
        | none => none
      | _ => none
    | some _ => none

/-- Adds a value under a key that is still free. -/
def addValue (dottedPath : Bool) (key : String) (value : Node) (origin : Origin)
    (entries : Entries) : Option (Origin × Entries) :=
  if (origin = .dotted) != dottedPath then none
  else if (entries.lookup key).isSome then none
  else some (origin, entries ++ [(key, value)])

/-- Adds a key and its value to the table that is being filled. -/
def addPair (path : List String) (value : Node) (origin : Origin) (entries : Entries) :
    Option (Origin × Entries) :=
  match path.getLast? with
  | none => none
  | some key =>
    editAt true (addValue (path.length != 1) key value) path.dropLast origin entries

/-- Defines the table of a header. -/
def addHeader (path : List String) (entries : Entries) : Option Entries :=
  match path.getLast? with
  | none => none
  | some key =>
    let define (origin : Origin) (es : Entries) : Option (Origin × Entries) :=
      match es.lookup key with
      | none => some (origin, es ++ [(key, .table .header [])])
      | some (.table .implied inner) => some (origin, putEntry key (.table .header inner) es)
      | some _ => none
    (editAt false define path.dropLast .header entries).map (·.2)

/-- Adds one more table to those of a double header. -/
def addArrayHeader (path : List String) (entries : Entries) : Option Entries :=
  match path.getLast? with
  | none => none
  | some key =>
    let define (origin : Origin) (es : Entries) : Option (Origin × Entries) :=
      match es.lookup key with
      | none => some (origin, es ++ [(key, .tables [.table .header []])])
      | some (.tables items) =>
        some (origin, putEntry key (.tables (items ++ [.table .header []])) es)
      | some _ => none
    (editAt false define path.dropLast .header entries).map (·.2)

/-- Carries out the statements one after the other; `current` is the path of the last header. -/
def assemble : List String → Entries → List Statement → Option Entries
  | _, entries, [] => some entries
  | _, entries, .header path :: rest =>
    match addHeader path entries with
    | some entries => assemble path entries rest
    | none => none
  | _, entries, .arrayHeader path :: rest =>
    match addArrayHeader path entries with
    | some entries => assemble path entries rest
    | none => none
  | current, entries, .pair path value :: rest =>
    match editAt false (addPair path value) current .header entries with
    | some (_, entries) => assemble current entries rest
    | none => none

/-! ## Values -/

/-- Arrays and inline tables may be nested this deep. -/
def depthLimit : Nat := 80

/-- The rest of an array; `read` reads one item. -/
def readItems (read : Reader Node) : Nat → List Node → Reader Node
  | 0, _ => fun _ => none
  | fuel + 1, acc => fun text =>
    let text := skipLines text.length text
    match text with
    | ']' :: rest => some (.array acc.reverse, rest)
    | _ =>
      match read text with
      | none => none
      | some (value, rest) =>
        match skipLines rest.length rest with
        | ',' :: rest => readItems read fuel (value :: acc) rest
        | ']' :: rest => some (.array (value :: acc).reverse, rest)
        | _ => none

/-- A key, an equals sign and a value. -/
def readPair (read : Reader Node) (text : List Char) :
    Option ((List String × Node) × List Char) :=
  match readKey (text.length + 1) text with
  | some (path, '=' :: rest) =>
    (read (skipSpaces rest)).map fun (value, rest) => ((path, value), rest)
  | _ => none

/-- The rest of an inline table after its first pair, or from its beginning. -/
def readInlinePairs (read : Reader Node) : Nat → Entries → Reader Node
  | 0, _ => fun _ => none
  | fuel + 1, entries => fun text =>
    match readPair read text with
    | none => none
    | some ((path, value), rest) =>
      match addPair path value .inline entries with
      | none => none
      | some (_, entries) =>
        match skipSpaces rest with
        | ',' :: rest => readInlinePairs read fuel entries rest
        | '\x7d' :: rest => some (.table .inline entries, rest)
        | _ => none

mutual

/-- Closes what dotted keys made inside an inline table. -/
def sealInline : Node → Node
  | .table _ entries => .table .inline (sealEntries entries)
  | node => node

def sealEntries : List (String × Node) → List (String × Node)
  | [] => []
  | (key, node) :: rest => (key, sealInline node) :: sealEntries rest

end

/-- A value of any kind. -/
def readValue : Nat → Reader Node
  | 0 => fun _ => none
  | depth + 1 => fun text =>
    match text with
    | '[' :: rest => readItems (readValue depth) (rest.length + 1) [] rest
    | '\x7b' :: rest =>
      match skipSpaces rest with
      | '\x7d' :: rest => some (.table .inline [], rest)
      | rest =>
        (readInlinePairs (readValue depth) (rest.length + 1) [] rest).map fun (node, rest) =>
          (sealInline node, rest)
    | '"' :: _ => (readString text).map fun (s, rest) => (.text s, rest)
    | '\'' :: _ => (readString text).map fun (s, rest) => (.text s, rest)
    | _ =>
      match dropStart? ['t', 'r', 'u', 'e'] text with
      | some rest => some (.boolean true, rest)
      | none =>
        match dropStart? ['f', 'a', 'l', 's', 'e'] text with
        | some rest => some (.boolean false, rest)
        | none =>
          match afterMoment? text with
          | some rest => some (.moment, rest)
          | none =>
            match readFloat text with
            | some (x, rest) => some (.float x, rest)
            | none => (readInteger text).map fun (n, rest) => (.integer n, rest)

/-! ## Statements -/

/-- A header, a double header, or a key with its value, up to the end of its line. -/
def readStatement (text : List Char) : Option (Statement × List Char) :=
  match text with
  | '[' :: '[' :: rest =>
    match readKey (rest.length + 1) rest with
    | some (path, ']' :: ']' :: rest) =>
      (readLineEnd rest).map fun rest => (.arrayHeader path, rest)
    | _ => none
  | '[' :: rest =>
    match readKey (rest.length + 1) rest with
    | some (path, ']' :: rest) => (readLineEnd rest).map fun rest => (.header path, rest)
    | _ => none
  | _ =>
    match readPair (readValue depthLimit) text with
    | some ((path, value), rest) => (readLineEnd rest).map fun rest => (.pair path value, rest)
    | none => none

/-- The statements of a text; at most `fuel` of them are read. -/
def readStatements : Nat → List Char → Option (List Statement)
  | 0, _ => none
  | fuel + 1, text =>
    match skipSpaces (skipLines text.length text) with
    | [] => some []
    | text =>
      match skipComment text with
      | [] => some []
      | _ =>
        match readStatement text with
        | some (statement, rest) => (readStatements fuel rest).map (statement :: ·)
        | none => none

/-- A mark of the encoding at the very beginning does not count. -/
def dropMark : List Char → List Char
  | '\ufeff' :: rest => rest
  | text => text

/-- The entries of the outermost table of a text. -/
def read? (text : String) : Option Entries :=
  let chars := dropMark text.toList
  match readStatements (chars.length + 1) chars with
  | some statements => assemble [] [] statements
  | none => none

end ScriptEngine.Toml
