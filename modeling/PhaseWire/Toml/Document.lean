import PhaseWire.Toml.Lexeme
import PhaseWire.Toml.Value

/-
# `Toml.parse?` — documents

A document is a list of lines: keys with values, and headers that say into
which table the following keys go.  A key is written once, a table gets
one header, and neither dotted keys nor headers reach into a table that is
closed.
-/

namespace PhaseWire.Toml

/-! ## Growing tables -/

/-- Changes the table that a path leads to from a table of a given origin.  Missing tables on the
way are made; of repeated tables the path goes on in the last one.  A path of a dotted key does not
enter a table that has a definition of its own. -/
def alter (dotted : Bool) (change : Origin → Entries → Option Entries) :
    (path : List String) → (origin : Origin) → Entries → Option Entries
  | [], origin, entries => change origin entries
  | key :: path, _, entries =>
    match entries.get? key with
    | none => do
      let origin := if dotted then Origin.dotted else .implied
      let inner ← alter dotted change path origin []
      return entries.put key (.table origin inner)
    | some (.table .inline _) => none
    | some (.table origin inner) =>
      if dotted && !origin.isImplicit then none
      else do
        let inner ← alter dotted change path origin inner
        return entries.put key (.table origin inner)
    | some (.tables items) =>
      match items.getLast? with
      | none => none
      | some last => do
        let last ← alter dotted change path .header last
        return entries.put key (.tables (items.dropLast ++ [last]))
    | some _ => none

/-- Adds a new key to the table that a path leads to.  A dotted key only adds to a table that
dotted keys have made. -/
def addKey (path : List String) (key : String) (value : Value) (entries : Entries) :
    Option Entries :=
  alter true
    (fun origin entries =>
      if !path.isEmpty && origin ≠ .dotted then none
      else if (entries.get? key).isSome then none
      else some (entries.put key value))
    path .header entries

/-! ## Keys -/

/-- Whether a character may stand in a key without quotes. -/
def isKeyChar (c : Char) : Bool :=
  ('a' ≤ c && c ≤ 'z') || ('A' ≤ c && c ≤ 'Z') || ('0' ≤ c && c ≤ '9') || c == '-' || c == '_'

def takeKeyPart (input : List Char) : Option (String × List Char) :=
  match input with
  | '"' :: rest => takeBasic input.length [] rest
  | '\'' :: rest => takeLiteral rest
  | _ =>
    let name := input.takeWhile isKeyChar
    if name.isEmpty then none else some (String.ofList name, input.drop name.length)

/-- How deep values may be nested, and how many parts a key may have. -/
def maxDepth : Nat := 79

/-- Takes a key: its parts with points between them, at most `room` parts. -/
def takeKey : (room : Nat) → List Char → Option (List String × List Char)
  | 0, _ => none
  | room + 1, input => do
    let (part, input) ← takeKeyPart (dropBlanks input)
    match dropBlanks input with
    | '.' :: rest => do
      let (parts, rest) ← takeKey room rest
      return (part :: parts, rest)
    | rest => return ([part], rest)

def splitKey (parts : List String) : List String × String :=
  (parts.dropLast, parts.getLast?.getD "")

/-! ## Values -/

def takeWord (word : String) (input : List Char) : Option (List Char) :=
  let expected := word.toList
  if expected.isPrefixOf input then some (input.drop expected.length) else none

/-- Takes a value that is neither an array nor a table. -/
def takeScalar (input : List Char) : Option (Value × List Char) :=
  match input with
  | [] => none
  | first :: _ =>
    if first = '"' ∨ first = '\'' then (takeText input).map fun (text, rest) => (.text text, rest)
    else if first = 't' then (takeWord "true" input).map fun rest => (.boolean true, rest)
    else if first = 'f' then (takeWord "false" input).map fun rest => (.boolean false, rest)
    else
      ((takeDate input).map fun (text, rest) => (Value.date text, rest)).or
        (((takeFloat input).map fun (text, rest) => (Value.float text, rest)).or
          ((takeInteger input).map fun (value, rest) => (Value.integer value, rest)))

/-- Takes the items of an array, behind its bracket and those in `done`, which are in reverse. -/
def takeItems (item : List Char → Option (Value × List Char)) :
    (fuel : Nat) → (done : List Value) → List Char → Option (Value × List Char)
  | 0, _, _ => none
  | fuel + 1, done, input =>
    match dropGaps input.length input with
    | ']' :: rest => some (.array done.reverse, rest)
    | input => do
      let (value, rest) ← item input
      match dropGaps rest.length rest with
      | ',' :: rest => takeItems item fuel (value :: done) rest
      | ']' :: rest => return (.array (value :: done).reverse, rest)
      | _ => none

/-- Takes the entries of an inline table, behind its brace or a comma and those in `done`. -/
def takeEntries (item : List Char → Option (Value × List Char)) :
    (fuel : Nat) → (done : Entries) → List Char → Option (Value × List Char)
  | 0, _, _ => none
  | fuel + 1, done, input => do
    let (parts, rest) ← takeKey maxDepth input
    let rest ← takeExact '=' rest
    let (value, rest) ← item (dropBlanks rest)
    let (path, key) := splitKey parts
    let done ← addKey path key value done
    match dropBlanks rest with
    | ',' :: rest => takeEntries item fuel done rest
    | '\x7d' :: rest => return (.table .inline done, rest)
    | _ => none

/-- Takes a value in which arrays and tables are nested at most `depth` deep. -/
def takeValue : (depth : Nat) → List Char → Option (Value × List Char)
  | 0, input => takeScalar input
  | depth + 1, input =>
    match input with
    | '[' :: rest => takeItems (takeValue depth) input.length [] rest
    | '\x7b' :: rest =>
      match dropBlanks rest with
      | '\x7d' :: rest => some (.table .inline [], rest)
      | rest => takeEntries (takeValue depth) input.length [] rest
    | _ => takeScalar input

/-! ## Documents -/

/-- The tables that are finished, and the one that the next keys go to. -/
structure Draft where
  done : Entries
  current : Entries
  /-- The path of the current table; at first it is the document itself. -/
  path : List String
  /-- Whether the current table is one of several under the same header. -/
  repeated : Bool

namespace Draft

/-- Nothing read. -/
def empty : Draft :=
  ⟨[], [], [], false⟩

def attach (key : String) (table : Entries) (repeated : Bool) (entries : Entries) :
    Option Entries :=
  match repeated, entries.get? key with
  | false, none => some (entries.put key (.table .header table))
  | true, none => some (entries.put key (.tables [table]))
  | true, some (.tables items) => some (entries.put key (.tables (items ++ [table])))
  | _, _ => none

def finish (draft : Draft) : Option Entries :=
  if draft.path.isEmpty then some draft.current
  else
    let (path, key) := splitKey draft.path
    alter false (fun _ entries => attach key draft.current draft.repeated entries) path .header
      draft.done

/-- What stands at the key that a header names, in the table where it belongs. -/
def entryAt? (path : List String) (key : String) (entries : Entries) : Option (Option Value) :=
  match path with
  | [] => some (entries.get? key)
  | first :: path =>
    match entries.get? first with
    | none => some none
    | some (.table .inline _) => none
    | some (.table _ inner) => entryAt? path key inner
    | some (.tables items) => (items.getLast?).bind (entryAt? path key)
    | some _ => none

/-- Goes on with the table of a single header.  A table that so far only lay on the way to others
keeps what it has. -/
def openTable (parts : List String) (draft : Draft) : Option Draft := do
  let done ← draft.finish
  let (path, key) := splitKey parts
  match ← entryAt? path key done with
  | none => return ⟨done, [], parts, false⟩
  | some (.table .implied inner) =>
    let done ← alter false (fun _ entries => some (entries.erase key)) path .header done
    return ⟨done, inner, parts, false⟩
  | some _ => none

/-- Goes on with a new table of a repeated header. -/
def openRepeated (parts : List String) (draft : Draft) : Option Draft := do
  let done ← draft.finish
  let (path, key) := splitKey parts
  match ← entryAt? path key done with
  | none => return ⟨done, [], parts, true⟩
  | some (.tables _) => return ⟨done, [], parts, true⟩
  | some _ => none

/-- Takes in a line that starts with a bracket. -/
def takeHeader (draft : Draft) (input : List Char) : Option (Draft × List Char) :=
  match input with
  | '[' :: '[' :: rest => do
    let (parts, rest) ← takeKey maxDepth rest
    let rest ← takeExact ']' rest
    let rest ← takeExact ']' rest
    let rest ← takeLineEnd rest
    return (← draft.openRepeated parts, rest)
  | '[' :: rest => do
    let (parts, rest) ← takeKey maxDepth rest
    let rest ← takeExact ']' rest
    let rest ← takeLineEnd rest
    return (← draft.openTable parts, rest)
  | _ => none

def takeAssignment (draft : Draft) (input : List Char) : Option (Draft × List Char) := do
  let (parts, rest) ← takeKey maxDepth input
  let rest ← takeExact '=' rest
  let (value, rest) ← takeValue maxDepth (dropBlanks rest)
  let rest ← takeLineEnd rest
  let (path, key) := splitKey parts
  let current ← addKey path key value draft.current
  return ({ draft with current }, rest)

def takeLines : (fuel : Nat) → Draft → List Char → Option Entries
  | 0, _, _ => none
  | fuel + 1, draft, input =>
    match dropBlanks input with
    | [] => draft.finish
    | '[' :: rest =>
      match draft.takeHeader ('[' :: rest) with
      | none => none
      | some (draft, rest) => takeLines fuel draft rest
    | line =>
      match takeLineEnd line with
      | some rest => takeLines fuel draft rest
      | none =>
        match draft.takeAssignment line with
        | none => none
        | some (draft, rest) => takeLines fuel draft rest

end Draft

/-- The entries of a document.  A byte order mark in front of it is dropped. -/
def parse? (text : String) : Option Entries :=
  let input := match text.toList with
    | '\ufeff' :: rest => rest
    | input => input
  Draft.takeLines (input.length + 1) .empty input

end PhaseWire.Toml
