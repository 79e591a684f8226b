import Governance.Toml.Basic

/-!
# Building tables of TOML

A text of TOML says under which keys values stand, and gives headers for tables. Keys of several
parts make tables on their way, and only tables that were made so can be entered by such keys again.
A header enters any table that is not inline, and the last table of an array of tables; it can
complete a table once, if only longer headers made it.
-/

set_option autoImplicit false

namespace Governance.Toml

/-- The entries of a table. -/
abbrev Entries := List (String × Toml)

/-- A key with the keys above it. -/
structure KeyPath where
  above : List String
  key : String
  deriving DecidableEq

/-- The key path of parts, of which there is at least one. -/
def KeyPath.ofParts? (parts : List String) : Option KeyPath :=
  parts.getLast?.map fun key => ⟨parts.dropLast, key⟩

/-- A key with its value. -/
structure Assignment where
  path : KeyPath
  value : Toml

/-- Adds an entry under a key that is not taken. -/
def insertNew (entries : Entries) (key : String) (v : Toml) : Option Entries :=
  if (entries.lookup key).isSome then none else some (entries ++ [(key, v)])

/-- Puts a value in the place of the one under a key. -/
def replace (entries : Entries) (key : String) (v : Toml) : Entries :=
  entries.map fun e => if e.1 = key then (key, v) else e

/-- How one gets into a table: by a key of several parts, or by a header. -/
inductive Way where
  | keys
  | header
  deriving DecidableEq

/-- How a table came to be that is made on a way. -/
def Way.origin : Way → Origin
  | .keys => .dotted
  | .header => .implied

/-- Whether a way leads into a table. -/
def Way.enters : Way → Origin → Bool
  | _, .inline => false
  | .keys, .header => false
  | .keys, _ => true
  | .header, _ => true

/-- Changes the table that keys lead to, of which it is told how it came to be. Missing tables on
the way are made. -/
def within (way : Way) (change : Origin → Entries → Option Entries) :
    List String → Origin → Entries → Option Entries
  | [], origin, entries => change origin entries
  | key :: path, _, entries =>
    match entries.lookup key with
    | none => do
      let inner ← within way change path way.origin []
      return entries ++ [(key, .table way.origin inner)]
    | some (.table origin inner) =>
      if way.enters origin then do
        let inner ← within way change path origin inner
        return replace entries key (.table origin inner)
      else none
    | some (.tables items) =>
      match items.getLast? with
      | some (.table origin inner) => do
        let inner ← within way change path origin inner
        return replace entries key (.tables (items.dropLast ++ [.table origin inner]))
      | _ => none
    | some _ => none

/-- Adds a value under a key path. -/
def assign (entries : Entries) (a : Assignment) : Option Entries :=
  within .keys (fun origin entries =>
    if origin = .dotted ∨ a.path.above.isEmpty then insertNew entries a.path.key a.value else none)
    a.path.above .header entries

/-- Adds values under key paths. -/
def assignAll (entries : Entries) (as : List Assignment) : Option Entries :=
  as.foldlM assign entries

/-- What stands over values in a text. -/
inductive Header where
  | table (path : KeyPath)
  | tables (path : KeyPath)

/-- The values under a header. -/
structure Section where
  header : Header
  assignments : List Assignment

/-- Adds a table under a key, or completes one that longer headers made. -/
def addTable (entries : Entries) (key : String) (as : List Assignment) : Option Entries :=
  match entries.lookup key with
  | none => do return entries ++ [(key, .table .header (← assignAll [] as))]
  | some (.table .implied inner) => do
    let inner ← assignAll inner as
    return entries.filter (fun e => e.1 != key) ++ [(key, .table .header inner)]
  | some _ => none

/-- Adds a table to the array under a key. -/
def addToTables (entries : Entries) (key : String) (as : List Assignment) : Option Entries :=
  match entries.lookup key with
  | none => do return entries ++ [(key, .tables [.table .header (← assignAll [] as)])]
  | some (.tables items) => do
    return replace entries key (.tables (items ++ [.table .header (← assignAll [] as)]))
  | some _ => none

/-- Adds what stands under a header. -/
def addSection (root : Entries) (s : Section) : Option Entries :=
  match s.header with
  | .table path => enter path fun es => addTable es path.key s.assignments
  | .tables path => enter path fun es => addToTables es path.key s.assignments
where
  /-- Changes the table that holds the one under the header. -/
  enter (path : KeyPath) (change : Entries → Option Entries) : Option Entries :=
    within .header (fun _ es => change es) path.above .header root

end Governance.Toml
