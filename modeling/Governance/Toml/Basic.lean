import Governance.Json.Basic
import Governance.Json.Source
import Governance.Toml.DateTime
import Governance.Toml.Number

/-!
# TOML values

How a table came to be decides what may still be added to it, so tables say it. The tables of an
array may be written inline, which closes them, or under headers of their own.

As JSON, numbers that are not finite are null, and a date or time is an object with one member of a
name of its own. A table whose first key is that name stands for a date or time as well.
-/

set_option autoImplicit false

namespace Governance

/-- How a table came to be. -/
inductive Toml.Origin where
  /-- Written inline; nothing can be added. -/
  | inline
  /-- Under a header of its own. -/
  | header
  /-- On the way to a table with a header; its own header may still follow. -/
  | implied
  /-- By keys with several parts. -/
  | dotted
  deriving DecidableEq

/-- A TOML value. -/
inductive Toml where
  | string (s : String)
  | integer (i : Int)
  | fraction (x : Toml.Fraction)
  | bool (b : Bool)
  | dateTime (t : Toml.DateTime)
  | array (items : List Toml)
  /-- The tables under headers of one name. -/
  | tables (items : List Toml)
  | table (origin : Toml.Origin) (entries : List (String × Toml))

namespace Toml

/-- The name under which JSON shows a date or time. -/
def dateTimeName : String := "$__toml_private_datetime"

/-- The text that a value is, if it is one. -/
def text? : Toml → Option String
  | .string s => some s
  | _ => none

/-- The date or time that entries stand for: `none` where they are an ordinary table, `some none`
where their first key is that of a date or time but the value is not one. -/
def disguised? (entries : List (String × Toml)) : Option (Option DateTime) :=
  match entries with
  | (name, v) :: _ =>
    if name = dateTimeName then some (v.text?.bind (Reading.whole readDateTime)) else none
  | [] => none

/-- A date or time as JSON. -/
def DateTime.toJson (t : DateTime) : Json := .object [(dateTimeName, .string t.text)]

mutual

/-- A value as JSON; `none` where a table only seems to be a date or time. -/
def toJson? : Toml → Option Json
  | .string s => some (.string s)
  | .integer i => some (.number (.integer i))
  | .fraction x => some (x.elim .null fun x => .number (.float x))
  | .bool b => some (.bool b)
  | .dateTime t => some t.toJson
  | .array items => (itemsToJson? items).map .array
  | .tables items => (itemsToJson? items).map .array
  | .table _ entries =>
    match disguised? entries with
    | some t => t.map DateTime.toJson
    | none => (entriesToJson? entries).map fun ms => .object (OrderedMap.ofList ms).entries

/-- Values as JSON. -/
def itemsToJson? : List Toml → Option (List Json)
  | [] => some []
  | v :: rest => do
    let v ← toJson? v
    return v :: (← itemsToJson? rest)

/-- Entries as members of an object. -/
def entriesToJson? : List (String × Toml) → Option (List (String × Json))
  | [] => some []
  | (name, v) :: rest => do
    let v ← toJson? v
    return (name, v) :: (← entriesToJson? rest)

end

/-- The outermost layer of a value. -/
def layer : Toml → Json.Layer Toml
  | .string s => .string s
  | .integer i => .number (.integer i)
  | .fraction x => x.elim .null fun x => .number (.float x)
  | .bool b => .bool b
  | .dateTime t => .object [(dateTimeName, .string t.text)]
  | .array items => .array items
  | .tables items => .array items
  | .table _ entries => .object entries

instance : Json.Source Toml where
  layer v := some v.layer
  value := toJson?

end Toml

end Governance
