import Governance.Files.Disk
import Governance.Json.Record
import Governance.Toml.Document

/-!
# Settings files

A settings file is TOML with the sections `library`, `hierarchy` and `defaults`, each of which may
be missing, and nothing else. The first two may also be written as arrays of their fields in order.
-/

set_option autoImplicit false

namespace Governance

/-- What a settings file says. -/
structure SettingsFile where
  libraries : List String
  architecture : Option String
  parentId : Option String
  location : Option String
  uniqueRoles : Bool
  defaults : OrderedMap String Json

namespace SettingsFile

/-- The file that says nothing. -/
def empty : SettingsFile := ⟨[], none, none, none, false, {}⟩

/-- The fields of a section, which has no others. As an array it must have at least so many; surplus
items are passed over. -/
def readSection (names : List String) (least : Nat) (v : Toml) : Option (Json.Fields Toml) :=
  match v.layer with
  | .object members => if members.all fun m => names.contains m.1 then some members else none
  | .array items => if least ≤ items.length then some (names.zip items) else none
  | _ => none

/-- A field that may be missing. -/
def ifPresent {α : Type} (fs : Json.Fields Toml) (name : String) (f : Toml → Option α) :
    Option (Option α) :=
  match fs.lookup name with
  | none => some none
  | some v => (f v).map some

/-- Reads the section with the paths of libraries. -/
def readLibrary (v : Toml) : Option (List String) := do
  let fs ← readSection ["paths"] 0 v
  fs.withDefault "paths" [] (Json.readList Json.readText)

/-- Reads the section on the hierarchy into a file. -/
def readHierarchy (file : SettingsFile) (v : Toml) : Option SettingsFile := do
  let fs ← readSection ["architecture", "parent_id", "location", "unique_role_definitions"] 3 v
  return { file with
    architecture := ← ifPresent fs "architecture" Json.readText
    parentId := ← ifPresent fs "parent_id" Json.readText
    location := ← ifPresent fs "location" Json.readText
    uniqueRoles := ← fs.withDefault "unique_role_definitions" false Json.readBool }

/-- What a TOML table says as a settings file. -/
def ofToml? (v : Toml) : Option SettingsFile := do
  let fs ← readSection ["library", "hierarchy", "defaults"] 0 v
  let libraries ← fs.withDefault "library" [] readLibrary
  let defaults ← fs.withDefault "defaults" {} (Json.readMap Json.readAny)
  let file : SettingsFile := { empty with libraries, defaults }
  fs.withDefault "hierarchy" file (readHierarchy file)

/-- What a text says as a settings file. -/
def ofText? (s : String) : Option SettingsFile := (Toml.ofText? s).bind ofToml?

/-- The file with the paths of its libraries below the directory that it lies in. -/
def relativeTo (file : SettingsFile) (directory : String) : SettingsFile :=
  { file with libraries := file.libraries.map (Path.join directory) }

end SettingsFile

end Governance
