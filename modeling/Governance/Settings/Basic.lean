import Governance.Json.Document
import Governance.Settings.File
import Governance.Text.Blank

/-!
# Settings

The settings of a run come from a settings file and from flags, which go first. Four of them must
come from somewhere. A default is given by a flag as a name and a value, which is JSON where it can
be.
-/

set_option autoImplicit false

namespace Governance

/-- The settings of a run. -/
structure Settings where
  libraries : List String
  architecture : String
  parentId : String
  location : String
  uniqueRoles : Bool
  defaults : OrderedMap String Json

/-- What flags say about settings. -/
structure SettingsFlags where
  /-- The settings file to read. -/
  config : Option String
  libraries : List String
  architecture : Option String
  parentId : Option String
  location : Option String
  /-- Defaults, each a name and a value with an equals sign between them. -/
  defaults : List String
  uniqueRoles : Bool

/-- A setting that every run needs. -/
inductive RequiredSetting where
  | libraries
  | architecture
  | parentId
  | location
  deriving DecidableEq

namespace RequiredSetting

/-- The key of a setting in files. -/
def key : RequiredSetting → String
  | .libraries => "library.paths"
  | .architecture => "hierarchy.architecture"
  | .parentId => "hierarchy.parent_id"
  | .location => "hierarchy.location"

/-- The flag for a setting. -/
def flag : RequiredSetting → String
  | .libraries => "library"
  | .architecture => "architecture"
  | .parentId => "parent-id"
  | .location => "location"

end RequiredSetting

/-- Why there are no settings. -/
inductive SettingsError where
  | unreadable (path : String) (reason : FileError)
  | invalid (path : String)
  | missing (setting : RequiredSetting)
  | invalidDefault (text : String)

/-- The message of an error. -/
def SettingsError.message : SettingsError → String
  | .unreadable path reason => s!"failed to read {path}: " ++ reason.message
  | .invalid path => s!"failed to parse {path}: no valid settings"
  | .missing setting =>
    s!"missing `{setting.key}`: set it in mgtree.toml or pass --{setting.flag}"
  | .invalidDefault text => s!"invalid --default `{text}`: expected name=value"

namespace Settings

/-- The name and the value that a flag gives. -/
def readDefault (text : String) : Except SettingsError (String × Json) :=
  let name := Text.trim (String.ofList (text.toList.takeWhile (· != '=')))
  match text.toList.dropWhile (· != '=') with
  | [] => .error (.invalidDefault text)
  | _ :: value =>
    if name.isEmpty then .error (.invalidDefault text)
    else
      let value := String.ofList value
      .ok (name, (Json.ofText value).getD (.string value))

/-- Adds the default that a flag gives, in the place of an earlier one. -/
def addDefault (defaults : OrderedMap String Json) (text : String) :
    Except SettingsError (OrderedMap String Json) := do
  let (name, value) ← readDefault text
  return defaults.insert name value

/-- The libraries of a run. -/
def chooseLibraries (file : SettingsFile) (flags : SettingsFlags) : List String :=
  if flags.libraries.isEmpty then file.libraries else flags.libraries

/-- A setting from a flag or else from the file. -/
def choose {α : Type} (setting : RequiredSetting) (flag file : Option α) : Except SettingsError α :=
  match flag.orElse fun _ => file with
  | some a => .ok a
  | none => .error (.missing setting)

/-- The settings that a file and flags make together. -/
def merge (file : SettingsFile) (flags : SettingsFlags) : Except SettingsError Settings := do
  let libraries := chooseLibraries file flags
  if libraries.isEmpty then throw (.missing .libraries)
  let architecture ← choose .architecture flags.architecture file.architecture
  let parentId ← choose .parentId flags.parentId file.parentId
  let location ← choose .location flags.location file.location
  let defaults ← flags.defaults.foldlM addDefault file.defaults
  return ⟨libraries, architecture, parentId, location, flags.uniqueRoles || file.uniqueRoles,
    defaults⟩

end Settings

end Governance
