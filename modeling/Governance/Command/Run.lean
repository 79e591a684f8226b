import Governance.Command.Access
import Governance.Command.Arguments
import Governance.Hierarchy.Derivation
import Governance.Hierarchy.Edit
import Governance.Hierarchy.Outline

/-!
# Running commands

A command reads its settings, loads the libraries, builds the hierarchy with its defaults, and then
does its task. What goes wrong on the way is reported line by line, and ends the command with status
1; a command line that cannot be read ends it with status 2.
-/

set_option autoImplicit false

namespace Governance.Command

/-- What a command leaves behind: its status, and what it printed. -/
structure Outcome where
  status : Nat
  output : String
  errors : String

/-- Why a command fails. -/
inductive Failure where
  | settings (e : SettingsError)
  | library (e : LibraryError)
  | hierarchy (e : HierarchyError)
  | files (e : ExportError)
  | noGroup (id : String)
  | incomplete (errors : List DerivationError)

/-- The messages of a failure, one for each line. -/
def Failure.messages : Failure → List String
  | .settings e => [e.message]
  | .library e => [e.message]
  | .hierarchy e => [e.message]
  | .files e => [e.message]
  | .noGroup id => [s!"management group `{id}` not found"]
  | .incomplete errors =>
    errors.map DerivationError.message ++
      [Decimal.text errors.length ++ " role assignment derivation error(s); pass " ++
        "--warn-on-derivation-errors to continue"]

/-- Lines of text. -/
def lines (ls : List String) : String := String.join (ls.map (· ++ "\n"))

/-- A run that printed text and failed in nothing. -/
def Outcome.printed (output : String) : Outcome := ⟨0, output, ""⟩

/-- A run that failed. -/
def Outcome.failed (f : Failure) : Outcome :=
  ⟨1, "", lines (f.messages.map ("error: " ++ ·))⟩

variable {m : Type → Type} [Monad m]

/-! ### Settings -/

/-- The settings file that is read where none is named, if it is there. -/
def defaultPath : String := "mgtree.toml"

/-- Reads a settings file. The paths in it are relative to its directory. -/
def readSettings (files : FileAccess m) (path : String) :
    m (Except SettingsError SettingsFile) := do
  match ← files.read path with
  | .error reason => return .error (.unreadable path reason)
  | .ok content =>
    match Json.decodeUtf8? content with
    | none => return .error (.unreadable path .notText)
    | some text =>
      match SettingsFile.ofText? text with
      | none => return .error (.invalid path)
      | some file => return .ok ((Path.parent? path).elim file file.relativeTo)

/-- The settings file of a run. -/
def settingsFile (files : FileAccess m) (flags : SettingsFlags) :
    m (Except SettingsError SettingsFile) := do
  match flags.config with
  | some path => readSettings files path
  | none =>
    if ← files.isFile defaultPath then readSettings files defaultPath else return .ok .empty

/-! ### Hierarchies -/

/-- Applies defaults one after another. -/
def applyDefaults (src : AssetSource Bool) (h : Hierarchy) :
    List (String × Json) → Except HierarchyError Hierarchy
  | [] => .ok h
  | (name, v) :: rest =>
    match ((h.applyDefault src name v).run false).1 with
    | (.ok _, h) => applyDefaults src h rest
    | (.error e, _) => .error e

/-- Builds the hierarchy that settings ask for. -/
def buildHierarchy (c : Catalog) (s : Settings) : Except HierarchyError Hierarchy :=
  let h := Hierarchy.empty s.uniqueRoles
  match ((h.addArchitecture c.source s.architecture s.parentId s.location).run false).1 with
  | (.ok _, h) => applyDefaults c.source h s.defaults.entries
  | (.error e, _) => .error e

/-- Settings with the hierarchy that they ask for, and the catalog that it is made from. -/
structure Built where
  settings : Settings
  catalog : Catalog
  hierarchy : Hierarchy

/-- Builds the hierarchy that flags ask for. -/
def build (files : FileAccess m) (flags : SettingsFlags) : m (Except Failure Built) := do
  match (← settingsFile files flags).bind fun file => Settings.merge file flags with
  | .error e => return .error (.settings e)
  | .ok settings =>
    match Library.load (← files.directories settings.libraries) with
    | .error e => return .error (.library e)
    | .ok catalog =>
      match buildHierarchy catalog settings with
      | .error e => return .error (.hierarchy e)
      | .ok hierarchy => return .ok ⟨settings, catalog, hierarchy⟩

/-! ### Tasks -/

/-- The summary of a hierarchy. -/
def summary (b : Built) : String :=
  lines (["mgtree build " ++ b.settings.architecture ++ " --parent-id " ++ b.settings.parentId,
    "  Management groups: " ++ Decimal.text b.hierarchy.groups.size] ++
      b.hierarchy.groups.outline.map OutlineEntry.text)

/-- A value as a printed document. -/
def document (v : Json) : String := v.pretty ++ "\n"

/-- The line of a grant. -/
def grantLine (g : RoleGrant) : String :=
  s!"  {g.group} {g.assignment} -> {g.roleDefinitionId} at {g.scope}"

/-- Derives grants and prints them. -/
def printGrants (b : Built) (tolerant json : Bool) : Except Failure Outcome :=
  match ((b.hierarchy.derive b.catalog.source).run false).1.1 with
  | .error e => .error (.hierarchy e)
  | .ok report =>
    if !report.isComplete && !tolerant then .error (.incomplete report.errors)
    else if json then .ok (.printed (document report.encode))
    else .ok ⟨0,
      lines (("Role assignments: " ++ Decimal.text report.grants.size) ::
        report.grants.toList.map grantLine),
      lines (report.errors.map fun e => "warning: " ++ e.message)⟩

/-- Writes the assets of a hierarchy to files. -/
def writeFiles (files : FileAccess m) (b : Built) (out : String) : m (Except Failure Outcome) := do
  let steps := Export.steps out b.hierarchy
  match ← files.performAll steps with
  | .error e => return .error (.files e)
  | .ok _ =>
    return .ok (.printed (lines ["Exported " ++ Decimal.text (Export.written steps).length ++
      " files for " ++ Decimal.text b.hierarchy.groups.size ++ " management groups to " ++ out]))

/-- Does a task. -/
def perform (files : FileAccess m) (b : Built) : Task → m (Except Failure Outcome)
  | .summarize true => return .ok (.printed (document b.hierarchy.view.encode))
  | .summarize false => return .ok (.printed (summary b))
  | .view id =>
    match b.hierarchy.groups.get? id with
    | some g => return .ok (.printed (document g.view.encode))
    | none => return .error (.noGroup id)
  | .grants tolerant json => return printGrants b tolerant json
  | .files out => writeFiles files b out

/-- The version, as it is printed. -/
def versionText : String := "mgtree 0.1.0\n"

/-- A short help. -/
def helpText : String :=
  "Usage: mgtree [--log-level <LEVEL>] <build|show|role-assignments|export> [OPTIONS]\n"

/-- Runs a command line. -/
def run (files : FileAccess m) (args : List String) : m Outcome := do
  match read args with
  | .error e => return ⟨2, "", s!"error: {e.message}\n\n" ++ helpText⟩
  | .ok .version => return .printed versionText
  | .ok .help => return .printed helpText
  | .ok (.run flags task) =>
    match ← build files flags with
    | .error f => return .failed f
    | .ok b =>
      match ← perform files b task with
      | .error f => return .failed f
      | .ok outcome => return outcome

end Governance.Command
