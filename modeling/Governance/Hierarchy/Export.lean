import Governance.Files.Disk
import Governance.Hierarchy.View
import Governance.Json.Printer

/-!
# Exporting a hierarchy

Each group gets a directory below the place of the export, and each of its assets a file in it.
Steps are taken in order up to the first that fails.
-/

set_option autoImplicit false

namespace Governance

/-- A step of an export. -/
inductive ExportStep where
  | directory (path : String)
  | file (path content : String)
  deriving DecidableEq

namespace ExportStep

/-- The path that a step is about. -/
def path : ExportStep → String
  | .directory path => path
  | .file path _ => path

/-- The path of the file that a step writes. -/
def writes? : ExportStep → Option String
  | .directory _ => none
  | .file path _ => some path

end ExportStep

/-- Why an export fails. -/
structure ExportError where
  path : String
  reason : FileError

/-- The message of an error. -/
def ExportError.message (e : ExportError) : String :=
  s!"export failed at {e.path}: " ++ e.reason.message

namespace Export

/-- Steps for assets of a kind: a file for each, named by the asset and its kind. -/
def assetSteps {α : Type} (directory : String) (kind : AssetKind) (encode : α → Json)
    (assets : OrderedMap String α) : List ExportStep :=
  assets.entries.map fun e =>
    .file (Path.join directory s!"{e.1}.{kind.key}.json") ((encode e.2).pretty ++ "\n")

/-- Steps for a group. -/
def groupSteps (out id : String) (v : GroupView) : List ExportStep :=
  let directory := Path.join out id
  .directory directory ::
    (assetSteps directory .policyDefinition PolicyDefinition.encode v.policyDefinitions ++
      assetSteps directory .policySetDefinition PolicySetDefinition.encode v.policySetDefinitions ++
      assetSteps directory .policyAssignment PolicyAssignment.encode v.policyAssignments ++
      assetSteps directory .roleDefinition RoleDefinition.encode v.roleDefinitions)

/-- Steps for a hierarchy, group by group in the order of their ids. -/
def steps (out : String) (h : Hierarchy) : List ExportStep :=
  h.view.groups.entries.flatMap fun e => groupSteps out e.1 e.2

/-- The paths of the files that steps write. -/
def written (steps : List ExportStep) : List String := steps.filterMap ExportStep.writes?

/-- Takes a step on a disk. -/
def perform (d : Disk) : ExportStep → Except FileError Disk
  | .directory path => d.makeDirectory path
  | .file path content => d.write path content.toUTF8.toList

/-- Takes steps on a disk up to the first that fails. -/
def performAll (d : Disk) : List ExportStep → Except ExportError Unit × Disk
  | [] => (.ok (), d)
  | step :: rest =>
    match perform d step with
    | .ok d => performAll d rest
    | .error reason => (.error ⟨step.path, reason⟩, d)

end Export

/-- Exports a hierarchy to a directory; the answer is the paths of the files in the order in which
they were written. -/
def Hierarchy.exportTo (h : Hierarchy) (out : String) (d : Disk) :
    Except ExportError (List String) × Disk :=
  let steps := Export.steps out h
  let (result, d) := Export.performAll d steps
  (result.map fun _ => Export.written steps, d)

end Governance
