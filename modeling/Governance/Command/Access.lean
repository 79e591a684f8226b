import Governance.Catalog.Library
import Governance.Hierarchy.Export

/-!
# Access to files

What a command needs of files, in whatever way they are reached: on a disk in memory, which is a
state, or by other means.
-/

set_option autoImplicit false

namespace Governance

/-- What a command needs of files. -/
structure FileAccess (m : Type → Type) where
  isFile : String → m Bool
  read : String → m FileContent
  /-- All that lies in a directory. -/
  list : String → m (Except FileError Listing)
  perform : ExportStep → m (Except FileError Unit)

namespace FileAccess

variable {m : Type → Type} [Monad m]

/-- The directories of a library. -/
def directories (files : FileAccess m) (paths : List String) : m (List LibraryDirectory) :=
  paths.mapM fun path => return ⟨path, ← files.list path⟩

/-- Takes steps up to the first that fails. -/
def performAll (files : FileAccess m) : List ExportStep → m (Except ExportError Unit)
  | [] => return .ok ()
  | step :: rest => do
    match ← files.perform step with
    | .ok _ => performAll files rest
    | .error reason => return .error ⟨step.path, reason⟩

end FileAccess

/-- Takes a step of an export on a disk; one that fails leaves the disk as it was. -/
def Disk.step (d : Disk) (s : ExportStep) : Except FileError Unit × Disk :=
  match Export.perform d s with
  | .ok d' => (.ok (), d')
  | .error e => (.error e, d)

/-- Access to the files of a disk. -/
def Disk.access : FileAccess (StateM Disk) where
  isFile p := return (← get).isFile p
  read p := return (← get).read p
  list p := return (← get).list p
  perform s := fun d => d.step s

end Governance
