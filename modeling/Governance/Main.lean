import Governance.Command.Run

/-!
# The program

Runs the command line on the files of the machine.
-/

set_option autoImplicit false

namespace Governance.Machine

/-- What the machine reports, in the first line of its words. -/
def refused (e : IO.Error) : FileError :=
  .refused (String.ofList ((toString e).toList.takeWhile (· != '\n')))

/-- What a path names, as seen from where the program stands. -/
def entryAt (path : String) : IO.FS.DirEntry := ⟨".", path⟩

/-- What comes of a way to read a file. -/
def contentBy (reading : IO ByteArray) : IO FileContent := do
  try
    return .ok (← reading).toList
  catch e => return .error (refused e)

/-- All that lies at an entry. -/
partial def treeAt (e : IO.FS.DirEntry) : IO FileTree := do
  if ← e.path.isDir then
    let entries ← e.path.readDir
    return .directory (← entries.toList.mapM fun e => return (e.fileName, ← treeAt e))
  else
    return .file (← contentBy (IO.FS.readBinFile e.path))

/-- What lies in a directory. -/
def list (path : String) : IO (Except FileError Listing) := do
  if path.isEmpty then return .error .missing
  try
    match ← treeAt (entryAt path) with
    | .directory entries => return .ok entries
    | .file (.error reason) => return .error reason
    | .file (.ok _) => return .error .notDirectory
  catch e => return .error (refused e)

/-- Makes a directory, unless it is there. -/
def makeOne (path : String) : IO Unit := do
  try
    IO.FS.createDir path
  catch e =>
    if !(← (entryAt path).path.isDir) then throw e

/-- Makes a directory and those above it, as far as they are missing. -/
partial def makeDirectory (path : String) : IO Unit := do
  if path.isEmpty then return
  try
    makeOne path
  catch e =>
    match e, Path.parent? path with
    | .noFileOrDirectory .., some above =>
      makeDirectory above
      makeOne path
    | _, _ => throw e

/-- Takes a step of an export. -/
def perform (step : ExportStep) : IO (Except FileError Unit) := do
  try
    match step with
    | .directory path => makeDirectory path
    | .file path content => IO.FS.writeFile path content
    return .ok ()
  catch e => return .error (refused e)

/-- Access to the files of the machine. -/
def access : FileAccess IO where
  isFile path := do
    let path := (entryAt path).path
    return (← path.pathExists) && !(← path.isDir)
  read path := contentBy (IO.FS.readBinFile path)
  list := list
  perform := perform

end Governance.Machine

/-- Runs the command line that the program was called with. -/
def main (args : List String) : IO UInt32 := do
  let outcome ← Governance.Command.run Governance.Machine.access args
  IO.print outcome.output
  IO.eprint outcome.errors
  return outcome.status.toUInt32
