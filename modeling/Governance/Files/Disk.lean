import Governance.Files.Tree

/-!
# Disks

A disk is the tree below the root, together with the place where the program stands. A path is
followed step by step, each through a directory that is there. One that is too long leads nowhere.
-/

set_option autoImplicit false

namespace Governance

/-- The tree below the root and the place where the program stands. -/
structure Disk where
  root : FileTree
  current : Path.Place

namespace Disk

/-- Follows steps from a place, each through a directory that is there. -/
def follow (root : FileTree) (place : Path.Place) : List Path.Step → Except FileError Path.Place
  | [] => .ok place
  | step :: rest =>
    match root.at? place with
    | none => .error .missing
    | some (.file _) => .error .notDirectory
    | some (.directory _) => follow root (step.apply place) rest

/-- What a path leads to. The empty path leads to nothing. -/
def lookUp (d : Disk) (p : String) : Except FileError FileTree :=
  if p.isEmpty then .error .missing
  else if !Path.fits p then .error .longPath
  else do
    let place ← follow d.root (Path.origin d.current p) (Path.steps p)
    match d.root.at? place with
    | some t => return t
    | none => throw .missing

/-- The entries of a directory, as they are seen at its path. -/
def list (d : Disk) (p : String) : Except FileError Listing := do
  match (← d.lookUp p).entries? with
  | some entries => return FileTree.entriesSeenAt p entries
  | none => throw .notDirectory

/-- The bytes of a file. -/
def read (d : Disk) (p : String) : FileContent := do
  match (← d.lookUp p).content? with
  | some content => content
  | none => throw .notFile

/-- Whether a path leads to a file. -/
def isFile (d : Disk) (p : String) : Bool :=
  (d.lookUp p).toOption.any fun t => t.content?.isSome

/-- Whether a file may have a name: at most 255 bytes, none of them zero. -/
def isName (name : String) : Bool := name.utf8ByteSize ≤ 255 && !name.toList.contains '\x00'

/-- Follows steps from a place and makes the directories that are missing. -/
def makeAlong (root : FileTree) (place : Path.Place) :
    List Path.Step → Except FileError FileTree
  | [] =>
    match root.at? place with
    | some (.directory _) => .ok root
    | _ => .error .notDirectory
  | step :: rest =>
    match root.at? place, step with
    | some (.directory _), .down name =>
      match root.at? (place ++ [name]) with
      | some _ => makeAlong root (place ++ [name]) rest
      | none =>
        if isName name then makeAlong (root.put (place ++ [name]) .empty) (place ++ [name]) rest
        else .error .badName
    | some (.directory _), step => makeAlong root (step.apply place) rest
    | _, _ => .error .notDirectory

/-- The disk with the directories that a path goes through. -/
def makeAll (d : Disk) (p : String) : Except FileError Disk := do
  return { d with root := ← makeAlong d.root (Path.origin d.current p) (Path.steps p) }

/-- Makes a directory and those above it, as far as they are missing. A path that ends in a single
point has no name to make: those above it are made, and then it has to lead to a directory. -/
def makeDirectory (d : Disk) (p : String) : Except FileError Disk :=
  if !Path.fits p then .error .longPath
  else if Path.endsInPoint p then do
    let d ← d.makeAll ((Path.parent? p).getD "")
    let _ ← d.list p
    return d
  else d.makeAll p

/-- Writes a file in a directory that is there, over a file of that name. -/
def write (d : Disk) (p : String) (content : List UInt8) : Except FileError Disk := do
  match Path.fits p, (Path.steps p).getLast? with
  | true, some (.down name) =>
    let above ← follow d.root (Path.origin d.current p) (Path.steps p).dropLast
    match d.root.at? above, d.root.at? (above ++ [name]) with
    | some (.directory _), some (.directory _) => throw .notFile
    | some (.directory _), _ =>
      if isName name then
        return { d with root := d.root.put (above ++ [name]) (.file (.ok content)) }
      else throw .badName
    | some (.file _), _ => throw .notDirectory
    | none, _ => throw .missing
  | true, _ => throw .notFile
  | false, _ => throw .longPath

end Disk

end Governance
