import Governance.Files.Error
import Governance.Files.Path

/-!
# Trees of files

A tree is a file with its bytes, if it can be read, or a directory with its entries, in whatever
order they are listed.
-/

set_option autoImplicit false

namespace Governance

/-- A file, or a directory with its entries by name. -/
inductive FileTree where
  | file (content : FileContent)
  | directory (entries : List (String × FileTree))

/-- The entries of a directory. -/
abbrev Listing := List (String × FileTree)

namespace FileTree

/-- The directory without entries. -/
def empty : FileTree := .directory []

/-- The entries, if the tree is a directory. -/
def entries? : FileTree → Option Listing
  | .file _ => none
  | .directory entries => some entries

/-- What is read, if the tree is a file. -/
def content? : FileTree → Option FileContent
  | .file content => some content
  | .directory _ => none

/-- What stands at a place. -/
def at? : FileTree → Path.Place → Option FileTree
  | t, [] => some t
  | .file _, _ :: _ => none
  | .directory entries, name :: place => (entries.lookup name).bind fun t => t.at? place

/-- Sets an entry of a listing; a new one comes last. -/
def setEntry (name : String) (t : FileTree) : Listing → Listing
  | [] => [(name, t)]
  | e :: rest => if e.1 = name then (name, t) :: rest else e :: setEntry name t rest

/-- The tree with something put at a place below directories. -/
def put (t : FileTree) : Path.Place → FileTree → FileTree
  | [], new => new
  | name :: place, new =>
    match t with
    | .file content => .file content
    | .directory entries =>
      .directory (setEntry name (((entries.lookup name).getD empty).put place new) entries)

mutual

/-- The tree as it is seen at a path. Where the path is too long there is only a file that cannot be
read, whatever lies there. -/
def seenAt (path : String) : FileTree → FileTree
  | .file content => .file (if Path.fits path then content else .error .longPath)
  | .directory entries =>
    if Path.fits path then .directory (entriesSeenAt path entries) else .file (.error .longPath)

/-- The listing of a directory as it is seen at the directory's path. -/
def entriesSeenAt (path : String) : Listing → Listing
  | [] => []
  | (name, t) :: rest => (name, t.seenAt (Path.join path name)) :: entriesSeenAt path rest

end

mutual

/-- The files in a tree, by their names from `above` down, in the order of the listings. -/
def filesFrom (above : Path.Place) : FileTree → List (Path.Place × FileContent)
  | .file content => [(above, content)]
  | .directory entries => filesOf above entries

/-- The files in a listing of the directory at `above`. -/
def filesOf (above : Path.Place) : Listing → List (Path.Place × FileContent)
  | [] => []
  | (name, t) :: rest => filesFrom (above ++ [name]) t ++ filesOf above rest

end

/-- Whether the first of two files comes no later than the second: their paths are compared name by
name. -/
def comesFirst (a b : Path.Place × FileContent) : Bool := compare a.1 b.1 != .gt

/-- The files below a directory, in the order of their paths. -/
def sortedFiles (entries : Listing) : List (Path.Place × FileContent) :=
  (filesOf [] entries).mergeSort comesFirst

end FileTree

end Governance
