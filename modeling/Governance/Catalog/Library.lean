import Governance.Catalog.Entry
import Governance.Files.Disk
import Governance.Json.Source
import Governance.Text.Ascii

/-!
# Libraries

A library is a directory of files, one entry for each. The end of a file's name tells the kind of
its entry; other files are passed over. Files are added in the order of their paths, so the catalog
does not depend on the order in which directories are listed. Several directories are added one
after another, and overrides are resolved at the end.
-/

set_option autoImplicit false

namespace Governance

/-- Why a library cannot be loaded. -/
inductive LibraryError where
  | unreadable (path : String) (reason : FileError)
  | notAnEntry (path : String) (kind : AssetKind)
  | refused (path : String) (cause : CatalogError)
  | unresolved (cause : CatalogError)

/-- The message of an error. -/
def LibraryError.message : LibraryError → String
  | .unreadable path reason => s!"io error at {path}: " ++ reason.message
  | .notAnEntry path kind => s!"failed to parse {path}: no valid {kind.text}"
  | .refused path cause => s!"{path}: " ++ cause.message
  | .unresolved cause => cause.message

/-- A directory of a library: its path, as messages show it, and its entries if it can be listed. -/
structure LibraryDirectory where
  path : String
  listing : Except FileError Listing

namespace Library

/-- The word for a kind at the end of file names. -/
def fileWord : AssetKind → String
  | .archetype => "archetype_definition"
  | .architecture => "architecture_definition"
  | .defaultValues => "policy_default_values"
  | kind => kind.key

/-- The kind of the entry in a file; capitals count as small letters. -/
def kindOf? (name : String) : Option AssetKind :=
  AssetKind.all.find? fun kind =>
    Text.finishesWith s!".{fileWord kind}.json" (Text.asciiLower name)

/-- The path of a file by its names below a directory. -/
def pathOf (directory : String) (place : Path.Place) : String := place.foldl Path.join directory

/-- Adds the entry in a file. -/
def addFile (directory : String) (c : Catalog) (file : Path.Place × FileContent) :
    Except LibraryError Catalog :=
  match file.1.getLast?.bind kindOf? with
  | none => .ok c
  | some kind =>
    let path := pathOf directory file.1
    match file.2 with
    | .error reason => .error (.unreadable path reason)
    | .ok bytes =>
      match (Json.Excerpt.ofBytes? bytes).bind (CatalogEntry.decode kind) with
      | none => .error (.notAnEntry path kind)
      | some entry =>
        match c.add entry with
        | (.ok _, c) => .ok c
        | (.error cause, _) => .error (.refused path cause)

/-- Adds the entries in a directory. -/
def addDirectory (c : Catalog) (d : LibraryDirectory) : Except LibraryError Catalog :=
  match d.listing with
  | .error reason => .error (.unreadable d.path reason)
  | .ok entries => (FileTree.sortedFiles entries).foldlM (addFile d.path) c

/-- Resolves the overrides of a catalog. -/
def resolve (c : Catalog) : Except LibraryError Catalog :=
  match c.resolveOverrides with
  | (.ok _, c) => .ok c
  | (.error cause, _) => .error (.unresolved cause)

/-- The catalog of several directories. -/
def load (directories : List LibraryDirectory) : Except LibraryError Catalog := do
  resolve (← directories.foldlM addDirectory .empty)

end Library

end Governance
