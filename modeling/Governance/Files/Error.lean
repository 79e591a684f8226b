/-!
# Errors of files

The causes for which a file or a directory cannot be used, and their words.
-/

set_option autoImplicit false

namespace Governance

/-- Why a file or a directory cannot be used. -/
inductive FileError where
  | missing
  | notDirectory
  | notFile
  | badName
  | longPath
  | notText
  | refused (reason : String)

/-- The words for an error. -/
def FileError.message : FileError → String
  | .missing => "no such file or directory"
  | .notDirectory => "not a directory"
  | .notFile => "not a file"
  | .badName => "not a name for a file"
  | .longPath => "path too long"
  | .notText => "not a text"
  | .refused reason => reason

/-- The bytes of a file, if it can be read. -/
abbrev FileContent := Except FileError (List UInt8)

end Governance
