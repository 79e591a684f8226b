import Governance.Toml.Value

/-!
# TOML texts

A text is a list of lines: keys with values, headers, comments, or nothing. The keys up to the first
header belong to the outermost table, the others to the table of the header before them.
-/

set_option autoImplicit false

namespace Governance.Toml

/-- What a line of a text holds. -/
inductive Line where
  | nothing
  | assignment (a : Assignment)
  | header (h : Header)

/-- Reads the end of a line: blanks, a comment, and a line break unless the text ends there. -/
def readLineTail : Reading Unit := do
  skipBlanks
  let _ ← Reading.optional readComment
  readLineBreak <|> Reading.atEnd

/-- Reads a header. -/
def readHeader : Reading Header :=
  (do
    Reading.text "[["
    let path ← readKeyPath
    Reading.text "]]"
    return .tables path) <|>
  (do
    Reading.char '['
    let path ← readKeyPath
    Reading.char ']'
    return .table path)

/-- Reads a line and the blanks before the next one. -/
def readLine : Reading Line := do
  let line ←
    (do
      readLineBreak
      return .nothing) <|>
    (do
      readComment
      readLineTail
      return .nothing) <|>
    (do
      let h ← readHeader
      readLineTail
      return .header h) <|>
    (do
      let a ← readAssignment (readValue depthLimit)
      readLineTail
      return .assignment a)
  skipBlanks
  return line

/-- Reads the lines of a text, which may begin with a byte order mark. -/
def readLines : Reading (List Line) := do
  let _ ← Reading.optional (Reading.char '\uFEFF')
  skipBlanks
  Reading.many readLine

/-- The assignments before the first header, and the headers with the assignments under them. -/
def sections : List Line → List Assignment × List Section
  | [] => ([], [])
  | .nothing :: rest => sections rest
  | .assignment a :: rest =>
    let (as, more) := sections rest
    (a :: as, more)
  | .header h :: rest =>
    let (as, more) := sections rest
    ([], ⟨h, as⟩ :: more)

/-- The table that lines write. -/
def ofLines? (lines : List Line) : Option Toml := do
  let (as, more) := sections lines
  let root ← assignAll [] as
  return .table .header (← more.foldlM addSection root)

/-- The table that a text writes. -/
def ofText? (s : String) : Option Toml := (Reading.whole readLines s).bind ofLines?

end Governance.Toml
