import Governance.Toml.Number

/-!
# Strings of TOML

A basic string stands in quotation marks and knows escapes; a literal string stands in apostrophes
and is taken as it is. Either may be written with three marks over several lines: then a line break
right after the opening is left out, other line breaks count as one character however they are
written, and up to two marks may stand before the closing ones.
-/

set_option autoImplicit false

namespace Governance.Toml

/-- Whether a character may stand in a string or a comment: a tab, or no control character. -/
def isPlain (c : Char) : Bool := c == '\t' || (0x20 ≤ c.toNat && c.toNat != 0x7F)

/-- The character with the code that digits in base 16 write. -/
def codeChar? (ds : List Char) : Option Char := do
  let n ← ds.foldlM (fun n c => (radixDigit? 16 c).map (n * 16 + ·)) 0
  if n.isValidChar then some (Char.ofNat n) else none

/-- The character that a one-letter escape stands for. -/
def shortEscape? : Char → Option Char
  | 'b' => some '\x08'
  | 'f' => some '\x0c'
  | 'n' => some '\n'
  | 'r' => some '\r'
  | 't' => some '\t'
  | '\\' => some '\\'
  | '"' => some '"'
  | _ => none

/-- Reads what follows the backslash of an escape. -/
def readEscape : Reading Char
  | 'u' :: a :: b :: c :: d :: rest => (codeChar? [a, b, c, d]).map (·, rest)
  | 'U' :: a :: b :: c :: d :: e :: f :: g :: h :: rest =>
    (codeChar? [a, b, c, d, e, f, g, h]).map (·, rest)
  | c :: rest => (shortEscape? c).map (·, rest)
  | [] => none

/-- Reads a line break. -/
def readLineBreak : Reading Unit
  | '\n' :: rest => some ((), rest)
  | '\r' :: '\n' :: rest => some ((), rest)
  | _ => none

/-- Whether a character is a blank within a line. -/
def isLineBlank (c : Char) : Bool := c == ' ' || c == '\t'

/-! ### Strings on one line -/

/-- Reads a character of a basic string. -/
def readBasicChar : Reading Char
  | '\\' :: rest => readEscape rest
  | c :: rest => if isPlain c && c != '"' then some (c, rest) else none
  | [] => none

/-- Reads a basic string. -/
def readBasic : Reading String := do
  Reading.char '"'
  let cs ← Reading.many readBasicChar
  Reading.char '"'
  return String.ofList cs

/-- Reads a literal string. -/
def readLiteral : Reading String := do
  Reading.char '\''
  let cs ← Reading.takeWhile fun c => isPlain c && c != '\''
  Reading.char '\''
  return String.ofList cs

/-! ### Strings over several lines -/

/-- Reads a mark within a string over several lines: one of up to two that stand alone, or of up to
two before the three that close the string. -/
def readInnerMark (mark : Char) : Reading Char := fun cs =>
  match (cs.takeWhile (· == mark)).length with
  | 1 | 2 | 4 | 5 => some (mark, cs.drop 1)
  | _ => none

/-- Reads a backslash at the end of a line, with the blanks and line breaks after it. -/
def readLineEnd : Reading Unit := do
  Reading.char '\\'
  let _ ← Reading.takeWhile isLineBlank
  readLineBreak
  let _ ← Reading.many do
    readLineBreak <|> (do
      let _ ← Reading.satisfy isLineBlank)

/-- Reads a part of a basic string over several lines. -/
def readBasicPart : Reading (List Char) :=
  (do
    readLineEnd
    return []) <|>
  (do
    readLineBreak
    return ['\n']) <|>
  (do
    return [← readBasicChar]) <|>
  (do
    return [← readInnerMark '"'])

/-- Reads a basic string over several lines. -/
def readBasicLines : Reading String := do
  Reading.text "\"\"\""
  let _ ← Reading.optional readLineBreak
  let parts ← Reading.many readBasicPart
  Reading.text "\"\"\""
  return String.ofList parts.flatten

/-- Reads a character of a literal string over several lines. -/
def readLiteralChar : Reading Char :=
  (do
    readLineBreak
    return '\n') <|>
  Reading.satisfy (fun c => isPlain c && c != '\'') <|>
  readInnerMark '\''

/-- Reads a literal string over several lines. -/
def readLiteralLines : Reading String := do
  Reading.text "'''"
  let _ ← Reading.optional readLineBreak
  let cs ← Reading.many readLiteralChar
  Reading.text "'''"
  return String.ofList cs

/-- Reads a string of any form. -/
def readString : Reading String :=
  readBasicLines <|> readBasic <|> readLiteralLines <|> readLiteral

end Governance.Toml
