import Governance.Toml.Quoted
import Governance.Toml.Table

/-!
# Reading TOML values

Arrays may run over several lines and hold comments; inline tables stand on one line. Containers
nest less than 80 deep, and a key has less than 80 parts.
-/

set_option autoImplicit false

namespace Governance.Toml

/-- How deep containers may nest, and how many parts a key may have. -/
def depthLimit : Nat := 79

/-! ### Blanks and comments -/

/-- Reads blanks within a line. -/
def skipBlanks : Reading Unit := do
  let _ ← Reading.takeWhile isLineBlank

/-- Reads a comment up to the end of its line. -/
def readComment : Reading Unit := do
  Reading.char '#'
  let _ ← Reading.takeWhile isPlain

/-- Reads blanks, line breaks and comments. -/
def skipLines : Reading Unit := do
  let _ ← Reading.many do
    readLineBreak <|> (do
      let _ ← Reading.satisfy isLineBlank) <|> (do
      readComment
      readLineBreak)

/-! ### Keys -/

/-- Whether a character may stand in a key without quotes. -/
def isBareKeyChar (c : Char) : Bool := c.isAlphanum || c == '-' || c == '_'

/-- Reads a key without quotes. -/
def readBareKey : Reading String := do
  let cs ← Reading.takeWhile isBareKeyChar
  if cs.isEmpty then failure
  return String.ofList cs

/-- Reads one part of a key with the blanks around it. -/
def readKeyPart : Reading String := do
  skipBlanks
  let key ← readBasic <|> readLiteral <|> readBareKey
  skipBlanks
  return key

/-- Reads a key of one or more parts. -/
def readKeyPath : Reading KeyPath := do
  let parts ← Reading.separated (Reading.char '.') readKeyPart
  if depthLimit < parts.length then failure
  match KeyPath.ofParts? parts with
  | some path => return path
  | none => failure

/-! ### Values -/

/-- Reads a word for a truth value. -/
def readBool : Reading Bool :=
  (do
    Reading.text "true"
    return true) <|>
  (do
    Reading.text "false"
    return false)

/-- Reads a value that is no container. -/
def readScalar : Reading Toml :=
  (.string <$> readString) <|> (.dateTime <$> readDateTime) <|> (.fraction <$> readFraction?) <|>
    (.integer <$> readInteger) <|> (.bool <$> readBool)

/-- Reads an array after its opening bracket. A comma may follow the last item. -/
def readArray (item : Reading Toml) : Reading Toml := do
  let spaced : Reading Toml := do
    skipLines
    let v ← item
    skipLines
    return v
  let items ← Reading.optional (Reading.separated (Reading.char ',') spaced)
  if items.isSome then
    let _ ← Reading.optional (Reading.char ',')
  skipLines
  Reading.char ']'
  return .array (items.getD [])

/-- Reads a key with its value. -/
def readAssignment (item : Reading Toml) : Reading Assignment := do
  let path ← readKeyPath
  Reading.char '='
  skipBlanks
  let v ← item
  return ⟨path, v⟩

/-- Reads an inline table after its opening brace. -/
def readInlineTable (item : Reading Toml) : Reading Toml := do
  let spaced : Reading Assignment := do
    let a ← readAssignment item
    skipBlanks
    return a
  let as ← Reading.optional (Reading.separated (Reading.char ',') spaced)
  skipBlanks
  Reading.char '\x7d'
  match assignAll [] (as.getD []) with
  | some entries => return .table .inline entries
  | none => failure

/-- Reads a value with containers nested at most so deep. -/
def readValue : Nat → Reading Toml
  | 0 => readScalar
  | depth + 1 => fun cs =>
    match cs with
    | '[' :: rest => readArray (readValue depth) rest
    | '\x7b' :: rest => readInlineTable (readValue depth) rest
    | _ => readScalar cs

end Governance.Toml
