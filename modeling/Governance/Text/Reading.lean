/-!
# Reading text from the front

A reading takes something off the front of a text and leaves the rest, or finds that it is not
there. Readings are put together by sequence, by choice (`<|>`, the first that succeeds) and by
repetition.
-/

set_option autoImplicit false

namespace Governance

/-- Takes something off the front of a text. -/
abbrev Reading (α : Type) := StateT (List Char) Option α

namespace Reading

variable {α β : Type}

/-- A character with a property. -/
def satisfy (p : Char → Bool) : Reading Char
  | [] => none
  | c :: rest => if p c then some (c, rest) else none

/-- A given character. -/
def char (c : Char) : Reading Unit := do
  let _ ← satisfy (· == c)

/-- A given text. -/
def text (s : String) : Reading Unit := fun cs =>
  if s.toList.isPrefixOf cs then some ((), cs.drop s.toList.length) else none

/-- The characters up to the first without a property. -/
def takeWhile (p : Char → Bool) : Reading (List Char) := fun cs =>
  some (cs.takeWhile p, cs.dropWhile p)

/-- A number of characters with a property. -/
def exactly (p : Char → Bool) : Nat → Reading (List Char)
  | 0 => pure []
  | n + 1 => do
    let c ← satisfy p
    return c :: (← exactly p n)

/-- The end of the text. -/
def atEnd : Reading Unit := fun cs => if cs.isEmpty then some ((), cs) else none

/-- Something that may be missing. -/
def optional (r : Reading α) : Reading (Option α) := fun cs =>
  match r cs with
  | some (a, rest) => some (some a, rest)
  | none => some (none, cs)

/-- Repeats a reading up to its first failure, but at most once for each character of `limit`. -/
def manyUpTo (r : Reading α) : List Char → List Char → List α × List Char
  | [], cs => ([], cs)
  | _ :: limit, cs =>
    match r cs with
    | none => ([], cs)
    | some (a, rest) =>
      let (more, rest) := manyUpTo r limit rest
      (a :: more, rest)

/-- Repeats a reading up to its first failure. The reading has to take something off the text each
time, so the characters of the text are as many repetitions as there can be. -/
def many (r : Reading α) : Reading (List α) := fun cs => some (manyUpTo r cs cs)

/-- One or more of something with separators between. -/
def separated (sep : Reading β) (r : Reading α) : Reading (List α) := do
  let first ← r
  return first :: (← many do
    let _ ← sep
    r)

/-- What a whole text says. -/
def whole (r : Reading α) (s : String) : Option α :=
  (r s.toList).bind fun p => if p.2.isEmpty then some p.1 else none

end Reading

end Governance
