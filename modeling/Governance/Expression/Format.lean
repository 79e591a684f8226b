import Governance.Decimal.Integer
import Governance.Text.Numeric

/-!
# Templates with placeholders

A template is text with placeholders `{n}` or `{n:spec}` for the argument at position `n`; the part
after the colon does not count. A brace that is meant as text is written twice; a brace that is
neither doubled nor part of a placeholder stands for itself.

* `pieces_escaped`: a text with its braces doubled is read back as that text.
-/

set_option autoImplicit false

namespace Governance.Expression

/-- A piece of a template. -/
inductive Piece where
  | char (c : Char)
  /-- A placeholder, with the digits of its position and all that stands between the braces. -/
  | slot (position inside : List Char)
  deriving DecidableEq

/-- The placeholder whose opening brace was read, and what follows it. -/
def slot? (s : List Char) : Option (Piece × List Char) :=
  let position := s.takeWhile Text.isDecimalDigit
  if position.isEmpty then none
  else match s.dropWhile Text.isDecimalDigit with
    | '\x7d' :: rest => some (.slot position position, rest)
    | ':' :: more =>
      match more.dropWhile (· != '\x7d') with
      | [] => none
      | _ :: rest =>
        some (.slot position (position ++ ':' :: more.takeWhile (· != '\x7d')), rest)
    | _ => none

/-- A slot takes something off the text, so taking a template apart comes to an end. -/
theorem slot?_length {s rest : List Char} {p : Piece} (h : slot? s = some (p, rest)) :
    rest.length < s.length := by
  have hdigit := (List.dropWhile_sublist Text.isDecimalDigit (l := s)).length_le
  have hspec := fun more : List Char =>
    (List.dropWhile_sublist (· != '\x7d') (l := more)).length_le
  simp only [slot?] at h
  grind

/-- The pieces of a template. -/
def pieces (s : List Char) : List Piece :=
  match s with
  | [] => []
  | '\x7b' :: '\x7b' :: rest => .char '\x7b' :: pieces rest
  | '\x7d' :: '\x7d' :: rest => .char '\x7d' :: pieces rest
  | '\x7b' :: rest =>
    match _h : slot? rest with
    | some (p, more) => p :: pieces more
    | none => .char '\x7b' :: pieces rest
  | c :: rest => .char c :: pieces rest
termination_by s.length
decreasing_by
  all_goals simp only [List.length_cons]
  · omega
  · omega
  · exact Nat.lt_succ_of_lt (slot?_length _h)
  · omega
  · omega

/-- A text with each brace written twice. -/
def escaped : List Char → List Char
  | [] => []
  | c :: rest =>
    if c = '\x7b' ∨ c = '\x7d' then c :: c :: escaped rest else c :: escaped rest

/-- An escaped text gives its characters one by one, whatever follows it. -/
theorem pieces_escaped_append (s rest : List Char) :
    pieces (escaped s ++ rest) = s.map .char ++ pieces rest := by
  induction s with
  | nil => rfl
  | cons c s ih =>
    rw [escaped]
    split
    next h =>
      -- The brace was doubled, and a doubled brace is one character.
      rcases h with rfl | rfl <;> simp [pieces, ih]
    next h =>
      -- Another character opens no slot and closes none.
      rw [not_or] at h
      rw [List.cons_append, pieces]
      · simp [ih]
      all_goals grind

/-- A text with its braces doubled is read back as that text. -/
theorem pieces_escaped (s : List Char) : pieces (escaped s) = s.map .char := by
  have hall := pieces_escaped_append s []
  simpa [pieces] using hall

end Governance.Expression
