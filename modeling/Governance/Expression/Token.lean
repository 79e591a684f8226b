import Governance.Decimal.Integer
import Governance.Text.Alphabetic
import Governance.Text.Blank
import Governance.Text.Numeric

/-!
# Tokens of expressions

An expression is written with identifiers, strings in single quotes (a quote inside is written
twice), whole numbers and six marks; white space between them does not count. Every token knows its
offset, the number of bytes of UTF-8 in front of it.

* `scanToken_length`: a token takes at least its first character.
* `scanToken_width`: the bytes of a token are those in front of what follows it.
* `scanQuoted_quoted`: a quoted string is read back, whatever follows but another quote.
-/

set_option autoImplicit false

namespace Governance

namespace Expression

/-- A token of an expression. -/
inductive Token where
  | identifier (name : String)
  | string (value : String)
  | integer (value : Int)
  | openParen
  | closeParen
  | openBracket
  | closeBracket
  | comma
  | dot
  deriving DecidableEq

/-- How messages name a token. -/
def Token.description : Token → String
  | .identifier name => s!"identifier `{name}`"
  | .string _ => "string literal"
  | .integer value => s!"integer `{Decimal.textInt value}`"
  | .openParen => "`(`"
  | .closeParen => "`)`"
  | .openBracket => "`[`"
  | .closeBracket => "`]`"
  | .comma => "`,`"
  | .dot => "`.`"

/-- The greatest number of calls and indexes that may stand one inside another. -/
def maxDepth : Nat := 64

/-- What is wrong with the text of an expression. -/
inductive ParseFault where
  | notEnclosed
  | unterminatedString
  | invalidInteger (text : String)
  | unexpectedCharacter (c : Char)
  | unexpectedEnd
  | unexpected (found : Token)
  | expected (wanted found : Token)
  | expectedProperty (found : Token)
  | tooDeep
  deriving DecidableEq

/-- The message of a fault. -/
def ParseFault.message : ParseFault → String
  | .notEnclosed => "expression must be enclosed in `[` and `]`"
  | .unterminatedString => "unterminated string literal"
  | .invalidInteger text => s!"invalid integer `{text}`"
  | .unexpectedCharacter c => s!"unexpected character `{c}`"
  | .unexpectedEnd => "unexpected end of expression"
  | .unexpected found => s!"unexpected {found.description}"
  | .expected wanted found => s!"expected {wanted.description}, found {found.description}"
  | .expectedProperty found => s!"expected property name, found {found.description}"
  | .tooDeep => s!"expression nested deeper than {Decimal.text maxDepth} levels"

/-- A fault and its offset in the text between the brackets. -/
structure ParseError where
  offset : Nat
  fault : ParseFault
  deriving DecidableEq

/-- The message of an error. -/
def ParseError.message (e : ParseError) : String :=
  s!"parse error at offset {Decimal.text e.offset}: {e.fault.message}"

/-! ### Words -/

/-- The number of bytes that characters take in UTF-8. -/
def byteLength (s : List Char) : Nat := s.foldl (fun n c => n + c.utf8Size) 0

/-- Counting may begin with any number. -/
theorem byteLength_foldl (n : Nat) (s : List Char) :
    s.foldl (fun n c => n + c.utf8Size) n = n + byteLength s := by
  induction s generalizing n with
  | nil => rfl
  | cons c s ih =>
    have hc : byteLength (c :: s) = c.utf8Size + byteLength s := by
      rw [byteLength, List.foldl_cons, Nat.zero_add, ih]
    rw [List.foldl_cons, ih, hc, Nat.add_assoc]

/-- The empty text has no bytes. -/
@[simp] theorem byteLength_nil : byteLength [] = 0 := rfl

/-- The bytes of the first character are counted, and then those of the others. -/
@[simp] theorem byteLength_cons (c : Char) (s : List Char) :
    byteLength (c :: s) = c.utf8Size + byteLength s := by
  rw [byteLength, List.foldl_cons, byteLength_foldl, Nat.zero_add]

/-- The bytes of two texts add up. -/
@[simp] theorem byteLength_append (s t : List Char) :
    byteLength (s ++ t) = byteLength s + byteLength t := by
  induction s with
  | nil => simp
  | cons c s ih => simp [ih, Nat.add_assoc]

/-- Whether a character may begin an identifier. -/
def beginsIdentifier (c : Char) : Bool := Text.isAlphabetic c || c == '_'

/-- Whether a character may stand in an identifier. -/
def inIdentifier (c : Char) : Bool := Text.isAlphabetic c || Text.isNumeric c || c == '_'

/-- Whether a character may begin a number. -/
def beginsInteger (c : Char) : Bool := c.isDigit || c == '-'

/-- A text between single quotes, each quote in it written twice. -/
def doubled : List Char → List Char
  | [] => []
  | c :: rest => if c = '\'' then '\'' :: '\'' :: doubled rest else c :: doubled rest

/-- The text of a string whose opening quote was read, and what follows its closing quote. -/
def scanQuoted : List Char → Option (List Char × List Char)
  | [] => none
  | [c] => if c = '\'' then some ([], []) else none
  | c :: d :: rest =>
    if c = '\'' then
      if d = '\'' then (scanQuoted rest).map fun p => ('\'' :: p.1, p.2)
      else some ([], d :: rest)
    else (scanQuoted (d :: rest)).map fun p => (c :: p.1, p.2)

/-- A quoted text takes at least its closing quote off the text. -/
theorem scanQuoted_length {s value rest : List Char} (h : scanQuoted s = some (value, rest)) :
    rest.length < s.length := by
  -- A doubled quote and any other character go on, and what they go on with is shorter.
  fun_induction scanQuoted s generalizing value with
  | case1 => cases h
  | case2 => simp_all
  | case3 => cases h
  | case4 s ih =>
    obtain ⟨p, hp, he⟩ := Option.map_eq_some_iff.mp h
    have hrest := @ih p.1 (by grind)
    simp only [List.length_cons]
    omega
  | case5 => simp_all
  | case6 c d s _ ih =>
    obtain ⟨p, hp, he⟩ := Option.map_eq_some_iff.mp h
    have hrest := @ih p.1 (by grind)
    simp only [List.length_cons] at hrest ⊢
    omega

/-- A quoted string is read back, whatever follows but another quote. -/
theorem scanQuoted_quoted (value rest : List Char) (h : rest.head? ≠ some '\'') :
    scanQuoted (doubled value ++ '\'' :: rest) = some (value, rest) := by
  induction value with
  | nil =>
    cases rest with
    | nil => simp [doubled, scanQuoted]
    | cons d rest =>
      -- A quote right behind the closing one would make them a doubled quote.
      have hd : d ≠ '\'' := by simpa using h
      simp [doubled, scanQuoted, hd]
  | cons c value ih =>
    rw [doubled]
    split
    next hc =>
      subst hc
      simp [scanQuoted, ih]
    next hc =>
      -- The second character is looked at as well, and there is one: the closing quote at the
      -- latest.
      cases hv : doubled value ++ '\'' :: rest with
      | nil => simp at hv
      | cons d more =>
        rw [List.cons_append, hv, scanQuoted, if_neg hc, ← hv, ih]
        rfl

/-- What is read up to a closing quote is the string as it is written. -/
theorem eq_doubled_of_scanQuoted {s value rest : List Char}
    (h : scanQuoted s = some (value, rest)) : s = doubled value ++ '\'' :: rest := by
  -- The cases are those of the scanner. Only a doubled quote and another character read on.
  fun_induction scanQuoted s generalizing value with
  | case1 => cases h
  | case2 => simp_all [doubled]
  | case3 => cases h
  | case4 s ih =>
    obtain ⟨p, hp, he⟩ := Option.map_eq_some_iff.mp h
    obtain ⟨rfl, rfl⟩ := Prod.mk.inj he
    simp [doubled, ← ih hp]
  | case5 => simp_all [doubled]
  | case6 c d s hc ih =>
    obtain ⟨p, hp, he⟩ := Option.map_eq_some_iff.mp h
    obtain ⟨rfl, rfl⟩ := Prod.mk.inj he
    simp [doubled, hc, ← ih hp]

/-! ### Scanning -/

/-- The mark that a character is. -/
def mark? (c : Char) : Option Token :=
  match c with
  | '(' => some .openParen
  | ')' => some .closeParen
  | '[' => some .openBracket
  | ']' => some .closeBracket
  | ',' => some .comma
  | '.' => some .dot
  | _ => none

/-- The token that begins with `c`, the number of its bytes, and what follows it. -/
def scanToken (c : Char) (s : List Char) : Except ParseFault (Token × Nat × List Char) :=
  match mark? c with
  | some t => .ok (t, c.utf8Size, s)
  | none =>
    if c = '\'' then
      match scanQuoted s with
      | some (value, rest) =>
        .ok (.string (String.ofList value), 2 + byteLength (doubled value), rest)
      | none => .error .unterminatedString
    else if beginsInteger c then
      let text := c :: s.takeWhile Char.isDigit
      match Decimal.readSigned64 text with
      | some value => .ok (.integer value, byteLength text, s.dropWhile Char.isDigit)
      | none => .error (.invalidInteger (String.ofList text))
    else if beginsIdentifier c then
      let text := c :: s.takeWhile inIdentifier
      .ok (.identifier (String.ofList text), byteLength text, s.dropWhile inIdentifier)
    else .error (.unexpectedCharacter c)

/-- A token takes at least its first character. -/
theorem scanToken_length {c : Char} {s rest : List Char} {t : Token} {width : Nat}
    (h : scanToken c s = .ok (t, width, rest)) : rest.length < (c :: s).length := by
  have hdigit := (List.dropWhile_sublist Char.isDigit (l := s)).length_le
  have hident := (List.dropWhile_sublist inIdentifier (l := s)).length_le
  have hquote := fun value => @scanQuoted_length s value rest
  unfold scanToken at h
  simp only [List.length_cons]
  grind

/-- The bytes of a token are those in front of what follows it. -/
theorem scanToken_width {c : Char} {s rest : List Char} {t : Token} {width : Nat}
    (h : scanToken c s = .ok (t, width, rest)) : byteLength (c :: s) = width + byteLength rest := by
  have htake (p : Char → Bool) :
      byteLength s = byteLength (s.takeWhile p) + byteLength (s.dropWhile p) := by
    rw [← byteLength_append, List.takeWhile_append_dropWhile]
  -- Each kind of token is followed through the scanner: a mark, a text in quotes, a whole number
  -- and an identifier.
  unfold scanToken at h
  split at h
  · cases h
    rw [byteLength_cons]
  split at h
  next hc =>
    subst hc
    split at h
    next value more hq =>
      cases h
      rw [eq_doubled_of_scanQuoted hq]
      simp only [byteLength_cons, byteLength_append]
      -- The two quotes around the text are one byte each.
      have hquote : Char.utf8Size '\'' = 1 := by decide
      omega
    next => cases h
  split at h
  next =>
    simp only at h
    split at h
    next value _ =>
      cases h
      have hdigits := htake Char.isDigit
      simp only [byteLength_cons]
      omega
    next => cases h
  split at h
  next =>
    cases h
    have hname := htake inIdentifier
    simp only [byteLength_cons]
    omega
  next => cases h

/-- The tokens of a text with their offsets; `offset` is that of the first character. -/
def scanFrom (offset : Nat) (s : List Char) : Except ParseError (List (Token × Nat)) :=
  match s with
  | [] => .ok []
  | c :: rest =>
    if Text.isBlank c then scanFrom (offset + c.utf8Size) rest
    else match _h : scanToken c rest with
      | .error fault => .error ⟨offset, fault⟩
      | .ok (t, width, more) => (scanFrom (offset + width) more).map ((t, offset) :: ·)
termination_by s.length
decreasing_by
  · simp
  · exact scanToken_length _h

/-- The tokens of a text with their offsets. -/
def scan (s : List Char) : Except ParseError (List (Token × Nat)) := scanFrom 0 s

end Expression

end Governance
