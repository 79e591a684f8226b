import Governance.Expression.Evaluation
import Governance.Proofs.Decimal

/-!
# `Governance.Proofs.Expression.Template`: a template is filled as it was put together

A `Template` is literal text with placeholders between its parts. It is written with the braces of
the literal texts doubled, so that the braces of a placeholder may touch those of the text on both
sides of it, as in `{{{0}}}`.

* `pieces_written`: the pieces of a written template are those that it was put together from,
  whatever the literal texts begin and end with.
* `callValue_format`: where each position is that of an argument, the call gives the literal texts
  with the arguments between them. Otherwise it fails, and reports the first placeholder that has
  no argument.
-/

set_option autoImplicit false

namespace Governance

namespace Expression

/-! ### Templates -/

/-- A placeholder:

- `position`: that of its argument;
- `spec`: what stands after the colon, if there is one;
- `closed`: no closing brace is in it. -/
structure Placeholder where
  position : Nat
  spec : Option (List Char)
  closed : '\x7d' ∉ spec.getD []

namespace Placeholder

/-- What stands between the braces. -/
def inside (p : Placeholder) : List Char :=
  Decimal.digits p.position ++ p.spec.elim [] (':' :: ·)

/-- The placeholder in its braces. -/
def written (p : Placeholder) : List Char := '\x7b' :: (p.inside ++ ['\x7d'])

/-- The placeholder as a piece of a template. -/
def piece (p : Placeholder) : Piece := .slot (Decimal.digits p.position) p.inside

/-- The text of its argument. -/
def argument (values : List Json) (p : Placeholder) : List Char :=
  (stringify (values.getD p.position .null)).toList

end Placeholder

/-- A literal text at the end, or one with a placeholder and a template after it. -/
inductive Template where
  | last (literal : List Char)
  | next (literal : List Char) (p : Placeholder) (more : Template)

namespace Template

/-- The text of the template. -/
def written : Template → List Char
  | last literal => escaped literal
  | next literal p more => escaped literal ++ (p.written ++ more.written)

/-- The pieces of the template. -/
def pieces : Template → List Piece
  | last literal => literal.map .char
  | next literal p more => literal.map .char ++ p.piece :: more.pieces

/-- The placeholders in their order. -/
def placeholders : Template → List Placeholder
  | last _ => []
  | next _ p more => p :: more.placeholders

/-- The literal texts with the arguments between them. -/
def filled (values : List Json) : Template → List Char
  | last literal => literal
  | next literal p more => literal ++ (p.argument values ++ more.filled values)

/-- The first placeholder that has no argument. -/
def missing? (values : List Json) (t : Template) : Option Placeholder :=
  t.placeholders.find? fun p => values.length ≤ p.position

end Template

/-! ### A written template is taken apart -/

/-- In front of another character, the digits of a number are all that is read as digits. -/
theorem takeWhile_digits (n : Nat) {c : Char} (hc : Text.isDecimalDigit c = false)
    (rest : List Char) :
    (Decimal.digits n ++ c :: rest).takeWhile Text.isDecimalDigit = Decimal.digits n := by
  rw [List.takeWhile_append_of_pos fun d hd =>
    Text.isDecimalDigit_of_isDigit (Decimal.isDigit_of_mem_digits hd)]
  simp [hc]

/-- What is left begins with that character. -/
theorem dropWhile_digits (n : Nat) {c : Char} (hc : Text.isDecimalDigit c = false)
    (rest : List Char) :
    (Decimal.digits n ++ c :: rest).dropWhile Text.isDecimalDigit = c :: rest := by
  rw [List.dropWhile_append_of_pos fun d hd =>
    Text.isDecimalDigit_of_isDigit (Decimal.isDigit_of_mem_digits hd)]
  simp [hc]

/-- A specification goes up to the first closing brace. -/
theorem slot?_placeholder (p : Placeholder) (rest : List Char) :
    slot? (p.inside ++ '\x7d' :: rest) = some (p.piece, rest) := by
  have hbrace : Text.isDecimalDigit '\x7d' = false := by decide
  have hcolon : Text.isDecimalDigit ':' = false := by decide
  obtain ⟨position, spec, closed⟩ := p
  cases spec with
  | none =>
    simp [slot?, Placeholder.inside, Placeholder.piece, takeWhile_digits _ hbrace,
      dropWhile_digits _ hbrace, Decimal.digits_ne_nil]
  | some spec =>
    -- The specification has no closing brace, so the first brace closes the slot.
    have hspec : ∀ c ∈ spec, (c != '\x7d') = true := by
      intro c hc
      rw [bne_iff_ne]
      rintro rfl
      exact closed hc
    simp [slot?, Placeholder.inside, Placeholder.piece, takeWhile_digits _ hcolon,
      dropWhile_digits _ hcolon, Decimal.digits_ne_nil, List.takeWhile_append_of_pos hspec,
      List.dropWhile_append_of_pos hspec]

/-- The opening brace of a placeholder is no doubled one, as a digit follows it. -/
theorem inside_append_ne_cons (p : Placeholder) (rest more : List Char) :
    p.inside ++ rest ≠ '\x7b' :: more := by
  intro heq
  rw [Placeholder.inside, List.append_assoc, List.append_eq_cons_iff] at heq
  rcases heq with ⟨hnil, -⟩ | ⟨ds, hcons, -⟩
  · exact Decimal.digits_ne_nil _ hnil
  · exact Decimal.digits_ne_cons (by decide) _ ds hcons

/-- A placeholder is taken apart as its slot, whatever follows it. -/
theorem pieces_placeholder_append (p : Placeholder) (rest : List Char) :
    pieces (p.written ++ rest) = p.piece :: pieces rest := by
  have hwritten : p.written ++ rest = '\x7b' :: (p.inside ++ '\x7d' :: rest) := by
    simp [Placeholder.written]
  rw [hwritten, pieces]
  · split
    next h =>
      rw [slot?_placeholder] at h
      cases h
      rfl
    next h => simp [slot?_placeholder] at h
  · exact inside_append_ne_cons p _

/-- A template is read as it was put together. -/
theorem pieces_written (t : Template) : pieces t.written = t.pieces := by
  induction t with
  | last literal => exact pieces_escaped literal
  | next literal p more ih =>
    rw [Template.written, Template.pieces, pieces_escaped_append, pieces_placeholder_append, ih]

/-! ### The pieces are filled -/

variable {a : Arguments} {values : List Json} {piece : Piece} {s : String} {e : ExpressionError}

/-- The texts of pieces, one after another, or the failure of the first one that has none. -/
def fillAll (a : Arguments) (values : List Json) (ps : List Piece) :
    Except ExpressionError String :=
  String.join <$> ps.mapM (fill a values)

/-- A piece with a text comes in front of the others. -/
theorem fillAll_cons_ok (h : fill a values piece = .ok s) (ps : List Piece) :
    fillAll a values (piece :: ps) = (s ++ ·) <$> fillAll a values ps := by
  rw [fillAll, fillAll, List.mapM_cons, h]
  cases ps.mapM (fill a values) with
  | error e => rfl
  | ok texts => exact congrArg Except.ok String.join_cons

/-- A piece without one is the failure of all. -/
theorem fillAll_cons_error (h : fill a values piece = .error e) (ps : List Piece) :
    fillAll a values (piece :: ps) = .error e := by
  rw [fillAll, List.mapM_cons, h]
  rfl

/-- Characters stand for themselves. -/
theorem fillAll_chars_append (a : Arguments) (values : List Json) (s : List Char)
    (ps : List Piece) :
    fillAll a values (s.map .char ++ ps) = (String.ofList s ++ ·) <$> fillAll a values ps := by
  induction s with
  | nil => simp
  | cons c s ih =>
    have hjoin : ∀ r, String.singleton c ++ (String.ofList s ++ r) = String.ofList (c :: s) ++ r :=
      fun r => by simp [← String.toList_inj]
    rw [List.map_cons, List.cons_append, fillAll_cons_ok rfl, ih, Functor.map_map]
    simp only [hjoin]

/-- Arguments are counted in 64 bits, and so is the position of each. -/
theorem fill_placeholder_of_lt {p : Placeholder}
    (hcount : Decimal.inUnsigned64 values.length = true) (hp : p.position < values.length) :
    fill a values p.piece = .ok (String.ofList (p.argument values)) := by
  have hsize : Decimal.inUnsigned64 p.position = true :=
    decide_eq_true (Nat.lt_trans hp (of_decide_eq_true hcount))
  have hsome : ((some p.position).filter Decimal.inUnsigned64).bind (values[·]?) =
      some values[p.position] := by
    rw [Option.filter_some, if_pos hsize, Option.bind_some, List.getElem?_eq_getElem hp]
  simp [fill, Placeholder.piece, Decimal.readUnsigned64_digits, hsome, Placeholder.argument, hp]

/-- A position that is too large for 64 bits is no argument's, either. -/
theorem fill_placeholder_of_le {p : Placeholder} (hp : values.length ≤ p.position) :
    fill a values p.piece = .error (.type a.function (.noArgument (String.ofList p.inside))) := by
  have hnone : ((some p.position).filter Decimal.inUnsigned64).bind (values[·]?) = none := by
    rw [Option.filter_some]
    split <;> simp [hp]
  simp [fill, Placeholder.piece, Decimal.readUnsigned64_digits, hnone, Arguments.refuse]

/-- The pieces are filled up to the first placeholder that has no argument. -/
theorem fillAll_pieces (a : Arguments) (hcount : Decimal.inUnsigned64 values.length = true)
    (t : Template) :
    fillAll a values t.pieces = match t.missing? values with
      | none => .ok (String.ofList (t.filled values))
      | some p => .error (.type a.function (.noArgument (String.ofList p.inside))) := by
  induction t with
  | last literal =>
    have hlast := fillAll_chars_append a values literal []
    rw [List.append_nil] at hlast
    rw [Template.pieces, hlast]
    exact congrArg Except.ok String.append_empty
  | next literal p more ih =>
    rw [Template.pieces, fillAll_chars_append]
    by_cases hp : p.position < values.length
    · have hmissing : (Template.next literal p more).missing? values = more.missing? values := by
        simp [Template.missing?, Template.placeholders, hp]
      -- The placeholder has an argument, so what is missing is missing behind it.
      rw [fillAll_cons_ok (fill_placeholder_of_lt hcount hp), ih, hmissing]
      cases more.missing? values with
      | none =>
        rw [Template.filled, String.ofList_append, String.ofList_append]
        rfl
      | some q => rfl
    · -- It has none, and it is the first one.
      have hle : values.length ≤ p.position := Nat.not_lt.mp hp
      have hmissing : (Template.next literal p more).missing? values = some p := by
        simp [Template.missing?, Template.placeholders, hle]
      rw [fillAll_cons_error (fill_placeholder_of_le hle), hmissing]
      rfl

/-! ### Calls -/

variable {env : Environment} {name : String}

/-- The arguments of a call that fills a template. -/
def Template.arguments (name : String) (t : Template) (values : List Json) : Arguments :=
  ⟨name, .string (String.ofList t.written) :: values⟩

/-- The first argument is the template, and the others are put into it. -/
theorem formatted_arguments (name : String) (t : Template) (values : List Json) :
    formatted (t.arguments name values) =
      fillAll (t.arguments name values) values t.pieces := by
  have hpieces : pieces (String.ofList t.written).toList = t.pieces := by
    rw [String.toList_ofList, pieces_written]
  rw [← hpieces]
  rfl

/-- The call gives what the pieces of the template are filled with. -/
theorem callValue_template (hname : Builtin.ofName? name = some .format) (t : Template)
    (values : List Json) :
    callValue env name (.string (String.ofList t.written) :: values) =
      Json.string <$> fillAll (t.arguments name values) values t.pieces := by
  have hexpect : (t.arguments name values).expect (.atLeast 1) = .ok () := by
    simp [Arguments.expect, Arguments.count, Arity.admits, Template.arguments]
  have happly : Builtin.format.apply env (t.arguments name values) =
      Json.string <$> formatted (t.arguments name values) := by
    rw [Builtin.apply, hexpect]
    rfl
  rw [callValue, hname, ← formatted_arguments, ← happly]
  rfl

/-- Where each position of a template is that of an argument, the call gives the literal texts with
the arguments between them; otherwise it fails at the first placeholder that has no argument. There
are never more arguments than 64 bits can count. -/
theorem callValue_format (env : Environment) (hname : Builtin.ofName? name = some .format)
    (values : List Json) (hcount : Decimal.inUnsigned64 values.length = true) (t : Template) :
    ((∀ p ∈ t.placeholders, p.position < values.length) →
      callValue env name (.string (String.ofList t.written) :: values) =
        .ok (.string (String.ofList (t.filled values)))) ∧
    ((∃ p ∈ t.placeholders, values.length ≤ p.position) →
      ∃ p, t.missing? values = some p ∧
        callValue env name (.string (String.ofList t.written) :: values) =
          .error (.type name (.noArgument (String.ofList p.inside)))) := by
  -- Either every placeholder has an argument, or the first one without an argument is found.
  rw [callValue_template hname, fillAll_pieces _ hcount]
  constructor
  · intro hall
    have hmissing : t.missing? values = none := by
      simpa [Template.missing?, List.find?_eq_none] using hall
    rw [hmissing]
    rfl
  · intro hsome
    have hmissing : (t.missing? values).isSome = true := by
      simpa [Template.missing?, List.find?_isSome] using hsome
    obtain ⟨p, hp⟩ := Option.isSome_iff_exists.mp hmissing
    refine ⟨p, hp, ?_⟩
    rw [hp]
    rfl

namespace Sample

/-- A template of two placeholders, each in braces that are meant as text. -/
def braced : Template :=
  .next ['\x7b'] ⟨0, none, by decide⟩ <| .next ['\x7d', '\x7b'] ⟨1, some ['D', '2'], by decide⟩ <|
    .last ['\x7d']

end Sample

/-- With two arguments the placeholders are filled; with one the second is reported. -/
theorem callValue_format_braced :
    Builtin.ofName? "Format" = some .format ∧
    String.ofList Sample.braced.written =
      "\x7b\x7b\x7b0\x7d\x7d\x7d\x7b\x7b\x7b1:D2\x7d\x7d\x7d" ∧
    (∀ p ∈ Sample.braced.placeholders, p.position < 2) ∧
    callValue ∅ "Format" [.string (String.ofList Sample.braced.written), .string "x",
      .number (.integer 7)] = .ok (.string "\x7bx\x7d\x7b7\x7d") ∧
    (∃ p ∈ Sample.braced.placeholders, 1 ≤ p.position) ∧
    callValue ∅ "Format" [.string (String.ofList Sample.braced.written), .string "x"] =
      .error (.type "Format" (.noArgument "1:D2")) := by
  have hname : Builtin.ofName? "Format" = some .format := by decide
  have hall : ∀ p ∈ Sample.braced.placeholders, p.position < 2 := by decide
  have hsome : ∃ p ∈ Sample.braced.placeholders, 1 ≤ p.position := by decide
  have htwo :=
    callValue_format ∅ hname [.string "x", .number (.integer 7)] (by decide) Sample.braced
  have hone := callValue_format ∅ hname [.string "x"] (by decide) Sample.braced
  obtain ⟨p, hp, herror⟩ := hone.2 hsome
  cases hp
  exact ⟨hname, by decide, hall, htwo.1 hall, hsome, herror⟩

end Expression

end Governance
