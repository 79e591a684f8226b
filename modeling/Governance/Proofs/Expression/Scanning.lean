import Governance.Expression.Token
import Governance.Proofs.Decimal
import Mathlib.Data.List.Chain

/-!
# `Governance.Proofs.Expression.Scanning`: tokens are scanned as they are written

`Token.text` writes a token, and `Spaced` writes tokens one after another with any white space
around them, or none. `scanFrom_spaced` scans such a text: it gives the tokens that were written,
provided that the scanner has them at all (`Token.isScannable`) and that of two neighbours one is a
mark (`Separated`).

Two facts about characters carry this. A character at which tokens end (`isStop`) stands in no
identifier and in no number (`inIdentifier_of_isStop`), and one that begins an identifier begins
nothing else (`scanToken_identifier`). For characters beyond ASCII both rest on tables of code
points that have none in common (`Text.inRanges_of_apart`).
-/

set_option autoImplicit false

namespace Governance

namespace Expression

variable {c d : Char} {t : Token} {ts : List Token} {rest : List Char}

/-! ### Written tokens -/

/-- The text of a token. -/
def Token.text : Token → List Char
  | .identifier name => name.toList
  | .string value => '\'' :: (doubled value.toList ++ ['\''])
  | .integer value => (Decimal.textInt value).toList
  | .openParen => ['(']
  | .closeParen => [')']
  | .openBracket => ['[']
  | .closeBracket => [']']
  | .comma => [',']
  | .dot => ['.']

/-- Whether a token is a mark. -/
def Token.isMark : Token → Bool
  | .identifier _ => false
  | .string _ => false
  | .integer _ => false
  | _ => true

/-- Whether a name is an identifier. -/
def isIdentifier (name : String) : Bool :=
  match name.toList with
  | [] => false
  | c :: word => beginsIdentifier c && word.all inIdentifier

/-- Whether the scanner has a token: a name has to be an identifier, a number has 64 bits. -/
def Token.isScannable : Token → Bool
  | .identifier name => isIdentifier name
  | .integer value => Decimal.inSigned64 value
  | _ => true

/-- `Spaced ts s`: the text `s` writes the tokens `ts`, with white space before, between and after
them, or none. -/
inductive Spaced : List Token → List Char → Prop
  | nil (gap : List Char) : (∀ c ∈ gap, Text.isBlank c = true) → Spaced [] gap
  | cons (gap : List Char) {t : Token} {ts : List Token} {s : List Char} :
    (∀ c ∈ gap, Text.isBlank c = true) → Spaced ts s → Spaced (t :: ts) (gap ++ (t.text ++ s))

/-- Of two neighbours one is a mark. -/
def Separated (ts : List Token) : Prop :=
  ts.IsChain fun t u => t.isMark = true ∨ u.isMark = true

/-- Tokens that may follow a token that is no mark. -/
def MarkFirst (ts : List Token) : Prop := ∀ u ∈ ts.head?, u.isMark = true

/-! ### Where a token ends -/

/-- The characters that are marks. -/
def marks : List (Char × Token) :=
  [('(', .openParen), (')', .closeParen), ('[', .openBracket), (']', .closeBracket), (',', .comma),
   ('.', .dot)]

/-- What scans as a mark is in the table of marks. -/
theorem mem_marks_of_mark? (h : mark? c = some t) : (c, t) ∈ marks := by
  unfold mark? at h
  split at h <;> cases h <;> decide

/-- Every mark has its character. -/
theorem exists_mem_marks (h : t.isMark = true) : ∃ c, (c, t) ∈ marks := by
  cases t with
  | identifier name | string value | integer value => cases h
  | openParen | closeParen | openBracket | closeBracket | comma | dot => simp [marks]

/-- A mark is that mark only. -/
theorem marks_alone : ∀ m ∈ marks, m.2.text = [m.1] ∧ mark? m.1 = some m.2 ∧
    Text.isBlank m.1 = false ∧ inIdentifier m.1 = false ∧ m.1 ≠ '\'' := by
  decide +kernel

/-- Whether every token ends at a character: it is white space or a mark. -/
def isStop (c : Char) : Bool := Text.isBlank c || (mark? c).isSome

/-- What may follow a token that is no mark. -/
def Ends (rest : List Char) : Prop := ∀ c ∈ rest.head?, isStop c = true

/-- White space stands in no identifier. -/
theorem inIdentifier_of_isBlank (h : Text.isBlank c = true) : inIdentifier c = false := by
  have hletter : Text.inRanges Text.alphabeticRanges c = false :=
    Text.inRanges_of_apart (by decide +kernel) h
  have halphabetic : Text.isAlphabetic c = false :=
    Bool.eq_false_iff.mpr (mt Text.inRanges_of_isAlphabetic (by simp [hletter]))
  have hnumeric : Text.isNumeric c = false := Text.inRanges_of_apart (by decide +kernel) h
  have hunderscore : c ≠ '_' := by
    rintro rfl
    revert h
    decide
  simp [inIdentifier, halphabetic, hnumeric, hunderscore]

/-- An identifier ends in front of white space and marks. -/
theorem inIdentifier_of_isStop (h : isStop c = true) : inIdentifier c = false := by
  rcases Bool.or_eq_true_iff.mp h with hblank | hmark
  · exact inIdentifier_of_isBlank hblank
  · obtain ⟨t, ht⟩ := Option.isSome_iff_exists.mp hmark
    exact (marks_alone _ (mem_marks_of_mark? ht)).2.2.2.1

/-- A quote is neither white space nor a mark. -/
theorem ne_quote_of_isStop (h : isStop c = true) : c ≠ '\'' := by
  rintro rfl
  revert h
  decide

/-- A digit may stand in an identifier, so that a number ends where an identifier does. -/
theorem inIdentifier_of_isDigit (h : c.isDigit = true) : inIdentifier c = true := by
  simp [inIdentifier, Text.isNumeric_of_isDigit h]

/-- A run of characters of a kind ends where there is none of that kind. -/
theorem takeWhile_append_of_head? {p : Char → Bool} {word : List Char}
    (hword : ∀ d ∈ word, p d = true) (hrest : ∀ d ∈ rest.head?, p d = false) :
    (word ++ rest).takeWhile p = word ∧ (word ++ rest).dropWhile p = rest := by
  rw [List.takeWhile_append_of_pos hword, List.dropWhile_append_of_pos hword]
  cases rest with
  | nil => simp
  | cons d rest => simp [hrest d rfl]

/-! ### One token -/

/-- A digit is no letter. -/
theorem isAlphabetic_of_isDigit (h : c.isDigit = true) : Text.isAlphabetic c = false := by
  have hdigit : Text.inRanges [(0x30, 0x39)] c = true :=
    Text.inRanges_of_isDigit List.mem_cons_self h
  have hletter : Text.inRanges Text.alphabeticRanges c = false :=
    Text.inRanges_of_apart (by decide +kernel) hdigit
  exact Bool.eq_false_iff.mpr (mt Text.inRanges_of_isAlphabetic (by simp [hletter]))

/-- What begins an identifier is no white space and begins no other token. -/
theorem alone_of_beginsIdentifier (h : beginsIdentifier c = true) : Text.isBlank c = false ∧
    mark? c = none ∧ c ≠ '\'' ∧ beginsInteger c = false := by
  -- White space and marks stand in no identifier, and a digit or a minus sign does not begin one.
  have hin : inIdentifier c = true := by
    rcases Bool.or_eq_true_iff.mp h with hc | hc <;> simp [inIdentifier, hc]
  have hnot : ∀ d, beginsIdentifier d = false → c ≠ d := by
    rintro d hd rfl
    simp [h] at hd
  refine ⟨?_, ?_, hnot _ (by decide), ?_⟩
  · exact Bool.eq_false_iff.mpr fun hblank => by simp [inIdentifier_of_isBlank hblank] at hin
  · refine Option.eq_none_iff_forall_ne_some.mpr fun t ht => ?_
    simp [(marks_alone _ (mem_marks_of_mark? ht)).2.2.2.1] at hin
  · have hdigit : c.isDigit = false := by
      refine Bool.eq_false_iff.mpr fun hc => ?_
      have hunderscore : c ≠ '_' := by
        rintro rfl
        revert hc
        decide
      simp [beginsIdentifier, isAlphabetic_of_isDigit hc, hunderscore] at h
    simp [beginsInteger, hdigit, hnot '-' (by decide)]

/-- An identifier takes all the characters at the front that may stand in one. -/
theorem scanToken_identifier {word : List Char} (hc : beginsIdentifier c = true)
    (hword : ∀ d ∈ word, inIdentifier d = true) (hrest : ∀ d ∈ rest.head?, inIdentifier d = false) :
    scanToken c (word ++ rest) =
      .ok (.identifier (String.ofList (c :: word)), byteLength (c :: word), rest) := by
  obtain ⟨-, hmark, hquote, hinteger⟩ := alone_of_beginsIdentifier hc
  obtain ⟨htake, hdrop⟩ := takeWhile_append_of_head? hword hrest
  unfold scanToken
  simp [hmark, hquote, hinteger, hc, htake, hdrop]

/-- A string in quotes is scanned whole, whatever follows but another quote. -/
theorem scanToken_string {value rest : List Char} (h : rest.head? ≠ some '\'') :
    scanToken '\'' (doubled value ++ '\'' :: rest) =
      .ok (.string (String.ofList value), 2 + byteLength (doubled value), rest) := by
  unfold scanToken
  rw [scanQuoted_quoted value rest h]
  rfl

/-- What begins a number is no white space and begins no other token. -/
theorem alone_of_beginsInteger (h : beginsInteger c = true) : Text.isBlank c = false ∧
    mark? c = none ∧ c ≠ '\'' := by
  have hnot : ∀ d, beginsInteger d = false → c ≠ d := by
    rintro d hd rfl
    simp [h] at hd
  refine ⟨?_, ?_, hnot _ (by decide)⟩
  · rcases Bool.or_eq_true_iff.mp h with hdigit | hminus
    · have hin := inIdentifier_of_isDigit hdigit
      exact Bool.eq_false_iff.mpr fun hc => by simp [inIdentifier_of_isBlank hc] at hin
    · obtain rfl := beq_iff_eq.mp hminus
      decide
  · -- No mark begins a number, which the table of marks shows.
    refine Option.eq_none_iff_forall_ne_some.mpr fun t ht => ?_
    have hmark : ∀ m ∈ marks, beginsInteger m.1 = false := by decide
    exact hnot c (hmark _ (mem_marks_of_mark? ht)) rfl

/-- A number takes all the digits at the front. -/
theorem scanToken_integer {word : List Char} {value : Int} (hc : beginsInteger c = true)
    (hword : ∀ d ∈ word, d.isDigit = true) (hrest : ∀ d ∈ rest.head?, d.isDigit = false)
    (hread : Decimal.readSigned64 (c :: word) = some value) :
    scanToken c (word ++ rest) = .ok (.integer value, byteLength (c :: word), rest) := by
  obtain ⟨-, hmark, hquote⟩ := alone_of_beginsInteger hc
  obtain ⟨htake, hdrop⟩ := takeWhile_append_of_head? hword hrest
  unfold scanToken
  simp [hmark, hquote, hc, htake, hdrop, hread]

/-- The text of a number begins with a digit or a minus, and goes on with digits. -/
theorem textInt_eq_cons (value : Int) : ∃ c word, (Decimal.textInt value).toList = c :: word ∧
    beginsInteger c = true ∧ ∀ d ∈ word, d.isDigit = true := by
  have hdigits : ∀ d ∈ Decimal.digits value.natAbs, d.isDigit = true :=
    fun _ => Decimal.isDigit_of_mem_digits
  rcases Decimal.textInt_cases value with ⟨htext, -⟩ | ⟨htext, -⟩
  · exact ⟨'-', _, htext, rfl, hdigits⟩
  · obtain ⟨c, word, hcons⟩ := List.exists_cons_of_ne_nil (Decimal.digits_ne_nil value.natAbs)
    rw [hcons] at htext hdigits
    refine ⟨c, word, htext, ?_, fun d hd => hdigits d (List.mem_cons_of_mem _ hd)⟩
    simp [beginsInteger, hdigits c List.mem_cons_self]

/-- A token is scanned from its text, unless it could go on there. -/
theorem scanToken_text (ht : t.isScannable = true) (hrest : t.isMark = true ∨ Ends rest) :
    ∃ c s width, t.text ++ rest = c :: s ∧ Text.isBlank c = false ∧
      scanToken c s = .ok (t, width, rest) := by
  by_cases hmark : t.isMark = true
  · -- A mark is one character, whatever follows it.
    obtain ⟨c, hc⟩ := exists_mem_marks hmark
    obtain ⟨htext, hscan, hblank, -, -⟩ := marks_alone _ hc
    refine ⟨c, rest, c.utf8Size, by rw [htext]; rfl, hblank, ?_⟩
    rw [scanToken, hscan]
  · -- Another token ends where white space or a mark follows, or where the text ends.
    have hends : Ends rest := hrest.resolve_left hmark
    have hin : ∀ d ∈ rest.head?, inIdentifier d = false :=
      fun d hd => inIdentifier_of_isStop (hends d hd)
    have hdigit : ∀ d ∈ rest.head?, d.isDigit = false := fun d hd =>
      Bool.eq_false_iff.mpr (mt inIdentifier_of_isDigit (by simp [hin d hd]))
    cases t with
    | identifier name =>
      simp only [Token.isScannable, isIdentifier] at ht
      split at ht
      next => cases ht
      next c word htext =>
        obtain ⟨hc, hword⟩ := Bool.and_eq_true_iff.mp ht
        have hscan := scanToken_identifier hc (List.all_eq_true.mp hword) hin
        rw [← htext, String.ofList_toList] at hscan
        exact ⟨c, word ++ rest, _, by rw [Token.text, htext]; rfl,
          (alone_of_beginsIdentifier hc).1, hscan⟩
    | string value =>
      have hquote : rest.head? ≠ some '\'' :=
        fun h => ne_quote_of_isStop (hends _ h) rfl
      have hscan := @scanToken_string value.toList rest hquote
      rw [String.ofList_toList] at hscan
      exact ⟨'\'', _, _, by simp [Token.text], by decide, hscan⟩
    | integer value =>
      obtain ⟨c, word, htext, hc, hword⟩ := textInt_eq_cons value
      have hread := Decimal.readSigned64_textInt ht
      rw [htext] at hread
      exact ⟨c, word ++ rest, _, by rw [Token.text, htext]; rfl, (alone_of_beginsInteger hc).1,
        scanToken_integer hc hword hdigit hread⟩
    | openParen | closeParen | openBracket | closeBracket | comma | dot => exact absurd rfl hmark

/-! ### Tokens one after another -/

/-- A token is scanned, and then what follows it. -/
theorem scanFrom_token {c : Char} {s rest : List Char} {t : Token} {width : Nat} (offset : Nat)
    (hblank : Text.isBlank c = false) (h : scanToken c s = .ok (t, width, rest)) :
    scanFrom offset (c :: s) = (scanFrom (offset + width) rest).map ((t, offset) :: ·) := by
  rw [scanFrom, if_neg (by simp [hblank])]
  split
  · next fault hfault => simp [h] at hfault
  · next t' width' rest' hok =>
    cases h.symm.trans hok
    rfl

/-- White space is passed over. -/
theorem scanFrom_gap {gap : List Char} (hgap : ∀ c ∈ gap, Text.isBlank c = true) (offset : Nat)
    (rest : List Char) :
    scanFrom offset (gap ++ rest) = scanFrom (offset + byteLength gap) rest := by
  induction gap generalizing offset with
  | nil => rfl
  | cons c gap ih =>
    rw [List.cons_append, scanFrom, if_pos (hgap c List.mem_cons_self),
      ih fun d hd => hgap d (List.mem_cons_of_mem _ hd), byteLength_cons, Nat.add_assoc]

/-- A token that is no mark ends before white space, before a mark and at the end of the text. -/
theorem Spaced.ends {s : List Char} (h : Spaced ts s) (hts : MarkFirst ts) : Ends s := by
  -- White space is where a token ends, and without white space the mark behind it is.
  have hgap : ∀ gap rest : List Char, (∀ c ∈ gap, Text.isBlank c = true) → Ends rest →
      Ends (gap ++ rest) := by
    rintro (_ | ⟨c, gap⟩) rest hblank hrest
    · exact hrest
    · rintro d hd
      obtain rfl : c = d := by simpa using hd
      simp [isStop, hblank]
  cases h with
  | nil gap hblank => simpa using hgap s [] hblank (by simp [Ends])
  | @cons gap t ts s hblank hs =>
    refine hgap gap _ hblank ?_
    obtain ⟨c, hc⟩ := exists_mem_marks (hts t rfl)
    obtain ⟨htext, hscan, -⟩ := marks_alone _ hc
    rw [htext]
    simp [Ends, isStop, hscan]

/-- A text with white space around its tokens is scanned as these tokens. -/
theorem scanFrom_spaced {s : List Char} (h : Spaced ts s) (hts : ∀ t ∈ ts, t.isScannable = true)
    (hseparated : Separated ts) (offset : Nat) :
    ∃ ps, scanFrom offset s = .ok ps ∧ ps.map Prod.fst = ts := by
  induction h generalizing offset with
  | nil gap hgap =>
    have hnil := scanFrom_gap hgap offset []
    rw [List.append_nil, scanFrom] at hnil
    exact ⟨[], hnil, rfl⟩
  | @cons gap t ts s hgap hs ih =>
    obtain ⟨hhead, hrest⟩ := List.isChain_cons.mp hseparated
    -- The token is a mark, or what follows it is one.
    have hend : t.isMark = true ∨ Ends s := by
      by_cases hmark : t.isMark = true
      · exact Or.inl hmark
      · exact Or.inr (hs.ends fun u hu => (hhead u hu).resolve_left hmark)
    obtain ⟨c, more, width, htext, hblank, hscan⟩ :=
      scanToken_text (hts t List.mem_cons_self) hend
    obtain ⟨ps, hps, htokens⟩ := ih (fun u hu => hts u (List.mem_cons_of_mem _ hu)) hrest
      (offset + byteLength gap + width)
    rw [scanFrom_gap hgap, htext, scanFrom_token _ hblank hscan, hps]
    exact ⟨_, rfl, by rw [List.map_cons, htokens]⟩

end Expression

end Governance
