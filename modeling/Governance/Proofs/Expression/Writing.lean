import Governance.Proofs.Expression.Reading
import Governance.Proofs.Expression.Scanning

/-!
# `Governance.Proofs.Expression.Writing`: expressions are read as they are written

`Expression.tokens` writes an expression, and `Spaced` its tokens as a text with any white space
around them. `parse_spaced` reads such a text, put in brackets, as the expression that was written.
The names in the expression have to be identifiers and its numbers to have 64 bits (`isWritable`),
and its nesting is limited as that of all expressions that are read.

The text can be without any white space because no two tokens with a text of their own are
neighbours in an expression (`separated_tokens`), and it is never a literal because no expression
begins with a mark (`IsExpression.eq_cons`).
-/

set_option autoImplicit false

namespace Governance.Expression

variable {t : Token} {ts : List Token} {e : Expression} {body : List Char}

/-! ### What can be written -/

mutual

/-- Whether an expression can be written: its names are identifiers, and its numbers have 64
bits. -/
def isWritable : Expression → Bool
  | .string _ => true
  | .integer value => Decimal.inSigned64 value
  | .call name args => isIdentifier name && areWritable args
  | .property target name => isWritable target && isIdentifier name
  | .index target i => isWritable target && isWritable i

/-- Whether arguments can be written. -/
def areWritable : List Expression → Bool
  | [] => true
  | arg :: rest => isWritable arg && areWritable rest

end

mutual

/-- The tokens of an expression that can be written can be scanned. -/
theorem isScannable_tokens : (e : Expression) → isWritable e = true →
    ∀ t ∈ tokens e, t.isScannable = true
  | .string value, h, t, ht => by
    obtain rfl := List.mem_singleton.mp ht
    rfl
  | .integer value, h, t, ht => by
    obtain rfl := List.mem_singleton.mp ht
    exact h
  | .call name args, h, t, ht => by
    simp only [isWritable, Bool.and_eq_true] at h
    simp only [tokens, List.mem_cons, List.mem_append, List.not_mem_nil, or_false] at ht
    -- Besides marks there are the name of the function and the tokens of its arguments.
    rcases ht with rfl | rfl | ht | rfl
    · exact h.1
    · rfl
    · exact isScannable_argTokens args h.2 t ht
    · rfl
  | .property target name, h, t, ht => by
    simp only [isWritable, Bool.and_eq_true] at h
    simp only [tokens, List.mem_cons, List.mem_append, List.not_mem_nil, or_false] at ht
    rcases ht with ht | rfl | rfl
    · exact isScannable_tokens target h.1 t ht
    · rfl
    · exact h.2
  | .index target i, h, t, ht => by
    simp only [isWritable, Bool.and_eq_true] at h
    simp only [tokens, List.mem_cons, List.mem_append, List.not_mem_nil, or_false] at ht
    rcases ht with ht | rfl | ht | rfl
    · exact isScannable_tokens target h.1 t ht
    · rfl
    · exact isScannable_tokens i h.2 t ht
    · rfl

/-- The tokens of arguments that can be written can be scanned. -/
theorem isScannable_argTokens : (args : List Expression) → areWritable args = true →
    ∀ t ∈ argTokens args, t.isScannable = true
  | [], h, t, ht => by simp [argTokens] at ht
  | arg :: rest, h, t, ht => by
    simp only [areWritable, Bool.and_eq_true] at h
    rcases List.mem_append.mp ht with ht | ht
    · exact isScannable_tokens arg h.1 t ht
    · exact isScannable_moreTokens rest h.2 t ht

/-- The tokens of further arguments that can be written can be scanned. -/
theorem isScannable_moreTokens : (args : List Expression) → areWritable args = true →
    ∀ t ∈ moreTokens args, t.isScannable = true
  | [], h, t, ht => by simp [moreTokens] at ht
  | arg :: rest, h, t, ht => by
    simp only [areWritable, Bool.and_eq_true] at h
    simp only [moreTokens, List.mem_cons, List.mem_append] at ht
    rcases ht with rfl | ht | ht
    · rfl
    · exact isScannable_tokens arg h.1 t ht
    · exact isScannable_moreTokens rest h.2 t ht

end

/-! ### Neighbours -/

/-- A mark may stand in front of any token. -/
theorem Separated.mark (h : Separated ts) (ht : t.isMark = true) : Separated (t :: ts) :=
  List.isChain_cons.mpr ⟨fun _ _ => Or.inl ht, h⟩

/-- Any token may stand in front of a mark. -/
theorem Separated.cons (h : Separated ts) (hts : MarkFirst ts) (t : Token) : Separated (t :: ts) :=
  List.isChain_cons.mpr ⟨fun u hu => Or.inr (hts u hu), h⟩

/-- Tokens that begin with a mark have a mark first. -/
theorem markFirst_cons (h : t.isMark = true) : MarkFirst (t :: ts) := by
  rintro u hu
  obtain rfl : t = u := by simpa using hu
  exact h

/-- Further arguments begin with a comma. -/
theorem markFirst_moreTokens (args : List Expression) (h : MarkFirst ts) :
    MarkFirst (moreTokens args ++ ts) := by
  cases args with
  | nil => exact h
  | cons arg rest => exact markFirst_cons rfl

mutual

/-- A mark follows each token of an expression that is none, if one follows the expression. -/
theorem separated_tokens : (e : Expression) → (rest : List Token) → Separated rest →
    MarkFirst rest → Separated (tokens e ++ rest)
  | .string value, rest, hrest, hmark => hrest.cons hmark _
  | .integer value, rest, hrest, hmark => hrest.cons hmark _
  | .call name args, rest, hrest, hmark => by
    -- The tokens are put in front of `rest` from the last one on, so what follows each of them is
    -- known.
    have hargs := separated_argTokens args (.closeParen :: rest) (hrest.mark rfl)
      (markFirst_cons rfl)
    simp only [tokens, List.cons_append, List.append_assoc, List.nil_append]
    exact (hargs.mark rfl).cons (markFirst_cons rfl) _
  | .property target name, rest, hrest, hmark => by
    have hname : Separated (.dot :: .identifier name :: rest) := (hrest.cons hmark _).mark rfl
    simp only [tokens, List.append_assoc, List.cons_append, List.nil_append]
    exact separated_tokens target _ hname (markFirst_cons rfl)
  | .index target i, rest, hrest, hmark => by
    have hindex := separated_tokens i (.closeBracket :: rest) (hrest.mark rfl)
      (markFirst_cons rfl)
    simp only [tokens, List.append_assoc, List.cons_append, List.nil_append]
    exact separated_tokens target _ (hindex.mark rfl) (markFirst_cons rfl)

/-- A mark follows each token of arguments that is none, if one follows the arguments. -/
theorem separated_argTokens : (args : List Expression) → (rest : List Token) → Separated rest →
    MarkFirst rest → Separated (argTokens args ++ rest)
  | [], rest, hrest, hmark => hrest
  | arg :: more, rest, hrest, hmark => by
    rw [argTokens, List.append_assoc]
    exact separated_tokens arg _ (separated_moreTokens more rest hrest hmark)
      (markFirst_moreTokens more hmark)

/-- A mark follows each token of further arguments that is none, if one follows the arguments. -/
theorem separated_moreTokens : (args : List Expression) → (rest : List Token) → Separated rest →
    MarkFirst rest → Separated (moreTokens args ++ rest)
  | [], rest, hrest, hmark => hrest
  | arg :: more, rest, hrest, hmark => by
    have harg := separated_tokens arg _ (separated_moreTokens more rest hrest hmark)
      (markFirst_moreTokens more hmark)
    rw [moreTokens, List.cons_append, List.append_assoc]
    exact harg.mark rfl

end

/-! ### The text of an expression -/

/-- No expression begins with a mark. -/
theorem IsExpression.eq_cons (h : IsExpression ts e) :
    ∃ t us, ts = t :: us ∧ t.isMark = false := by
  obtain ⟨hprimary, -⟩ := h
  cases hprimary with
  | string value | integer value | call name hargs => exact ⟨_, _, rfl, rfl⟩

/-- Tokens without any white space. -/
theorem spaced_flatMap (ts : List Token) : Spaced ts (ts.flatMap Token.text) := by
  induction ts with
  | nil => exact .nil [] (by simp)
  | cons t ts ih => exact .cons [] (by simp) ih

/-- An expression that is written with white space between its tokens is scanned as these tokens. -/
theorem scan_spaced (h : Spaced (tokens e) body) (he : isWritable e = true) :
    ∃ ps, scan body = .ok ps ∧ ps.map Prod.fst = tokens e := by
  have hseparated := separated_tokens e [] .nil (by simp [MarkFirst])
  rw [List.append_nil] at hseparated
  exact scanFrom_spaced h (isScannable_tokens e he) hseparated 0

/-- What stands between the brackets is read as the expression. -/
theorem ofChars_spaced (h : Spaced (tokens e) body) (he : isWritable e = true)
    (hnest : nest e ≤ maxDepth) : ofChars body = .ok e := by
  obtain ⟨ps, hps, htokens⟩ := scan_spaced h he
  rw [ofChars, hps]
  exact ofTokens_eq_ok_iff.mpr ⟨isExpression_iff.mpr htokens, hnest⟩

/-- A second bracket at the front would be scanned as a token of its own. -/
theorem head?_of_spaced (h : Spaced (tokens e) body) (he : isWritable e = true) :
    body.head? ≠ some '[' := by
  intro hhead
  obtain ⟨rest, rfl⟩ := List.head?_eq_some_iff.mp hhead
  obtain ⟨ps, hps, htokens⟩ := scan_spaced h he
  obtain ⟨t, us, hfirst, hmark⟩ := (isExpression_tokens e).eq_cons
  -- A bracket would be the first token, but no expression begins with a mark.
  rw [scan, scanFrom_token (c := '[') 0 (by decide) rfl] at hps
  cases hrest : scanFrom (0 + '['.utf8Size) rest with
  | error fault =>
    rw [hrest] at hps
    cases hps
  | ok qs =>
    rw [hrest] at hps
    cases hps
    rw [hfirst] at htokens
    cases htokens
    cases hmark

/-- A text between brackets is an expression, unless a second bracket makes it a literal. -/
theorem body?_of_toList {s : String} {body : List Char} (h : s.toList = '[' :: (body ++ [']']))
    (hbody : body.head? ≠ some '[') : body? s = some body := by
  unfold body?
  rw [h]
  split
  · -- Two brackets at the front would make the text a literal.
    rename_i rest heq
    cases body with
    | nil => simp at heq
    | cons c more =>
      cases heq
      exact absurd rfl hbody
  · rename_i rest _ heq
    cases heq
    rw [if_pos (by simp), List.dropLast_concat]
  · rename_i hne
    exact absurd rfl (hne _)

/-- Parsing undoes writing: an expression within the limit of nesting is read from its tokens in
brackets, with any white space around each token. -/
theorem parse_spaced (h : Spaced (tokens e) body) (he : isWritable e = true)
    (hnest : nest e ≤ maxDepth) : parse ("[" ++ String.ofList body ++ "]") = .ok e := by
  have hbody : body? ("[" ++ String.ofList body ++ "]") = some body :=
    body?_of_toList (by simp [String.toList_append]) (head?_of_spaced h he)
  rw [parse, hbody]
  exact ofChars_spaced h he hnest

namespace Sample

/-- An item of a property of a call. -/
def accessedCall : Expression :=
  .index (.property (.call "concat" [.string "it's", .integer (-9223372036854775808)]) "größe")
    (.integer 0)

/-- The call, written with spaces, a tab and a no-break space, and with none. -/
def accessedText : List Char :=
  "concat\t( 'it''s',-9223372036854775808\u00a0) .größe[0 ]  ".toList

end Sample

/-- A quote in a string, a letter beyond ASCII in a name and the least number are read back. -/
theorem parse_spaced_accessedCall :
    Spaced (tokens Sample.accessedCall) Sample.accessedText ∧
      isWritable Sample.accessedCall = true ∧ nest Sample.accessedCall ≤ maxDepth ∧
      parse ("[" ++ String.ofList Sample.accessedText ++ "]") = .ok Sample.accessedCall := by
  have hspace : Text.isBlank ' ' = true := by decide
  have htab : Text.isBlank '\t' = true := by decide
  have hnoBreak : Text.isBlank '\u00a0' = true := by decide
  have hspaced : Spaced (tokens Sample.accessedCall) Sample.accessedText :=
    .cons [] (by simp) <| .cons ['\t'] (by simp [htab]) <| .cons [' '] (by simp [hspace]) <|
    .cons [] (by simp) <| .cons [] (by simp) <| .cons ['\u00a0'] (by simp [hnoBreak]) <|
    .cons [' '] (by simp [hspace]) <| .cons [] (by simp) <| .cons [] (by simp) <|
    .cons [] (by simp) <| .cons [' '] (by simp [hspace]) <| .nil [' ', ' '] (by simp [hspace])
  have he : isWritable Sample.accessedCall = true := by decide +kernel
  have hnest : nest Sample.accessedCall ≤ maxDepth := by decide
  exact ⟨hspaced, he, hnest, parse_spaced hspaced he hnest⟩

end Governance.Expression
