import Governance.Expression.Tree

/-!
# `Governance.Proofs.Expression.Grammar`: the grammar of expressions

`IsExpression ts e` says that the grammar reads the tokens `ts` as the expression `e`. It is the
grammar that is written in `Governance.Expression.Tree`, with a relation for each of its parts.

* `isExpression_iff`: the grammar gives each expression the tokens that `Expression.tokens`
  writes, and no others.
* `nest_eq_height`: the nesting of an expression can be read off its tokens. It is the greatest
  number of open brackets in front of an operand, plus one (`height`).
-/

set_option autoImplicit false

namespace Governance.Expression

/-! ### The grammar -/

mutual

/-- `expression := primary accessor*` -/
inductive IsExpression : List Token → Expression → Prop
  | intro {ts us : List Token} {p e : Expression} :
    IsPrimary ts p → HasAccessors p us e → IsExpression (ts ++ us) e

/-- `primary := STRING | INTEGER | IDENTIFIER '(' arguments ')'` -/
inductive IsPrimary : List Token → Expression → Prop
  | string (value : String) : IsPrimary [.string value] (.string value)
  | integer (value : Int) : IsPrimary [.integer value] (.integer value)
  | call (name : String) {ts : List Token} {args : List Expression} : AreArguments ts args →
    IsPrimary (.identifier name :: .openParen :: (ts ++ [.closeParen])) (.call name args)

/-- `arguments := (expression more)?` -/
inductive AreArguments : List Token → List Expression → Prop
  | none : AreArguments [] []
  | some {ts us : List Token} {arg : Expression} {rest : List Expression} :
    IsExpression ts arg → AreMore us rest → AreArguments (ts ++ us) (arg :: rest)

/-- `more := (',' expression)*` -/
inductive AreMore : List Token → List Expression → Prop
  | nil : AreMore [] []
  | cons {ts us : List Token} {arg : Expression} {rest : List Expression} :
    IsExpression ts arg → AreMore us rest → AreMore (.comma :: (ts ++ us)) (arg :: rest)

/-- `accessor*`: the accessors lead from one expression to another one. -/
inductive HasAccessors : Expression → List Token → Expression → Prop
  | nil (e : Expression) : HasAccessors e [] e
  | snoc {ts us : List Token} {e e' e'' : Expression} :
    HasAccessors e ts e' → IsAccessor e' us e'' → HasAccessors e (ts ++ us) e''

/-- `accessor := '.' IDENTIFIER | '[' expression ']'` -/
inductive IsAccessor : Expression → List Token → Expression → Prop
  | property (e : Expression) (name : String) :
    IsAccessor e [.dot, .identifier name] (.property e name)
  | index (e : Expression) {ts : List Token} {i : Expression} : IsExpression ts i →
    IsAccessor e (.openBracket :: (ts ++ [.closeBracket])) (.index e i)

end

/-! ### The tokens that the grammar gives -/

mutual

/-- An expression of the grammar has the tokens that it writes. -/
theorem IsExpression.eq_tokens {ts : List Token} {e : Expression} :
    IsExpression ts e → ts = tokens e
  | .intro hprimary haccessors => by rw [hprimary.eq_tokens, haccessors.tokens_eq]

/-- A primary expression of the grammar has the tokens that it writes. -/
theorem IsPrimary.eq_tokens {ts : List Token} {e : Expression} :
    IsPrimary ts e → ts = tokens e
  | .string _ => rfl
  | .integer _ => rfl
  | .call _ hargs => by rw [hargs.eq_tokens, tokens]

/-- Arguments of the grammar have the tokens that they write. -/
theorem AreArguments.eq_tokens {ts : List Token} {args : List Expression} :
    AreArguments ts args → ts = argTokens args
  | .none => rfl
  | .some harg hrest => by rw [harg.eq_tokens, hrest.eq_tokens, argTokens]

/-- Further arguments of the grammar have the tokens that they write, each behind a comma. -/
theorem AreMore.eq_tokens {ts : List Token} {args : List Expression} :
    AreMore ts args → ts = moreTokens args
  | .nil => rfl
  | .cons harg hrest => by rw [harg.eq_tokens, hrest.eq_tokens, moreTokens]

/-- Accessors add their own tokens to those of the expression in front. -/
theorem HasAccessors.tokens_eq {ts : List Token} {e e' : Expression} :
    HasAccessors e ts e' → tokens e' = tokens e ++ ts
  | .nil _ => by rw [List.append_nil]
  | .snoc hrest haccessor => by
    rw [haccessor.tokens_eq, hrest.tokens_eq, List.append_assoc]

/-- One accessor adds its own tokens to those of the expression in front. -/
theorem IsAccessor.tokens_eq {ts : List Token} {e e' : Expression} :
    IsAccessor e ts e' → tokens e' = tokens e ++ ts
  | .property _ _ => by rw [tokens]
  | .index _ hindex => by rw [tokens, hindex.eq_tokens]

end

/-- An expression with one more accessor. -/
theorem IsExpression.accessor {ts us : List Token} {e e' : Expression} (h : IsExpression ts e)
    (haccessor : IsAccessor e us e') : IsExpression (ts ++ us) e' := by
  obtain ⟨hprimary, haccessors⟩ := h
  rw [List.append_assoc]
  exact .intro hprimary (.snoc haccessors haccessor)

/-- A primary expression is an expression without accessors. -/
theorem IsPrimary.isExpression {ts : List Token} {e : Expression} (h : IsPrimary ts e) :
    IsExpression ts e :=
  List.append_nil ts ▸ .intro h (.nil e)

mutual

/-- The tokens of an expression are read as this expression. -/
theorem isExpression_tokens : (e : Expression) → IsExpression (tokens e) e
  | .string value => (IsPrimary.string value).isExpression
  | .integer value => (IsPrimary.integer value).isExpression
  | .call name args => (IsPrimary.call name (areArguments_argTokens args)).isExpression
  | .property target name => (isExpression_tokens target).accessor (.property target name)
  | .index target i =>
    (isExpression_tokens target).accessor (.index target (isExpression_tokens i))

/-- What arguments write is arguments in the grammar. -/
theorem areArguments_argTokens : (args : List Expression) → AreArguments (argTokens args) args
  | [] => .none
  | arg :: rest => .some (isExpression_tokens arg) (areMore_moreTokens rest)

/-- What further arguments write is such arguments in the grammar. -/
theorem areMore_moreTokens : (args : List Expression) → AreMore (moreTokens args) args
  | [] => .nil
  | arg :: rest => .cons (isExpression_tokens arg) (areMore_moreTokens rest)

end

/-- The grammar gives an expression its tokens and no others. -/
theorem isExpression_iff {ts : List Token} {e : Expression} :
    IsExpression ts e ↔ ts = tokens e :=
  ⟨IsExpression.eq_tokens, fun h => h ▸ isExpression_tokens e⟩

/-! ### Nesting -/

/-- Every expression needs a level. -/
theorem nest_pos (e : Expression) : 1 ≤ nest e := by
  cases e with
  | string value => exact Nat.le_refl 1
  | integer value => exact Nat.le_refl 1
  | call name args => exact Nat.le_add_right 1 _
  | property target name => exact nest_pos target
  | index target i => exact Nat.le_trans (nest_pos target) (Nat.le_max_left _ _)

/-- The greatest number of brackets that are open at an operand among the tokens, plus one. `depth`
brackets are open in front of the tokens. -/
def height (depth : Nat) : List Token → Nat
  | [] => 0
  | .openParen :: ts => height (depth + 1) ts
  | .openBracket :: ts => height (depth + 1) ts
  | .closeParen :: ts => height (depth - 1) ts
  | .closeBracket :: ts => height (depth - 1) ts
  | .comma :: ts => height depth ts
  | .dot :: ts => height depth ts
  | _ :: ts => max (depth + 1) (height depth ts)

mutual

/-- An expression adds its nesting to the brackets that are open in front of it. -/
theorem height_tokens : (e : Expression) → (depth : Nat) → (rest : List Token) →
    height depth (tokens e ++ rest) = max (depth + nest e) (height depth rest)
  | .string value, depth, rest => rfl
  | .integer value, depth, rest => rfl
  | .call name args, depth, rest => by
    -- The bracket of the call opens a level for the arguments, and the closing one ends it.
    have hargs := height_argTokens args (depth + 1) (.closeParen :: rest)
    simp only [height, Nat.add_sub_cancel] at hargs
    simp only [tokens, List.cons_append, List.append_assoc, List.nil_append, height, nest]
    omega
  | .property target name, depth, rest => by
    have htarget := height_tokens target depth (.dot :: .identifier name :: rest)
    have hpos := nest_pos target
    simp only [tokens, List.append_assoc, List.cons_append, List.nil_append, htarget, height,
      nest]
    omega
  | .index target i, depth, rest => by
    have htarget := height_tokens target depth
      (.openBracket :: (tokens i ++ .closeBracket :: rest))
    -- The index stands one level deeper than what it is taken of.
    have hindex := height_tokens i (depth + 1) (.closeBracket :: rest)
    simp only [tokens, List.append_assoc, List.cons_append, List.nil_append, htarget, hindex,
      height, nest, Nat.add_sub_cancel]
    omega

/-- Arguments add their nesting as well. There may be none of them, so `depth` stands on both
sides. -/
theorem height_argTokens : (args : List Expression) → (depth : Nat) → (rest : List Token) →
    max depth (height depth (argTokens args ++ rest)) =
      max (depth + nestArgs args) (height depth rest)
  | [], depth, rest => rfl
  | arg :: more, depth, rest => by
    have harg := height_tokens arg depth (moreTokens more ++ rest)
    have hmore := height_moreTokens more depth rest
    simp only [argTokens, List.append_assoc, nestArgs]
    omega

/-- Further arguments add their nesting as well. -/
theorem height_moreTokens : (args : List Expression) → (depth : Nat) → (rest : List Token) →
    max depth (height depth (moreTokens args ++ rest)) =
      max (depth + nestArgs args) (height depth rest)
  | [], depth, rest => rfl
  | arg :: more, depth, rest => by
    have harg := height_tokens arg depth (moreTokens more ++ rest)
    have hmore := height_moreTokens more depth rest
    simp only [moreTokens, List.cons_append, List.append_assoc, nestArgs, height]
    omega

end

/-- The tokens of an expression tell its nesting. -/
theorem nest_eq_height (e : Expression) : nest e = height 0 (tokens e) := by
  have h := height_tokens e 0 []
  simp only [List.append_nil, height] at h
  omega

end Governance.Expression
