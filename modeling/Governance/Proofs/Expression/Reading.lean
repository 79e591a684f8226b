import Governance.Proofs.Expression.Grammar
import Mathlib.Logic.ExistsUnique

/-!
# `Governance.Proofs.Expression.Reading`: the reader and the grammar

`Expression.ofTokens` reads tokens with a stack of the calls and indexes that are open. This
module compares it with the grammar (`IsExpression`).

One invariant of a step gives one direction (`State.Follows`): a state holds the tokens that led
to it, and what it holds keeps within the limit of nesting. `steps_follows` is the induction over
tokens. For the other direction, `steps_tokens` reads the tokens of an expression in any state
where an expression may come next.

`ofTokens_reads_grammar` is the main result: the reader gives `e` for tokens exactly when the
grammar gives `e` for them and `e` keeps within the limit. Tokens that are read have one tree, and
the reader gives every tree within the limit.
-/

set_option autoImplicit false

namespace Governance.Expression

variable {s s' : State} {t : Token} {ts : List Token} {stack : List Frame} {e : Expression}

/-- The state after tokens. -/
def steps (s : State) (ts : List Token) : Except ParseFault State := ts.foldlM step s

/-- The first token is read, and then the others from where it leads. -/
theorem steps_cons (s : State) (t : Token) (ts : List Token) :
    steps s (t :: ts) = (step s t).bind (steps · ts) :=
  List.foldlM_cons

/-- Tokens can be read in two parts. -/
theorem steps_append (s : State) (ts us : List Token) :
    steps s (ts ++ us) = (steps s ts).bind (steps · us) :=
  List.foldlM_append

/-- A reading succeeds if no token is refused and the end may stand where they lead. -/
theorem readFrom_eq_ok_iff {stop : Nat} {ts : List (Token × Nat)} :
    readFrom stop s ts = .ok e ↔
      ∃ s', steps s (ts.map Prod.fst) = .ok s' ∧ finish s' = .ok e := by
  induction ts generalizing s with
  | nil =>
    rw [readFrom]
    change _ ↔ ∃ s', Except.ok s = Except.ok s' ∧ _
    cases h : finish s <;> simp [h]
  | cons p rest ih =>
    obtain ⟨t, offset⟩ := p
    rw [readFrom, List.map_cons, steps_cons]
    -- A token that is refused ends both the reading and the steps.
    cases step s t with
    | error fault => simp [Except.bind]
    | ok s₁ => exact ih

/-! ### What a state has read -/

/-- The tokens of an open call or index, up to the expression that comes next. -/
def Frame.written : Frame → List Token
  | .call name args =>
    .identifier name :: .openParen :: args.reverse.flatMap fun arg => tokens arg ++ [.comma]
  | .index target => tokens target ++ [.openBracket]

/-- The tokens of all that is open. -/
def writtenStack : List Frame → List Token
  | [] => []
  | f :: stack => writtenStack stack ++ f.written

/-- The tokens that lead to a state. -/
def State.written : State → List Token
  | .operand stack => writtenStack stack
  | .callName name stack => writtenStack stack ++ [.identifier name]
  | .firstArgument name stack => writtenStack stack ++ [.identifier name, .openParen]
  | .complete e stack => writtenStack stack ++ tokens e
  | .property e stack => writtenStack stack ++ (tokens e ++ [.dot])

/-- The tokens of arguments, the last of them apart. -/
theorem argTokens_concat (args : List Expression) (arg : Expression) :
    argTokens (args ++ [arg]) =
      (args.flatMap fun arg => tokens arg ++ [.comma]) ++ tokens arg := by
  induction args with
  | nil => simp [argTokens, moreTokens]
  | cons a rest ih =>
    have hmore : moreTokens (rest ++ [arg]) = .comma :: argTokens (rest ++ [arg]) := by
      cases rest <;> rfl
    simp [argTokens, hmore, ih]

/-! ### The limit -/

/-- Two lists of arguments need as many levels as the one that needs more. -/
theorem nestArgs_append (as bs : List Expression) :
    nestArgs (as ++ bs) = max (nestArgs as) (nestArgs bs) := by
  induction as with
  | nil => exact (Nat.zero_max _).symm
  | cons a rest ih => rw [List.cons_append, nestArgs, nestArgs, ih, Nat.max_assoc]

/-- The order of arguments does not matter for their levels. -/
theorem nestArgs_reverse (args : List Expression) : nestArgs args.reverse = nestArgs args := by
  induction args with
  | nil => rfl
  | cons arg rest ih =>
    rw [List.reverse_cons, nestArgs_append, ih, nestArgs, nestArgs, nestArgs, Nat.max_zero,
      Nat.max_comm]

/-- The nesting of an open call or index, as far as it was read. -/
def Frame.nest : Frame → Nat
  | .call _ args => 1 + nestArgs args
  | .index target => Expression.nest target

/-- An open call or index needs a level. -/
theorem Frame.nest_pos (f : Frame) : 1 ≤ f.nest := by
  cases f with
  | call name args => exact Nat.le_add_right 1 _
  | index target => exact Expression.nest_pos target

/-- What is open keeps within the limit. -/
def StackFits : List Frame → Prop
  | [] => True
  | f :: stack => stack.length + f.nest ≤ maxDepth ∧ StackFits stack

/-- What a state holds keeps within the limit. -/
def State.Fits : State → Prop
  | .operand stack => StackFits stack
  | .callName _ stack => stack.length < maxDepth ∧ StackFits stack
  | .firstArgument _ stack => stack.length < maxDepth ∧ StackFits stack
  | .complete e stack => stack.length + nest e ≤ maxDepth ∧ StackFits stack
  | .property e stack => stack.length + nest e ≤ maxDepth ∧ StackFits stack

/-- Within the limit no more are open than levels are there. -/
theorem StackFits.length_le (h : StackFits stack) : stack.length ≤ maxDepth := by
  cases stack with
  | nil => exact Nat.zero_le _
  | cons f stack =>
    have hpos := f.nest_pos
    have hle := h.1
    rw [List.length_cons]
    omega

/-! ### One token after another -/

/-- A state that the tokens `ts` lead to. It holds them, and it keeps within the limit. -/
structure State.Follows (s : State) (ts : List Token) : Prop where
  written : s.written = ts
  fits : s.Fits

/-- Only here is the limit compared with the stack: an expression begins at a place that is still
free. -/
theorem begin_follows (hstack : StackFits stack) (h : begin stack t = .ok s') :
    s'.Follows (writtenStack stack ++ [t]) := by
  have hle := hstack.length_le
  unfold begin at h
  split at h
  · cases h
  · rename_i hne
    have hlt : stack.length < maxDepth := Nat.lt_of_le_of_ne hle hne
    split at h <;> cases h <;> exact ⟨rfl, hlt, hstack⟩

/-- An expression that ends leaves the call or index that it stands in, with the token that ends it.
-/
theorem leave_follows (he : stack.length + nest e ≤ maxDepth) (hstack : StackFits stack)
    (h : leave e stack t = .ok s') : s'.Follows (writtenStack stack ++ (tokens e ++ [t])) := by
  unfold leave at h
  split at h
  · cases h
  · rename_i name args rest
    obtain ⟨hcall, hrest⟩ := hstack
    simp only [List.length_cons] at he
    simp only [Frame.nest] at hcall
    -- The call holds one more argument, whichever token follows it.
    have hcall' : rest.length + (1 + nestArgs (e :: args)) ≤ maxDepth := by
      rw [nestArgs]
      omega
    split at h
    · cases h
      refine ⟨?_, ?_, hrest⟩
      · simp [State.written, writtenStack, Frame.written, tokens, argTokens_concat]
      · rwa [nest, nestArgs_reverse]
    · cases h
      refine ⟨?_, hcall', hrest⟩
      simp [State.written, writtenStack, Frame.written]
    · cases h
  · rename_i target rest
    obtain ⟨htarget, hrest⟩ := hstack
    simp only [List.length_cons] at he
    simp only [Frame.nest] at htarget
    split at h
    · cases h
      refine ⟨?_, ?_, hrest⟩
      · simp [State.written, writtenStack, Frame.written, tokens]
      · rw [nest]
        omega
    · cases h

/-- A step adds its token to what was read. -/
theorem step_follows (hs : s.Follows ts) (h : step s t = .ok s') : s'.Follows (ts ++ [t]) := by
  obtain ⟨rfl, hfits⟩ := hs
  cases s with
  | operand stack => exact begin_follows hfits h
  | callName name stack =>
    simp only [step] at h
    split at h
    · cases h
      exact ⟨by simp [State.written], hfits⟩
    · cases h
  | firstArgument name stack =>
    simp only [step] at h
    split at h
    · cases h
      exact ⟨by simp [State.written, tokens, argTokens], hfits⟩
    · -- The first argument is read with the call on the stack.
      have hcall : StackFits (.call name [] :: stack) := hfits
      simpa [State.written, writtenStack, Frame.written] using begin_follows hcall h
  | complete e stack =>
    simp only [step] at h
    split at h
    · cases h
      exact ⟨by simp [State.written], hfits⟩
    · cases h
      exact ⟨by simp [State.written, writtenStack, Frame.written], hfits⟩
    · simpa [State.written] using leave_follows hfits.1 hfits.2 h
  | property e stack =>
    simp only [step] at h
    split at h
    · cases h
      exact ⟨by simp [State.written, tokens], hfits⟩
    · cases h

/-- A run adds its tokens to what was read. -/
theorem steps_follows {us : List Token} (hs : s.Follows ts) (h : steps s us = .ok s') :
    s'.Follows (ts ++ us) := by
  induction us generalizing s ts with
  | nil =>
    cases h
    rwa [List.append_nil]
  | cons t rest ih =>
    rw [steps_cons] at h
    cases hstep : step s t with
    | error fault => simp [hstep, Except.bind] at h
    | ok s₁ =>
      rw [hstep] at h
      -- The first token belongs to those that were read.
      rw [← List.singleton_append, ← List.append_assoc]
      exact ih (step_follows hs hstep) h

/-- The end may stand only behind a complete expression that stands in nothing. -/
theorem finish_eq_ok_iff : finish s = .ok e ↔ s = .complete e [] := by
  constructor
  · intro h
    unfold finish at h
    split at h <;> cases h
    rfl
  · rintro rfl
    rfl

/-! ### Reading the tokens of an expression -/

/-- An expression that keeps within the limit has a free place. -/
theorem length_ne (h : stack.length + nest e ≤ maxDepth) : stack.length ≠ maxDepth := by
  have hpos := nest_pos e
  omega

/-- A token that does not close the call begins its first argument. -/
theorem step_firstArgument (h : t ≠ .closeParen) (name : String) :
    step (.firstArgument name stack) t = step (.operand (.call name [] :: stack)) t := by
  cases t <;> first | rfl | exact absurd rfl h

/-- No expression begins with the end of a call. -/
theorem tokens_eq_cons (e : Expression) : ∃ t us, tokens e = t :: us ∧ t ≠ .closeParen := by
  -- An accessor stands behind its target, so the first token is that of the target.
  cases e with
  | string value => exact ⟨.string value, [], rfl, by simp⟩
  | integer value => exact ⟨.integer value, [], rfl, by simp⟩
  | call name args =>
    exact ⟨.identifier name, .openParen :: (argTokens args ++ [.closeParen]), rfl, by simp⟩
  | property target name =>
    obtain ⟨t, us, htarget, hne⟩ := tokens_eq_cons target
    exact ⟨t, us ++ [.dot, .identifier name], by rw [tokens, htarget, List.cons_append], hne⟩
  | index target i =>
    obtain ⟨t, us, htarget, hne⟩ := tokens_eq_cons target
    exact ⟨t, us ++ .openBracket :: (tokens i ++ [.closeBracket]),
      by rw [tokens, htarget, List.cons_append], hne⟩

/-- The first argument is read as any further one. -/
theorem steps_firstArgument (e : Expression) (name : String) (stack : List Frame)
    (ts : List Token) : steps (.firstArgument name stack) (tokens e ++ ts) =
      steps (.operand (.call name [] :: stack)) (tokens e ++ ts) := by
  obtain ⟨t, us, he, hne⟩ := tokens_eq_cons e
  rw [he, List.cons_append, steps_cons, steps_cons, step_firstArgument hne]

mutual

/-- The tokens of an expression are read where an expression may come next, if the place is high
enough for it. -/
theorem steps_tokens : (e : Expression) → (stack : List Frame) →
    stack.length + nest e ≤ maxDepth →
    steps (.operand stack) (tokens e) = .ok (.complete e stack)
  | .string value, stack, h => by
    rw [tokens, steps_cons, step, begin, if_neg (length_ne h)]
    rfl
  | .integer value, stack, h => by
    rw [tokens, steps_cons, step, begin, if_neg (length_ne h)]
    rfl
  | .call name args, stack, h => by
    rw [tokens, steps_cons, step, begin, if_neg (length_ne h)]
    -- The name was read. The parenthesis leads to the first argument.
    rw [nest, ← Nat.add_assoc] at h
    exact steps_argTokens args name stack h
  | .property target name, stack, h => by
    rw [tokens, steps_append, steps_tokens target stack h]
    rfl
  | .index target i, stack, h => by
    rw [nest] at h
    have htarget : stack.length + nest target ≤ maxDepth := by omega
    have hindex : (Frame.index target :: stack).length + nest i ≤ maxDepth := by
      rw [List.length_cons]
      omega
    rw [tokens, steps_append, steps_tokens target stack htarget]
    -- The bracket puts the target on the stack, and the index is read on top of it.
    change steps (.operand (.index target :: stack)) (tokens i ++ [.closeBracket]) = _
    rw [steps_append, steps_tokens i _ hindex]
    rfl

/-- The arguments of a call with its end. -/
theorem steps_argTokens : (args : List Expression) → (name : String) → (stack : List Frame) →
    stack.length + 1 + nestArgs args ≤ maxDepth →
    steps (.firstArgument name stack) (argTokens args ++ [.closeParen]) =
      .ok (.complete (.call name args) stack)
  | [], name, stack, h => rfl
  | arg :: more, name, stack, h => by
    rw [nestArgs] at h
    have harg : (Frame.call name [] :: stack).length + nest arg ≤ maxDepth := by
      rw [List.length_cons]
      omega
    have hmore : stack.length + 1 + nestArgs more ≤ maxDepth := by omega
    -- The first argument is read as an operand of the call, and what follows it as further
    -- arguments.
    rw [argTokens, List.append_assoc, steps_firstArgument, steps_append, steps_tokens arg _ harg]
    exact steps_moreTokens more name stack arg [] hmore

/-- The further arguments of a call with its end. -/
theorem steps_moreTokens : (more : List Expression) → (name : String) → (stack : List Frame) →
    (arg : Expression) → (args : List Expression) →
    stack.length + 1 + nestArgs more ≤ maxDepth →
    steps (.complete arg (.call name args :: stack)) (moreTokens more ++ [.closeParen]) =
      .ok (.complete (.call name ((arg :: args).reverse ++ more)) stack)
  | [], name, stack, arg, args, h => by
    rw [List.append_nil]
    rfl
  | next :: more, name, stack, arg, args, h => by
    rw [nestArgs] at h
    have hnext : (Frame.call name (arg :: args) :: stack).length + nest next ≤ maxDepth := by
      rw [List.length_cons]
      omega
    have hmore : stack.length + 1 + nestArgs more ≤ maxDepth := by omega
    rw [moreTokens, List.cons_append, List.append_assoc]
    -- The comma adds the argument that was read to those of the call.
    change steps (.operand (.call name (arg :: args) :: stack))
      (tokens next ++ (moreTokens more ++ [.closeParen])) = _
    rw [steps_append, steps_tokens next _ hnext]
    refine (steps_moreTokens more name stack next (arg :: args) hmore).trans ?_
    rw [List.reverse_cons (a := next), List.append_assoc, List.singleton_append]

end

/-! ### The reader -/

/-- The reader gives what the grammar gives within the limit. -/
theorem ofTokens_eq_ok_iff {stop : Nat} {ts : List (Token × Nat)} :
    ofTokens stop ts = .ok e ↔ IsExpression (ts.map Prod.fst) e ∧ nest e ≤ maxDepth := by
  rw [ofTokens, readFrom_eq_ok_iff, isExpression_iff]
  constructor
  · rintro ⟨s', hsteps, hfinish⟩
    obtain rfl := finish_eq_ok_iff.mp hfinish
    -- The reader holds at each state what it has read and keeps it within the limit, so it does at
    -- the end.
    have hstart : (State.operand []).Follows [] := ⟨rfl, trivial⟩
    obtain ⟨hwritten, hfits⟩ := steps_follows hstart hsteps
    refine ⟨?_, ?_⟩
    · simpa [State.written, writtenStack] using hwritten.symm
    · simpa using hfits.1
  · rintro ⟨hts, hnest⟩
    refine ⟨.complete e [], ?_, rfl⟩
    rw [hts]
    exact steps_tokens e [] (by simpa using hnest)

/-- The nesting of an expression is a property of its tokens, and so is whether they are read:
tokens that are read have one tree. -/
theorem existsUnique_isExpression {stop : Nat} {ts : List (Token × Nat)}
    (h : ofTokens stop ts = .ok e) : ∃! e', IsExpression (ts.map Prod.fst) e' := by
  obtain ⟨he, hnest⟩ := ofTokens_eq_ok_iff.mp h
  refine ⟨e, he, fun e' he' => ?_⟩
  -- Another tree of the tokens needs no more places, so the reader gives it too.
  have hnest' : nest e' ≤ maxDepth := by
    rwa [nest_eq_height, ← isExpression_iff.mp he', isExpression_iff.mp he, ← nest_eq_height]
  have h' : ofTokens stop ts = .ok e' := ofTokens_eq_ok_iff.mpr ⟨he', hnest'⟩
  exact Except.ok.inj (h'.symm.trans h)

/-- The reader reads exactly the grammar within the limit. Tokens that are read have one tree, and
each tree within the limit has tokens that are read. -/
theorem ofTokens_reads_grammar :
    (∀ (stop : Nat) (ts : List (Token × Nat)) (e : Expression),
      ofTokens stop ts = .ok e ↔ IsExpression (ts.map Prod.fst) e ∧ nest e ≤ maxDepth) ∧
    (∀ (stop : Nat) (ts : List (Token × Nat)), (∃ e, ofTokens stop ts = .ok e) →
      ∃! e, IsExpression (ts.map Prod.fst) e) ∧
    ∀ e : Expression, nest e ≤ maxDepth → ∃ ts, ∀ stop, ofTokens stop ts = .ok e := by
  refine ⟨fun stop ts e => ofTokens_eq_ok_iff, ?_, ?_⟩
  · rintro stop ts ⟨e, h⟩
    exact existsUnique_isExpression h
  · intro e hnest
    -- The offsets of tokens do not matter, so all of them may be zero.
    refine ⟨(tokens e).map (·, 0), fun stop => ofTokens_eq_ok_iff.mpr ⟨?_, hnest⟩⟩
    rw [List.map_map, isExpression_iff]
    exact List.map_id _

end Governance.Expression
