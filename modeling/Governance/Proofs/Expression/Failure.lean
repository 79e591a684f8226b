import Governance.Proofs.Expression.Reading
import Mathlib.Data.List.Basic

/-!
# `Governance.Proofs.Expression.Failure`: errors are at the first impossible token

The reader takes one token after another, and what it does at a token depends on the tokens before
it alone. So no tokens that are accepted begin with those up to an error
(`not_accepted_of_step`). The tokens before the error are the beginning of accepted ones, because
each state of the reader can be completed, unless the limit of nesting leaves no room for the
expression that has to come next (`State.Full`). `State.completion` is what completes a state.

* `ofChars_failure`: what the offset of an error says about the text and its tokens.
* `scanFrom_offsets`: tokens stand one after another in the text, so that an offset is that of one
  token at most.
-/

set_option autoImplicit false

namespace Governance.Expression

variable {c : Char} {s rest : List Char} {t : Token} {ts us : List Token} {width offset : Nat}
  {ps : List (Token × Nat)} {err : ParseError}

/-! ### Offsets -/

/-- A token takes characters from the front. -/
theorem scanToken_suffix (h : scanToken c s = .ok (t, width, rest)) : rest <:+ s := by
  -- Each kind of token takes a part off the front: nothing behind a mark, the quoted text, digits,
  -- or the characters of an identifier.
  unfold scanToken at h
  split at h
  · cases h
    exact List.suffix_rfl
  split at h
  · split at h
    next value more hquoted =>
      cases h
      rw [eq_doubled_of_scanQuoted hquoted]
      exact (List.suffix_cons _ _).trans (List.suffix_append _ _)
    next => cases h
  split at h
  · simp only at h
    split at h
    · cases h
      exact List.dropWhile_suffix _
    · cases h
  split at h
  · cases h
    exact List.dropWhile_suffix _
  · cases h

/-- The characters of a token, and the bytes that they take. -/
theorem exists_text_of_scanToken (h : scanToken c s = .ok (t, width, rest)) :
    ∃ text, s = text ++ rest ∧ width = c.utf8Size + byteLength text := by
  obtain ⟨text, rfl⟩ := scanToken_suffix h
  have hwidth := scanToken_width h
  rw [byteLength_cons, byteLength_append] at hwidth
  exact ⟨text, rfl, by omega⟩

/-- Tokens stand one after another in the text. -/
theorem scanFrom_offsets (h : scanFrom offset s = .ok ps) :
    ps.Pairwise (fun p q => p.2 < q.2) ∧ ∀ p ∈ ps, offset ≤ p.2 ∧ p.2 < offset + byteLength s := by
  fun_induction scanFrom offset s generalizing ps with
  | case1 offset =>
    cases h
    simp
  | case2 offset c rest hblank ih =>
    obtain ⟨hpairwise, hplaces⟩ := ih h
    refine ⟨hpairwise, fun p hp => ?_⟩
    have hp := hplaces p hp
    rw [byteLength_cons]
    omega
  | case3 => cases h
  | case4 offset c s hblank t width rest htoken ih =>
    cases hrest : scanFrom (offset + width) rest with
    | error fault =>
      rw [hrest] at h
      cases h
    | ok qs =>
      rw [hrest] at h
      cases h
      obtain ⟨hpairwise, hplaces⟩ := ih hrest
      obtain ⟨text, rfl, hwidth⟩ := exists_text_of_scanToken htoken
      have hpos := c.utf8Size_pos
      -- The token has bytes, so those behind it begin later.
      refine ⟨List.pairwise_cons.mpr ⟨fun q hq => ?_, hpairwise⟩, fun p hp => ?_⟩
      · have hq := hplaces q hq
        dsimp only
        omega
      · rw [byteLength_cons, byteLength_append]
        rcases List.mem_cons.mp hp with rfl | hp
        · dsimp only
          omega
        · have hp := hplaces p hp
          omega

/-- The scanner fails at a character of the text. -/
theorem scanFrom_failure (h : scanFrom offset s = .error err) :
    ∃ before c after, s = before ++ c :: after ∧ err.offset = offset + byteLength before := by
  fun_induction scanFrom offset s with
  | case1 => cases h
  | case2 offset c rest hblank ih =>
    obtain ⟨before, d, after, rfl, hoffset⟩ := ih h
    exact ⟨c :: before, d, after, rfl, by rw [hoffset, byteLength_cons, Nat.add_assoc]⟩
  | case3 offset c rest hblank fault hfault =>
    cases h
    exact ⟨[], c, rest, rfl, rfl⟩
  | case4 offset c s hblank t width rest htoken ih =>
    cases hrest : scanFrom (offset + width) rest with
    | error fault =>
      rw [hrest] at h
      cases h
      obtain ⟨text, rfl, hwidth⟩ := exists_text_of_scanToken htoken
      obtain ⟨before, d, after, rfl, hoffset⟩ := ih hrest
      -- The fault is behind the first token, so the bytes of the token are in front of it.
      refine ⟨c :: text ++ before, d, after, by simp, ?_⟩
      rw [hoffset, hwidth, List.cons_append, byteLength_cons, byteLength_append]
      omega
    | ok qs =>
      rw [hrest] at h
      cases h

/-! ### Accepted tokens -/

/-- The reader accepts tokens, wherever in a text they stand. -/
def Accepted (ts : List Token) : Prop :=
  ∃ (stop : Nat) (ps : List (Token × Nat)) (e : Expression),
    ps.map Prod.fst = ts ∧ ofTokens stop ps = .ok e

/-- Tokens are accepted exactly if they lead to a complete expression that stands in nothing. -/
theorem accepted_iff : Accepted ts ↔ ∃ e, steps (.operand []) ts = .ok (.complete e []) := by
  constructor
  · rintro ⟨stop, ps, e, rfl, h⟩
    obtain ⟨s, hsteps, hfinish⟩ := readFrom_eq_ok_iff.mp h
    rw [finish_eq_ok_iff.mp hfinish] at hsteps
    exact ⟨e, hsteps⟩
  · rintro ⟨e, h⟩
    have hfst : (ts.map fun t => (t, 0)).map Prod.fst = ts := by simp [Function.comp_def]
    exact ⟨0, ts.map (·, 0), e, hfst, readFrom_eq_ok_iff.mpr ⟨_, by rwa [hfst], rfl⟩⟩

/-! ### How a state is completed -/

/-- The mark that closes what is open. -/
def Frame.closer : Frame → Token
  | .call _ _ => .closeParen
  | .index _ => .closeBracket

/-- Tokens that complete a state. -/
def State.completion : State → List Token
  | .operand stack => .string "" :: stack.map Frame.closer
  | .callName _ stack => .openParen :: .closeParen :: stack.map Frame.closer
  | .firstArgument _ stack => .closeParen :: stack.map Frame.closer
  | .complete _ stack => stack.map Frame.closer
  | .property _ stack => .identifier "_" :: stack.map Frame.closer

/-- An expression has to come next, and the limit of nesting leaves no room for it. -/
def State.Full : State → Prop
  | .operand stack => stack.length = maxDepth
  | _ => False

/-- All that is open can be closed after an expression. -/
theorem steps_closers (e : Expression) (stack : List Frame) :
    ∃ e', steps (.complete e stack) (stack.map Frame.closer) = .ok (.complete e' []) := by
  induction stack generalizing e with
  | nil => exact ⟨e, rfl⟩
  | cons f stack ih =>
    cases f with
    | call name args => exact ih (.call name (e :: args).reverse)
    | index target => exact ih (.index target e)

/-- A state is completed, unless there is no room. -/
theorem steps_completion {s : State} (h : ¬ s.Full) :
    ∃ e, steps s s.completion = .ok (.complete e []) := by
  -- An operand is still to come in the first case, and an empty text will do. In all others only
  -- brackets are open.
  cases s with
  | operand stack =>
    have hroom : stack.length ≠ maxDepth := h
    obtain ⟨e, he⟩ := steps_closers (.string "") stack
    refine ⟨e, ?_⟩
    rw [State.completion, steps_cons, step, begin, if_neg hroom]
    exact he
  | callName name stack => exact steps_closers (.call name []) stack
  | firstArgument name stack => exact steps_closers (.call name []) stack
  | complete e stack => exact steps_closers e stack
  | property e stack => exact steps_closers (.property e "_") stack

/-- Tokens that lead to a state with room are the beginning of accepted ones. -/
theorem accepted_completion {s : State} (hs : steps (.operand []) ts = .ok s) (h : ¬ s.Full) :
    Accepted (ts ++ s.completion) := by
  obtain ⟨e, he⟩ := steps_completion h
  refine accepted_iff.mpr ⟨e, ?_⟩
  rw [steps_append, hs]
  exact he

/-! ### Errors -/

/-- Where no more expressions can be open, every token is refused for the depth. -/
theorem step_full {s : State} (h : s.Full) (t : Token) : step s t = .error .tooDeep := by
  cases s with
  | operand stack => exact if_pos h
  | callName name stack | firstArgument name stack | complete e stack | property e stack =>
    exact h.elim

/-- There the end of the text is refused for the depth, too. -/
theorem finish_full {s : State} (h : s.Full) : finish s = .error .tooDeep := by
  cases s with
  | operand stack => exact congrArg Except.error (if_pos h)
  | callName name stack | firstArgument name stack | complete e stack | property e stack =>
    exact h.elim

/-- Only the end of an expression is completed by nothing. -/
theorem completion_ne_nil {s : State} {fault : ParseFault} (h : finish s = .error fault) :
    s.completion ≠ [] := by
  cases s with
  | complete e stack =>
    cases stack with
    | nil => cases h
    | cons f stack => simp [State.completion]
  | operand stack | callName name stack | firstArgument name stack | property e stack =>
    simp [State.completion]

/-- No accepted tokens begin with those up to an error. -/
theorem not_accepted_of_step {s : State} {fault : ParseFault}
    (hs : steps (.operand []) ts = .ok s) (h : step s t = .error fault) :
    ¬ Accepted (ts ++ t :: us) := by
  rw [accepted_iff]
  rintro ⟨e, he⟩
  rw [steps_append, hs] at he
  change steps s (t :: us) = _ at he
  rw [steps_cons, h] at he
  cases he

/-- The reader fails at a token, or at the end. -/
theorem readFrom_failure {stop : Nat} {s : State} (h : readFrom stop s ps = .error err) :
    (∃ before t after s', ps = before ++ (t, err.offset) :: after ∧
      steps s (before.map Prod.fst) = .ok s' ∧ step s' t = .error err.fault) ∨
    (err.offset = stop ∧ ∃ s', steps s (ps.map Prod.fst) = .ok s' ∧
      finish s' = .error err.fault) := by
  induction ps generalizing s with
  | nil =>
    rw [readFrom] at h
    cases hfinish : finish s with
    | ok e =>
      rw [hfinish] at h
      cases h
    | error fault =>
      rw [hfinish] at h
      cases h
      -- All tokens were read, and the end is the place of the fault.
      exact Or.inr ⟨rfl, s, rfl, hfinish⟩
  | cons p ps ih =>
    obtain ⟨t, offset⟩ := p
    rw [readFrom] at h
    cases hstep : step s t with
    | error fault =>
      rw [hstep] at h
      cases h
      exact Or.inl ⟨[], t, ps, s, rfl, rfl, hstep⟩
    | ok s₁ =>
      rw [hstep] at h
      rcases ih h with ⟨before, u, after, s', rfl, hbefore, hu⟩ | ⟨hstop, s', hps, hfinish⟩
      · -- The fault is behind the first token, which is one more of those that were read.
        refine Or.inl ⟨(t, offset) :: before, u, after, s', rfl, ?_, hu⟩
        rw [List.map_cons, steps_cons, hstep]
        exact hbefore
      · refine Or.inr ⟨hstop, s', ?_, hfinish⟩
        rw [List.map_cons, steps_cons, hstep]
        exact hps

/-- What an error says about tokens with their offsets in a text that ends at `stop`:

- `place`: it is at a token, or at the end;
- `impossible`: if it is at a token, no accepted tokens begin with those up to and including it;
- `viable`: the tokens before that one are the beginning of accepted ones;
- `unfinished`: if it is at the end, all tokens are a beginning of accepted ones that go on.

An error about the nesting says only the first two. -/
structure PointsAt (err : ParseError) (ps : List (Token × Nat)) (stop : Nat) : Prop where
  place : (∃ t, (t, err.offset) ∈ ps) ∨ err.offset = stop
  impossible : ∀ before t after, ps = before ++ (t, err.offset) :: after →
    ∀ us, ¬ Accepted (before.map Prod.fst ++ t :: us)
  viable : err.fault ≠ .tooDeep → ∀ before t after, ps = before ++ (t, err.offset) :: after →
    ∃ us, Accepted (before.map Prod.fst ++ us)
  unfinished : err.fault ≠ .tooDeep → err.offset = stop →
    ∃ us, us ≠ [] ∧ Accepted (ps.map Prod.fst ++ us)

/-- An offset is that of one token at most. -/
theorem eq_of_offset {before before' after after' : List (Token × Nat)} {t t' : Token}
    {offset : Nat}
    (hps : (before ++ (t, offset) :: after).Pairwise fun p q => p.2 < q.2)
    (h : before ++ (t, offset) :: after = before' ++ (t', offset) :: after') :
    before = before' ∧ t = t' := by
  obtain ⟨-, hafter, hbefore⟩ := List.pairwise_append.mp hps
  have hnotBefore : (t', offset) ∉ before := fun hmem =>
    absurd (hbefore _ hmem (t, offset) List.mem_cons_self) (Nat.lt_irrefl _)
  have hnotAfter : (t', offset) ∉ after := fun hmem =>
    absurd ((List.pairwise_cons.mp hafter).1 _ hmem) (Nat.lt_irrefl _)
  obtain ⟨hbefore, htoken, -⟩ := (List.append_cons_inj_of_notMem hnotBefore hnotAfter).mp h
  exact ⟨hbefore, (Prod.mk.inj htoken).1⟩

/-- An error of the reader is at a token that cannot follow those before it, or at the end of tokens
that could go on. -/
theorem ofTokens_failure {stop : Nat} (hps : ps.Pairwise fun p q => p.2 < q.2)
    (hstop : ∀ p ∈ ps, p.2 < stop) (h : ofTokens stop ps = .error err) : PointsAt err ps stop := by
  rcases readFrom_failure h with ⟨before, t, after, s, rfl, hbefore, hstep⟩ | ⟨hend, s, hs, hfinish⟩
  · -- A token was refused. Offsets grow, so it is the only token at the offset of the error.
    have hmem : (t, err.offset) ∈ before ++ (t, err.offset) :: after := by simp
    have hlt := hstop _ hmem
    refine ⟨Or.inl ⟨t, hmem⟩, ?_, ?_, fun _ hend => absurd hend (Nat.ne_of_lt hlt)⟩
    · intro before' t' after' heq us
      obtain ⟨rfl, rfl⟩ := eq_of_offset hps heq
      exact not_accepted_of_step hbefore hstep
    · intro hfault before' t' after' heq
      obtain ⟨rfl, rfl⟩ := eq_of_offset hps heq
      have hroom : ¬ s.Full := fun hfull => hfault (by simpa [step_full hfull] using hstep.symm)
      exact ⟨_, accepted_completion hbefore hroom⟩
  · -- The end was refused, and no token is there.
    have hnot : ∀ before t after, ps ≠ before ++ (t, err.offset) :: after := by
      rintro before t after rfl
      exact absurd hend (Nat.ne_of_lt (hstop (t, err.offset) (by simp)))
    refine ⟨Or.inr hend, fun before t after heq => absurd heq (hnot before t after),
      fun _ before t after heq => absurd heq (hnot before t after), fun hfault _ => ?_⟩
    have hroom : ¬ s.Full := fun hfull => hfault (by simpa [finish_full hfull] using hfinish.symm)
    exact ⟨s.completion, completion_ne_nil hfinish, accepted_completion hs hroom⟩

/-- An error is at the first character that begins no token, or else at the first token that no
accepted tokens go on with. -/
theorem ofChars_failure {body : List Char} (h : ofChars body = .error err) :
    (∀ ps, scan body = .ok ps → PointsAt err ps (byteLength body)) ∧
    ((∀ ps, scan body ≠ .ok ps) →
      ∃ before c after, body = before ++ c :: after ∧ err.offset = byteLength before) := by
  unfold ofChars at h
  cases hscan : scan body with
  | error fault =>
    rw [hscan] at h
    cases h
    -- The text has no tokens, and the fault is that of the scanner.
    obtain ⟨before, c, after, hbody, hoffset⟩ := scanFrom_failure hscan
    exact ⟨fun ps hps => (by cases hps), fun _ => ⟨before, c, after, hbody, by omega⟩⟩
  | ok ps =>
    rw [hscan] at h
    obtain ⟨hpairwise, hplaces⟩ := scanFrom_offsets hscan
    refine ⟨fun ps' hps => ?_, fun hnot => absurd rfl (hnot ps)⟩
    cases hps
    refine ofTokens_failure hpairwise (fun p hp => ?_) h
    have hplace := hplaces p hp
    omega

/-- In `f('a' 1)` no tokens go on with the number, while the tokens before it can go on. -/
theorem ofChars_failure_comma :
    ofChars "f('a' 1)".toList = .error ⟨6, .expected .comma (.integer 1)⟩ ∧
      (∀ us, ¬ Accepted ([.identifier "f", .openParen, .string "a"] ++ .integer 1 :: us)) ∧
      ∃ us, Accepted ([.identifier "f", .openParen, .string "a"] ++ us) := by
  have hscan : scan "f('a' 1)".toList = .ok [(.identifier "f", 0), (.openParen, 1),
      (.string "a", 2), (.integer 1, 6), (.closeParen, 7)] := by decide +kernel
  have hfails : ofChars "f('a' 1)".toList = .error ⟨6, .expected .comma (.integer 1)⟩ := by
    rw [ofChars, hscan]
    rfl
  have hpoints := (ofChars_failure hfails).1 _ hscan
  have hviable := hpoints.viable (by decide)
  exact ⟨hfails, hpoints.impossible [_, _, _] _ _ rfl, hviable [_, _, _] _ _ rfl⟩

end Governance.Expression
