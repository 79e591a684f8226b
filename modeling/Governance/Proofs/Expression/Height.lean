import Governance.Proofs.Expression.ParameterCall

/-!
# `Governance.Proofs.Expression.Height`: how deep evaluation goes

Evaluation calls itself for each part of an expression, so it goes as deep as the tree is high.
The reader limits the number of calls and indexes that are open at one place (`nest`). It does not
count accessors that follow one another: each of them makes the tree higher and is closed again.

`IsPart p n k e` says where a part stands: inside `n` calls and indexes, and before `k` accessors.
The reader bounds `n` alone, and the height is about `n + k`. `treeHeight_of_parse` brings together
what follows for the trees that are read:

* `treeHeight_le_iff`: the height keeps within a bound exactly if each part has `n + k` below it.
* `treeHeight_le`: a tree is at most as high as its nesting times the length of its longest chain
  of accessors, one added to it.
* `valueWithin_eq_limited`: evaluation with a limit on its depth (`valueWithin`) gives the value
  wherever the limit is not below the height.

No limit is enough for all texts (`exists_exhausted`). Chains of every length are read
(`parse_chainText`), and a chain needs a limit above its length (`valueWithin_eq_exhausted`).
-/

set_option autoImplicit false

namespace Governance.Expression

/-! ### Heights -/

mutual

/-- The number of expressions on the longest way from an expression down to one of its parts. -/
def treeHeight : Expression → Nat
  | .string _ => 1
  | .integer _ => 1
  | .call _ args => 1 + treeHeights args
  | .property target _ => 1 + treeHeight target
  | .index target i => 1 + max (treeHeight target) (treeHeight i)

/-- The greatest height among arguments. -/
def treeHeights : List Expression → Nat
  | [] => 0
  | arg :: rest => max (treeHeight arg) (treeHeights rest)

end

/-- `p` is a part of an expression: it stands inside `n` calls and indexes of it, and is the
target of `k` accessors. -/
inductive IsPart (p : Expression) : Nat → Nat → Expression → Prop
  | whole : IsPart p 0 0 p
  | argument {n k : Nat} {arg : Expression} {args : List Expression} (name : String) :
    arg ∈ args → IsPart p n k arg → IsPart p (n + 1) k (.call name args)
  | propertyTarget {n k : Nat} {target : Expression} (name : String) :
    IsPart p n k target → IsPart p n (k + 1) (.property target name)
  | indexTarget {n k : Nat} {target : Expression} (i : Expression) :
    IsPart p n k target → IsPart p n (k + 1) (.index target i)
  | index {n k : Nat} {i : Expression} (target : Expression) :
    IsPart p n k i → IsPart p (n + 1) k (.index target i)

/-- Every expression is as high as one at least. -/
theorem treeHeight_pos (e : Expression) : 1 ≤ treeHeight e := by
  cases e with
  | string value | integer value => exact Nat.le_refl 1
  | call name args | property target name | index target i => exact Nat.le_add_right 1 _

/-- No argument is higher than the arguments are together. -/
theorem treeHeight_le_of_mem {arg : Expression} {args : List Expression} (h : arg ∈ args) :
    treeHeight arg ≤ treeHeights args := by
  induction args with
  | nil => simp at h
  | cons a rest ih =>
    rcases List.mem_cons.mp h with rfl | h
    · exact Nat.le_max_left _ _
    · exact Nat.le_trans (ih h) (Nat.le_max_right _ _)

/-- No argument needs more levels than the arguments do together. -/
theorem nest_le_of_mem {arg : Expression} {args : List Expression} (h : arg ∈ args) :
    nest arg ≤ nestArgs args := by
  induction args with
  | nil => simp at h
  | cons a rest ih =>
    rcases List.mem_cons.mp h with rfl | h
    · exact Nat.le_max_left _ _
    · exact Nat.le_trans (ih h) (Nat.le_max_right _ _)

/-- The nesting counts the calls and indexes around each part. -/
theorem IsPart.add_nest_le {p e : Expression} {n k : Nat} (h : IsPart p n k e) :
    n + nest p ≤ nest e := by
  induction h with
  | whole => exact Nat.le_of_eq (Nat.zero_add _)
  | argument name harg _ ih =>
    have hargs := nest_le_of_mem harg
    rw [nest]
    omega
  | propertyTarget name _ ih => rwa [nest]
  | indexTarget i _ ih | index target _ ih =>
    rw [nest]
    omega

/-- The height counts the accessors on the way to each part, too. -/
theorem IsPart.add_treeHeight_le {p e : Expression} {n k : Nat} (h : IsPart p n k e) :
    n + k + treeHeight p ≤ treeHeight e := by
  induction h with
  | whole => exact Nat.le_of_eq (Nat.zero_add _)
  | argument name harg _ ih =>
    have hargs := treeHeight_le_of_mem harg
    rw [treeHeight]
    omega
  | propertyTarget name _ ih | indexTarget i _ ih | index target _ ih =>
    rw [treeHeight]
    omega

mutual

/-- At the end of the longest way down stands a part. -/
theorem exists_isPart : (e : Expression) → ∃ p n k, IsPart p n k e ∧ n + k + 1 = treeHeight e
  | .string value => ⟨.string value, 0, 0, .whole, rfl⟩
  | .integer value => ⟨.integer value, 0, 0, .whole, rfl⟩
  | .call name args => by
    rcases exists_isPart_of_mem args with rfl | ⟨arg, harg, p, n, k, hp, hheight⟩
    · exact ⟨.call name [], 0, 0, .whole, rfl⟩
    · refine ⟨p, n + 1, k, .argument name harg hp, ?_⟩
      rw [treeHeight, ← hheight]
      omega
  | .property target name => by
    obtain ⟨p, n, k, hp, hheight⟩ := exists_isPart target
    refine ⟨p, n, k + 1, .propertyTarget name hp, ?_⟩
    rw [treeHeight, ← hheight]
    omega
  | .index target i => by
    obtain ⟨p, n, k, hp, hheight⟩ := exists_isPart target
    obtain ⟨p', n', k', hp', hheight'⟩ := exists_isPart i
    rw [treeHeight]
    -- The higher of the two sides has the part.
    by_cases hle : treeHeight target ≤ treeHeight i
    · exact ⟨p', n' + 1, k', .index target hp', by omega⟩
    · exact ⟨p, n, k + 1, .indexTarget i hp, by omega⟩

/-- Some argument reaches down as far as the arguments do together, if there are any. -/
theorem exists_isPart_of_mem : (args : List Expression) → args = [] ∨
    ∃ arg ∈ args, ∃ p n k, IsPart p n k arg ∧ n + k + 1 = treeHeights args
  | [] => Or.inl rfl
  | arg :: rest => by
    obtain ⟨p, n, k, hp, hheight⟩ := exists_isPart arg
    have hmore := exists_isPart_of_mem rest
    rw [treeHeights]
    by_cases hle : treeHeights rest ≤ treeHeight arg
    · exact Or.inr ⟨arg, List.mem_cons_self, p, n, k, hp, by omega⟩
    · rcases hmore with rfl | ⟨arg', harg, p', n', k', hp', hheight'⟩
      · exact absurd (Nat.zero_le _) hle
      · exact Or.inr ⟨arg', List.mem_cons_of_mem _ harg, p', n', k', hp', by omega⟩

end

/-- The height keeps within a bound exactly if the way down to each part is shorter. -/
theorem treeHeight_le_iff {e : Expression} {bound : Nat} :
    treeHeight e ≤ bound ↔ ∀ p n k, IsPart p n k e → n + k < bound := by
  constructor
  · intro h p n k hp
    have hpart := hp.add_treeHeight_le
    have hpos := treeHeight_pos p
    omega
  · intro h
    obtain ⟨p, n, k, hp, hheight⟩ := exists_isPart e
    have hpart := h p n k hp
    omega

/-! ### Chains of accessors -/

/-- The number of accessors at the end of an expression. -/
def accessors : Expression → Nat
  | .string _ => 0
  | .integer _ => 0
  | .call _ _ => 0
  | .property target _ => accessors target + 1
  | .index target _ => accessors target + 1

mutual

/-- The greatest number of accessors that follow one another anywhere in an expression. -/
def longestChain : Expression → Nat
  | .string _ => 0
  | .integer _ => 0
  | .call _ args => longestChains args
  | .property target _ => max (accessors target + 1) (longestChain target)
  | .index target i =>
    max (max (accessors target + 1) (longestChain target)) (longestChain i)

/-- The greatest number of accessors that follow one another among arguments. -/
def longestChains : List Expression → Nat
  | [] => 0
  | arg :: rest => max (longestChain arg) (longestChains rest)

end

/-- The accessors at the end of an expression are a chain in it. -/
theorem accessors_le_longestChain (e : Expression) : accessors e ≤ longestChain e := by
  cases e with
  | string value | integer value | call name args => exact Nat.zero_le _
  | property target name => exact Nat.le_max_left _ _
  | index target i => exact Nat.le_trans (Nat.le_max_left _ _) (Nat.le_max_left _ _)

mutual

/-- Each level of nesting adds a chain of accessors and one expression more. On the outermost level
only the accessors at the end count: `limit` stands for those of a whole chain, on both sides. -/
theorem treeHeight_add_le {limit : Nat} : (e : Expression) → longestChain e ≤ limit →
    treeHeight e + limit ≤ accessors e + nest e * (limit + 1)
  | .string _, _ => by
    simp only [treeHeight, accessors, nest]
    omega
  | .integer _, _ => by
    simp only [treeHeight, accessors, nest]
    omega
  | .call _ args, h => by
    have hargs := treeHeights_le args h
    simp only [treeHeight, accessors, nest, Nat.add_mul]
    omega
  | .property target _, h => by
    have htarget := treeHeight_add_le target (Nat.le_trans (Nat.le_max_right _ _) h)
    simp only [treeHeight, accessors, nest]
    omega
  | .index target i, h => by
    simp only [longestChain, Nat.max_le] at h
    -- The index may be the higher part. Its own chain is no longer than `limit`, and its nesting is
    -- one less than that of the whole.
    have htarget := treeHeight_add_le target h.1.2
    have hindex := treeHeight_add_le i h.2
    have hchain := Nat.le_trans (accessors_le_longestChain i) h.2
    have hleft : nest target * (limit + 1) ≤ nest (.index target i) * (limit + 1) :=
      Nat.mul_le_mul_right _ (Nat.le_max_left _ _)
    have hright : (1 + nest i) * (limit + 1) ≤ nest (.index target i) * (limit + 1) :=
      Nat.mul_le_mul_right _ (Nat.le_max_right _ _)
    rw [Nat.add_mul] at hright
    simp only [treeHeight, accessors]
    omega

/-- Arguments have no chain behind them, so each level of theirs adds a full chain at most. -/
theorem treeHeights_le {limit : Nat} : (args : List Expression) → longestChains args ≤ limit →
    treeHeights args ≤ nestArgs args * (limit + 1)
  | [], _ => Nat.zero_le _
  | arg :: rest, h => by
    simp only [longestChains, Nat.max_le] at h
    have harg := treeHeight_add_le arg h.1
    -- The accessors at the end of the argument are counted as a full chain.
    have hchain := Nat.le_trans (accessors_le_longestChain arg) h.1
    have hrest := treeHeights_le rest h.2
    have hleft : nest arg * (limit + 1) ≤ nestArgs (arg :: rest) * (limit + 1) :=
      Nat.mul_le_mul_right _ (Nat.le_max_left _ _)
    have hright : nestArgs rest * (limit + 1) ≤ nestArgs (arg :: rest) * (limit + 1) :=
      Nat.mul_le_mul_right _ (Nat.le_max_right _ _)
    simp only [treeHeights]
    omega

end

/-- A tree is as high as its nesting allows, where each level may have a chain of accessors. -/
theorem treeHeight_le (e : Expression) : treeHeight e ≤ nest e * (longestChain e + 1) := by
  have h := treeHeight_add_le e (Nat.le_refl _)
  have hchain := accessors_le_longestChain e
  omega

/-! ### Evaluation with a limit -/

/-- What evaluation gives that may run out of calls: nothing, an error or a value. -/
abbrev Limited (α : Type) : Type := ExceptT ExpressionError Option α

/-- There are no calls left. -/
def exhausted {α : Type} : Limited α := ExceptT.mk none

/-- The result of an evaluation that is through. -/
def limited {α : Type} (x : Except ExpressionError α) : Limited α := ExceptT.mk (some x)

/-- Steps without a limit are steps with one that is not reached. -/
theorem limited_bind {α β : Type} (x : Except ExpressionError α)
    (f : α → Except ExpressionError β) :
    limited (x >>= f) = limited x >>= fun a => limited (f a) := by
  cases x <;> rfl

/-- Once the limit is reached, nothing follows. -/
theorem exhausted_bind {α β : Type} (f : α → Limited β) : exhausted >>= f = exhausted := rfl

/-- The value of an expression, where no more than `limit` calls of the evaluation may be open at
a time. -/
def valueWithin (env : Environment) : Nat → Expression → Limited Json
  | 0, _ => exhausted
  | _ + 1, .string s => limited (.ok (.string s))
  | _ + 1, .integer i => limited (.ok (.number (.integer i)))
  | limit + 1, .property target name => do
    limited (propertyOf (← valueWithin env limit target) name)
  | limit + 1, .index target i => do
    let target ← valueWithin env limit target
    limited (indexOf target (← valueWithin env limit i))
  | limit + 1, .call name args =>
    if isConditional name then
      match args with
      | [condition, yes, no] => do
        match ← valueWithin env limit condition with
        | .bool true => valueWithin env limit yes
        | .bool false => valueWithin env limit no
        | _ => limited (.error (.type name (.argument 0 .boolean)))
      | _ => limited (.error (.arity name (.exactly 3) args.length))
    else do limited (callValue env name (← args.mapM (valueWithin env limit)))

/-- The arguments are evaluated from the left. -/
theorem mapM_valueWithin {env : Environment} {limit : Nat} {args : List Expression}
    (h : ∀ arg ∈ args, valueWithin env limit arg = limited (value env arg)) :
    args.mapM (valueWithin env limit) = limited (values env args) := by
  induction args with
  | nil => rfl
  | cons arg rest ih =>
    rw [List.mapM_cons, h arg List.mem_cons_self, ih fun a ha => h a (List.mem_cons_of_mem _ ha),
      values, limited_bind]
    congr 1
    funext v
    rw [limited_bind]
    rfl

/-- The parts of a call are evaluated with one call less. -/
theorem valueWithin_call {env : Environment} {limit : Nat} (name : String)
    {args : List Expression}
    (h : ∀ arg ∈ args, valueWithin env limit arg = limited (value env arg)) :
    valueWithin env (limit + 1) (.call name args) = limited (value env (.call name args)) := by
  unfold valueWithin value
  split
  · -- Only a call with three arguments is evaluated further.
    rcases args with _ | ⟨condition, _ | ⟨yes, _ | ⟨no, _ | ⟨more, rest⟩⟩⟩⟩
    · rfl
    · rfl
    · rfl
    · dsimp only
      rw [h condition (by simp), h yes (by simp), h no (by simp), limited_bind]
      congr 1
      funext v
      cases v with
      | bool b => cases b <;> rfl
      | _ => rfl
    · rfl
  · rw [mapM_valueWithin h, limited_bind]

/-- Evaluation goes no deeper than the tree is high. -/
theorem valueWithin_eq_limited (env : Environment) {limit : Nat} {e : Expression}
    (h : treeHeight e ≤ limit) : valueWithin env limit e = limited (value env e) := by
  -- The limit falls by one from an expression to its parts, and so does the height that is left.
  induction limit generalizing e with
  | zero => cases e <;> simp [treeHeight] at h
  | succ limit ih =>
    cases e with
    | string s => rfl
    | integer i => rfl
    | property target name =>
      simp only [treeHeight] at h
      rw [valueWithin, value, ih (by omega), limited_bind]
    | index target i =>
      simp only [treeHeight] at h
      have htarget : treeHeight target ≤ limit := by omega
      have hindex : treeHeight i ≤ limit := by omega
      rw [valueWithin, value, ih htarget, ih hindex, limited_bind]
      congr 1
      funext v
      rw [limited_bind]
    | call name args =>
      simp only [treeHeight] at h
      exact valueWithin_call name fun arg harg =>
        ih (Nat.le_trans (treeHeight_le_of_mem harg) (by omega))

/-- A chain of accessors is evaluated from its end: every accessor calls for its target first. -/
theorem valueWithin_eq_exhausted (env : Environment) {limit : Nat} {e : Expression}
    (h : limit ≤ accessors e) : valueWithin env limit e = exhausted := by
  induction limit generalizing e with
  | zero => cases e <;> rfl
  | succ limit ih =>
    cases e with
    | string value | integer value | call name args => simp [accessors] at h
    | property target name =>
      rw [valueWithin, ih (Nat.le_of_succ_le_succ h), exhausted_bind]
    | index target i =>
      rw [valueWithin, ih (Nat.le_of_succ_le_succ h), exhausted_bind]

/-! ### Chains of indexes -/

/-- A string with indexes after it. -/
def indexChain : Nat → Expression
  | 0 => .string "x"
  | n + 1 => .index (indexChain n) (.integer 0)

/-- The text of a string with indexes after it. -/
def chainText (n : Nat) : String :=
  "['x'" ++ String.ofList (List.replicate n "[0]".toList).flatten ++ "]"

example : chainText 2 = "['x'[0][0]]" := by decide

/-- A chain of `n` indexes has `n` accessors at its end. -/
@[simp] theorem accessors_indexChain (n : Nat) : accessors (indexChain n) = n := by
  induction n with
  | zero => rfl
  | succ n ih => rw [indexChain, accessors, ih]

/-- The indexes of a chain stand behind one another, so no more than two levels are open at a time.
-/
theorem nest_indexChain_le (n : Nat) : nest (indexChain n) ≤ 2 := by
  induction n with
  | zero => decide
  | succ n ih =>
    rw [indexChain, nest]
    exact Nat.max_le.mpr ⟨ih, Nat.le_refl 2⟩

/-- Each index makes a chain of indices higher by one. -/
@[simp] theorem treeHeight_indexChain (n : Nat) : treeHeight (indexChain n) = n + 1 := by
  induction n with
  | zero => rfl
  | succ n ih =>
    rw [indexChain, treeHeight, ih, treeHeight]
    omega

/-- A chain of indexes can be written. -/
theorem isWritable_indexChain (n : Nat) : isWritable (indexChain n) = true := by
  induction n with
  | zero => rfl
  | succ n ih =>
    rw [indexChain, isWritable, ih]
    decide

/-- Each index is written after those before it. -/
theorem text_indexChain (n : Nat) : (tokens (indexChain n)).flatMap Token.text =
    "'x'".toList ++ (List.replicate n "[0]".toList).flatten := by
  induction n with
  | zero => decide
  | succ n ih =>
    rw [indexChain, tokens, List.flatMap_append, ih, List.replicate_succ', List.flatten_append,
      List.append_assoc]
    rfl

/-- Indexes may follow one another in any number. -/
theorem parse_chainText (n : Nat) : parse (chainText n) = .ok (indexChain n) := by
  have hspaced := spaced_flatMap (tokens (indexChain n))
  have hnest : nest (indexChain n) ≤ maxDepth := Nat.le_trans (nest_indexChain_le n) (by decide)
  have hbody : body? (chainText n) = some ((tokens (indexChain n)).flatMap Token.text) := by
    refine body?_of_toList ?_ (head?_of_spaced hspaced (isWritable_indexChain n))
    simp [chainText, text_indexChain, String.toList_append]
  rw [parse, hbody]
  exact ofChars_spaced hspaced (isWritable_indexChain n) hnest

/-! ### What the reader leaves open -/

/-- What was read from a text needs no more levels than can be open. -/
theorem nest_le_of_parse {s : String} {e : Expression} (h : parse s = .ok e) :
    nest e ≤ maxDepth := by
  unfold parse at h
  split at h
  · cases h
  · rename_i body _
    unfold ofChars at h
    cases hscan : scan body with
    | error fault => simp [hscan, Except.bind] at h
    | ok ts =>
      rw [hscan] at h
      exact (ofTokens_eq_ok_iff.mp h).2

/-- What the limit of nesting says about the height of a tree that is read.

Each part stands inside fewer than `maxDepth` calls and indexes. The height is at most `maxDepth`
exactly if the accessors on the way to a part can be added to them; it is at most `maxDepth` times
the length of the longest chain of accessors, one added to it. Evaluation goes no deeper than the
tree is high. -/
theorem treeHeight_of_parse {s : String} {e : Expression} (h : parse s = .ok e) :
    (∀ p n k, IsPart p n k e → n < maxDepth) ∧
    (treeHeight e ≤ maxDepth ↔ ∀ p n k, IsPart p n k e → n + k < maxDepth) ∧
    treeHeight e ≤ maxDepth * (longestChain e + 1) ∧
    ∀ (env : Environment) (limit : Nat), treeHeight e ≤ limit →
      valueWithin env limit e = limited (value env e) := by
  have hnest := nest_le_of_parse h
  refine ⟨fun p n k hp => ?_, treeHeight_le_iff, ?_,
    fun env limit hlimit => valueWithin_eq_limited env hlimit⟩
  · -- The part needs a level of its own below those that are counted on the way to it.
    have hpart := hp.add_nest_le
    have hpos := nest_pos p
    omega
  · exact Nat.le_trans (treeHeight_le e) (Nat.mul_le_mul_right _ hnest)

/-- The chain of 64 indexes is evaluated to the end one call deeper than the limit of nesting. -/
theorem treeHeight_of_parse_chain :
    parse (chainText 64) = .ok (indexChain 64) ∧
      treeHeight (indexChain 64) ≤ maxDepth * (longestChain (indexChain 64) + 1) ∧
      ∀ env, valueWithin env 65 (indexChain 64) = limited (value env (indexChain 64)) :=
  have h := treeHeight_of_parse (parse_chainText 64)
  ⟨parse_chainText 64, h.2.2.1, fun env => h.2.2.2 env 65 (Nat.le_of_eq (treeHeight_indexChain 64))⟩

/-- Within the limit of nesting, the chain of 64 indexes is not evaluated: its tree is higher. -/
theorem exhausted_of_chain :
    parse (chainText 64) = .ok (indexChain 64) ∧ treeHeight (indexChain 64) = maxDepth + 1 ∧
      ∀ env, valueWithin env maxDepth (indexChain 64) = exhausted :=
  ⟨parse_chainText 64, treeHeight_indexChain 64,
    fun env => valueWithin_eq_exhausted env (Nat.le_of_eq (accessors_indexChain 64).symm)⟩

/-- No limit is enough for the evaluation of all texts, not even of those where at most two
expressions are open at a place. -/
theorem exists_exhausted (limit : Nat) :
    ∃ (s : String) (e : Expression), parse s = .ok e ∧ nest e ≤ 2 ∧
      ∀ env : Environment, valueWithin env limit e = exhausted :=
  ⟨chainText limit, indexChain limit, parse_chainText limit, nest_indexChain_le limit,
    fun env => valueWithin_eq_exhausted env (Nat.le_of_eq (accessors_indexChain limit).symm)⟩

end Governance.Expression
