import Governance.Proofs.Expression.Respelling

/-!
# `Governance.Proofs.Expression.Bounds`: no function reads out of bounds

A function looks at the number of its arguments before it reads one of them. `Arguments.value` ends
a read of an argument that is not there with the error `outOfBounds`, and so end a sum of more than
64 bits and a slice past the end of a text. Nothing catches an error. So a call that does not end
with this one has read no position that its arguments do not have (`Arguments.value_inBounds_iff`).

The functions are walked once, read by read (`apply_inBounds`). Every read is justified by the
number of arguments that the function has asked for. The one step that needs more is the sum in
`substring`. Both numbers come from signed numbers of 64 bits, so two of them keep within 64 bits
without a sign. Without a length the sum is that of the text, or it is the start alone. So a text
has to have a length of 64 bits, as every text in memory has (`FitsWord`).

* `evaluation_inBounds`: no call with arguments in memory reads out of bounds, what `substring`
  takes lies in its text, and no expression reads out of bounds either if the texts that its
  evaluation comes across are in memory.
-/

set_option autoImplicit false

namespace Governance.Expression

variable {α β : Type} {env : Environment}

/-- The result is something else than a read past the arguments or past the end of a text. -/
def InBounds (r : Except ExpressionError α) : Prop :=
  ∀ function, r ≠ .error (.outOfBounds function)

/-- 64 bits hold the length of the text. -/
def FitsWord (s : String) : Prop := Decimal.inUnsigned64 s.length = true

instance (s : String) : Decidable (FitsWord s) :=
  inferInstanceAs (Decidable (Decimal.inUnsigned64 s.length = true))

/-- The length of each text among the values is one of 64 bits. -/
def Arguments.Fit (a : Arguments) : Prop := ∀ s, Json.string s ∈ a.values → FitsWord s

/-- What `substring` is asked to take: `count` characters of `s` from `start` on. -/
structure Arguments.Takes (a : Arguments) (s : String) (start count : Nat) : Prop where
  arity : a.count = 2 ∨ a.count = 3
  text : a.text 0 = .ok s
  length : a.partLength s.toList start = .ok count
  start : a.int 1 = .ok (start : Int)

/-- When an expression is evaluated, another one is, too, as a part of it.

- `argument`: the arguments in front of it have values;
- `condition`, `yes`, `no`: the conditional evaluates the branch that it takes. -/
inductive Evaluates (env : Environment) : Expression → Expression → Prop
  | whole (e : Expression) : Evaluates env e e
  | propertyTarget {target p : Expression} (name : String) :
    Evaluates env target p → Evaluates env (.property target name) p
  | indexTarget {target p : Expression} (i : Expression) :
    Evaluates env target p → Evaluates env (.index target i) p
  | index {target i p : Expression} {v : Json} :
    value env target = .ok v → Evaluates env i p → Evaluates env (.index target i) p
  | argument {name : String} {before after : List Expression} {arg p : Expression}
    {vs : List Json} : ¬ isConditional name = true → values env before = .ok vs →
    Evaluates env arg p → Evaluates env (.call name (before ++ arg :: after)) p
  | condition {name : String} {c yes no p : Expression} : isConditional name = true →
    Evaluates env c p → Evaluates env (.call name [c, yes, no]) p
  | yes {name : String} {c yes no p : Expression} : isConditional name = true →
    value env c = .ok (.bool true) → Evaluates env yes p →
    Evaluates env (.call name [c, yes, no]) p
  | no {name : String} {c yes no p : Expression} : isConditional name = true →
    value env c = .ok (.bool false) → Evaluates env no p →
    Evaluates env (.call name [c, yes, no]) p

/-- The length of each text that evaluating an expression comes across is one of 64 bits. -/
def TextsFit (env : Environment) (e : Expression) : Prop :=
  ∀ p s, Evaluates env e p → value env p = .ok (.string s) → FitsWord s

/-! ### Steps that keep within bounds -/

namespace InBounds

variable {r : Except ExpressionError α} {f : α → Except ExpressionError β}

/-- A value is no read out of bounds. -/
theorem ok (v : α) : InBounds (.ok v) := nofun

/-- A refusal is an error of another kind. -/
theorem refuse (a : Arguments) (fault : TypeFault) :
    InBounds (a.refuse fault : Except ExpressionError α) := nofun

/-- A step sees only the values that the step before it can have. -/
theorem bind (h : InBounds r) (hf : ∀ v, r = .ok v → InBounds (f v)) : InBounds (r >>= f) := by
  cases r with
  | ok v => exact hf v rfl
  | error e =>
    intro function heq
    cases heq
    exact h function rfl

/-- A list of steps keeps within bounds if each of them does. -/
theorem mapM {l : List α} (h : ∀ v ∈ l, InBounds (f v)) : InBounds (l.mapM f) := by
  induction l with
  | nil => exact ok []
  | cons v rest ih =>
    rw [List.mapM_cons]
    exact (h v List.mem_cons_self).bind fun w _ =>
      (ih fun x hx => h x (List.mem_cons_of_mem _ hx)).bind fun ws _ => ok (w :: ws)

end InBounds

/-! ### Reads of arguments -/

namespace Arguments

variable {a : Arguments} {position n m : Nat} {r : Except ExpressionError α}

/-- A function that goes on was given a number of arguments that it admits. -/
theorem admits_of_expect {arity : Arity} (h : a.expect arity = .ok ()) :
    arity.admits a.count = true := by
  unfold expect at h
  split at h
  · assumption
  · cases h

/-- Behind its look at the number of arguments, a function knows it. -/
theorem expect_inBounds {arity : Arity} (h : arity.admits a.count = true → InBounds r) :
    InBounds (a.expect arity >>= fun _ => r) := by
  refine InBounds.bind (fun function heq => ?_) fun _ hexpect => h (admits_of_expect hexpect)
  unfold expect at heq
  split at heq <;> cases heq

/-- Where two numbers are admitted, one of them was given. -/
theorem admits_either : (Arity.either m n).admits a.count = true ↔ a.count = m ∨ a.count = n := by
  simp [Arity.admits]

/-- A function of `n` arguments reads on with `n` of them. -/
theorem exactly_inBounds (h : a.count = n → InBounds r) :
    InBounds (a.expect (.exactly n) >>= fun _ => r) :=
  expect_inBounds fun hadmits => h (beq_iff_eq.mp hadmits)

/-- A function of `m` or `n` arguments reads on with so many. -/
theorem either_inBounds (h : a.count = m ∨ a.count = n → InBounds r) :
    InBounds (a.expect (.either m n) >>= fun _ => r) :=
  expect_inBounds fun hadmits => h (admits_either.mp hadmits)

/-- A function of at least `n` arguments reads on with no fewer. -/
theorem atLeast_inBounds (h : n ≤ a.count → InBounds r) :
    InBounds (a.expect (.atLeast n) >>= fun _ => r) :=
  expect_inBounds fun hadmits => h (of_decide_eq_true hadmits)

/-- A read keeps within bounds exactly if there is an argument at the position. -/
theorem value_inBounds_iff : InBounds (a.value position) ↔ position < a.count := by
  constructor
  · intro h
    refine Nat.lt_of_not_le fun hle => h a.function ?_
    have hnone : a.values[position]? = none := List.getElem?_eq_none hle
    rw [value, hnone]
  · intro h
    rw [value_of_lt h]
    exact .ok _

/-- The read of a text keeps within bounds if there is an argument. -/
theorem text_inBounds (h : position < a.count) : InBounds (a.text position) := by
  refine (value_inBounds_iff.mpr h).bind fun v _ => ?_
  split
  · exact .ok _
  · exact .refuse a _

/-- The read of a truth value keeps within bounds if there is an argument. -/
theorem bool_inBounds (h : position < a.count) : InBounds (a.bool position) := by
  refine (value_inBounds_iff.mpr h).bind fun v _ => ?_
  split
  · exact .ok _
  · exact .refuse a _

/-- The read of a whole number keeps within bounds if there is an argument. -/
theorem int_inBounds (h : position < a.count) : InBounds (a.int position) := by
  refine (value_inBounds_iff.mpr h).bind fun v _ => ?_
  split
  · split
    · exact .ok _
    · exact .refuse a _
  · exact .refuse a _

/-- All arguments are read as truth values, one at a time. -/
theorem flags_inBounds (a : Arguments) : InBounds (allFlags a) :=
  .mapM fun _ hposition => bool_inBounds (List.mem_range.mp hposition)

/-- A template is read if there is an argument. A slot without an argument is refused, not read. -/
theorem formatted_inBounds (h : 0 < a.count) : InBounds (formatted a) := by
  refine (text_inBounds h).bind fun template _ => InBounds.bind (.mapM fun piece _ => ?_) fun _ _ =>
    .ok _
  cases piece with
  | char c => exact .ok _
  | slot position inside =>
    dsimp only [fill]
    split
    · exact .ok _
    · exact .refuse a _

/-! ### Parts of texts -/

/-- A text that was read stands at its position. -/
theorem text_eq_ok {s : String} :
    a.text position = .ok s ↔ a.values[position]? = some (.string s) := by
  unfold text value
  cases a.values[position]? with
  | none => simp [bind, Except.bind]
  | some v => cases v <;> simp [bind, Except.bind, Json.text?, Arguments.refuse]

/-- A whole number that is read is one of 64 bits. -/
theorem int_eq_ok {i : Int} : a.int position = .ok i ↔
    a.values[position]? = some (.number (.integer i)) ∧ Decimal.inSigned64 i = true := by
  unfold int value
  cases a.values[position]? with
  | none => simp [bind, Except.bind]
  | some v =>
    cases v with
    | number n =>
      cases n with
      | integer j =>
        -- A number outside of 64 bits is there, but it is refused.
        by_cases hj : Decimal.inSigned64 j = true
        · simp only [bind, Except.bind, Number.toSigned?, if_pos hj]
          grind
        · simp only [bind, Except.bind, Number.toSigned?, if_neg hj]
          grind [Arguments.refuse]
      | float x => simp [bind, Except.bind, Number.toSigned?, Arguments.refuse]
    | null | bool _ | string _ | array _ | object _ => simp [bind, Except.bind, Arguments.refuse]

/-- The third argument is read only if there are three. -/
theorem partLength_inBounds (s : List Char) (start : Nat) :
    InBounds (a.partLength s start) := by
  unfold partLength
  split
  · rename_i hthree
    refine (int_inBounds (by omega)).bind fun length _ => ?_
    split
    · exact .refuse a _
    · exact .ok _
  · exact .ok _

/-- The length of the part is a number of 64 bits with a sign, or it is all that is left. -/
theorem partLength_cases {s : List Char} {start count : Nat}
    (h : a.partLength s start = .ok count) :
    Decimal.inSigned64 count = true ∨ count = s.length - start := by
  unfold partLength at h
  split at h
  · cases hint : a.int 2 with
    | error e =>
      rw [hint] at h
      cases h
    | ok length =>
      rw [hint] at h
      -- The length was given, as a number of 64 bits with a sign that is not below zero.
      have hbits := (int_eq_ok.mp hint).2
      simp only [bind, Except.bind] at h
      split at h
      · cases h
      · cases h
        exact Or.inl (by rwa [Int.toNat_of_nonneg (by omega)])
  · cases h
    exact Or.inr rfl

/-- The end of the part is a number of 64 bits. -/
theorem Takes.fits {s : String} {start count : Nat} (h : a.Takes s start count) (hfit : a.Fit) :
    Decimal.inUnsigned64 (start + count) = true := by
  have hstart := (int_eq_ok.mp h.start).2
  have htext : FitsWord s := hfit s (List.mem_of_getElem? (text_eq_ok.mp h.text))
  simp only [FitsWord, Decimal.inSigned64, Decimal.inUnsigned64, Bool.and_eq_true,
    decide_eq_true_eq] at hstart htext ⊢
  rcases partLength_cases h.length with hcount | rfl
  · -- Two numbers below half of the bound are added.
    simp only [Decimal.inSigned64, Bool.and_eq_true, decide_eq_true_eq] at hcount
    omega
  · -- All that is left ends with the text, or nothing is left and the sum is the start.
    rw [String.length_toList]
    omega

/-- A part within the characters is there. -/
theorem slice?_eq_some {s : List Char} {start count : Nat} (h : ¬ s.length < start + count) :
    slice? s start count = some ((s.drop start).take count) :=
  if_pos (Nat.not_lt.mp h)

/-- A part whose end is a number of 64 bits is taken, or refused for lying outside of the text. -/
theorem part_inBounds {s : List Char} {start count : Nat}
    (h : Decimal.inUnsigned64 (start + count) = true) : InBounds (a.part s start count) := by
  unfold part
  rw [if_neg (by simp [h])]
  split
  · exact .refuse a _
  · rename_i hle
    rw [slice?_eq_some hle]
    exact .ok _

/-- A part that is taken lies within the characters. -/
theorem part_eq_ok {s : List Char} {start count : Nat} {v : Json}
    (h : a.part s start count = .ok v) :
    start + count ≤ s.length ∧ v = .string (String.ofList ((s.drop start).take count)) := by
  unfold part at h
  split at h
  · cases h
  · split at h
    · cases h
    · rename_i hle
      rw [slice?_eq_some hle] at h
      cases h
      exact ⟨Nat.not_lt.mp hle, rfl⟩

/-- With two or three arguments in memory, `substring` reads nothing out of bounds. -/
theorem substringOf_inBounds (harity : a.count = 2 ∨ a.count = 3) (hfit : a.Fit) :
    InBounds (substringOf a) := by
  rw [substringOf_eq]
  refine (text_inBounds (by omega)).bind fun s hs => (int_inBounds (by omega)).bind fun i hi => ?_
  split
  · exact .refuse a _
  · refine (partLength_inBounds _ _).bind fun count hlength => part_inBounds ?_
    have hstart : ((i.toNat : Nat) : Int) = i := Int.toNat_of_nonneg (by omega)
    exact Takes.fits ⟨harity, hs, hlength, hstart.symm ▸ hi⟩ hfit

/-- The value of `substring` is the part that it was asked for, and this lies within the text. -/
theorem exists_takes {v : Json} (h : Builtin.substring.apply env a = .ok v) :
    ∃ s start count, a.Takes s start count ∧ start + count ≤ s.length ∧
      v = .string (String.ofList ((s.toList.drop start).take count)) := by
  change (a.expect (.either 2 3) >>= fun _ => substringOf a) = .ok v at h
  rw [substringOf_eq] at h
  -- No step before the slice failed, so each of them has left its value.
  cases hexpect : a.expect (.either 2 3) with
  | error e => simp [hexpect, bind, Except.bind] at h
  | ok =>
    cases hs : a.text 0 with
    | error e => simp [hexpect, hs, bind, Except.bind] at h
    | ok s =>
      cases hi : a.int 1 with
      | error e => simp [hexpect, hs, hi, bind, Except.bind] at h
      | ok i =>
        simp only [hexpect, hs, hi, bind, Except.bind] at h
        split at h
        · cases h
        · have hstart : ((i.toNat : Nat) : Int) = i := Int.toNat_of_nonneg (by omega)
          cases hlength : a.partLength s.toList i.toNat with
          | error e => simp [hlength] at h
          | ok count =>
            rw [hlength] at h
            obtain ⟨hle, hv⟩ := part_eq_ok h
            rw [String.length_toList] at hle
            have harity := admits_either.mp (admits_of_expect hexpect)
            exact ⟨s, i.toNat, count, ⟨harity, hs, hlength, hstart.symm ▸ hi⟩, hle, hv⟩

end Arguments

/-! ### Calls -/

/-- A function keeps within bounds when its arguments are in memory. -/
theorem apply_inBounds (env : Environment) {a : Arguments} (hfit : a.Fit) (f : Builtin) :
    InBounds (f.apply env a) := by
  -- The look at the number of arguments comes first. With this number, `omega` finds the position
  -- of every read that follows below it.
  cases f with
  | parameters =>
    refine Arguments.exactly_inBounds fun h => (a.text_inBounds (by omega)).bind fun name _ => ?_
    split
    · exact .ok _
    · exact nofun
  | concat | createArray => exact .ok _
  | format =>
    exact Arguments.atLeast_inBounds fun h =>
      (Arguments.formatted_inBounds (by omega)).bind fun _ _ => .ok _
  | toLower | toUpper | trim =>
    exact Arguments.exactly_inBounds fun h =>
      (Arguments.text_inBounds (by omega)).bind fun _ _ => .ok _
  | string | empty =>
    exact Arguments.exactly_inBounds fun h =>
      (Arguments.value_inBounds_iff.mpr (by omega)).bind fun _ _ => .ok _
  | int =>
    refine Arguments.exactly_inBounds fun h =>
      (Arguments.value_inBounds_iff.mpr (by omega)).bind fun v _ => ?_
    split
    · split
      · exact .ok _
      · exact .refuse a _
    · split
      · exact .ok _
      · exact .refuse a _
    · exact .refuse a _
  | true | false | null => exact Arguments.exactly_inBounds fun _ => .ok _
  | equals =>
    exact Arguments.exactly_inBounds fun h =>
      (Arguments.value_inBounds_iff.mpr (by omega)).bind fun _ _ =>
        (Arguments.value_inBounds_iff.mpr (by omega)).bind fun _ _ => .ok _
  | not =>
    exact Arguments.exactly_inBounds fun h =>
      (Arguments.bool_inBounds (by omega)).bind fun _ _ => .ok _
  | and | or =>
    exact Arguments.atLeast_inBounds fun _ => a.flags_inBounds.bind fun _ _ => .ok _
  | coalesce => exact Arguments.atLeast_inBounds fun _ => .ok _
  | replace =>
    exact Arguments.exactly_inBounds fun h => (Arguments.text_inBounds (by omega)).bind fun _ _ =>
      (Arguments.text_inBounds (by omega)).bind fun _ _ =>
        (Arguments.text_inBounds (by omega)).bind fun _ _ => .ok _
  | substring => exact Arguments.either_inBounds fun h => Arguments.substringOf_inBounds h hfit
  | length =>
    refine Arguments.exactly_inBounds fun h =>
      (Arguments.value_inBounds_iff.mpr (by omega)).bind fun v _ => ?_
    split
    · exact .ok _
    · exact .refuse a _
  | contains =>
    refine Arguments.exactly_inBounds fun h =>
      (Arguments.value_inBounds_iff.mpr (by omega)).bind fun v _ =>
        (Arguments.value_inBounds_iff.mpr (by omega)).bind fun part _ => ?_
    split
    · exact .ok _
    · exact .refuse a _
  | startsWith | endsWith =>
    exact Arguments.exactly_inBounds fun h => (Arguments.text_inBounds (by omega)).bind fun _ _ =>
      (Arguments.text_inBounds (by omega)).bind fun _ _ => .ok _
  | split =>
    refine Arguments.exactly_inBounds fun h => (Arguments.text_inBounds (by omega)).bind fun s _ =>
      (Arguments.text_inBounds (by omega)).bind fun delimiter _ => ?_
    split
    · exact .refuse a _
    · exact .ok _
  | first | last =>
    refine Arguments.exactly_inBounds fun h =>
      (Arguments.value_inBounds_iff.mpr (by omega)).bind fun v _ => ?_
    split
    · exact .ok _
    · exact .refuse a _
  | regionShortName =>
    refine Arguments.exactly_inBounds fun h =>
      (Arguments.text_inBounds (by omega)).bind fun region _ => ?_
    split
    · exact .ok _
    · exact .refuse a _

/-- A call by name keeps within bounds. A name without a function reads nothing. -/
theorem callValue_inBounds (name : String) {vs : List Json} (hfit : Arguments.Fit ⟨name, vs⟩) :
    InBounds (callValue env name vs) := by
  unfold callValue
  split
  · exact apply_inBounds env hfit _
  · exact nofun

/-! ### Expressions -/

/-- A member that is not there is refused. -/
theorem propertyOf_inBounds (target : Json) (name : String) :
    InBounds (propertyOf target name) := by
  unfold propertyOf
  split
  · exact .ok _
  · exact nofun

/-- An item that is not there is refused. -/
theorem indexOf_inBounds (target index : Json) : InBounds (indexOf target index) := by
  unfold indexOf
  split
  · exact propertyOf_inBounds target _
  · split
    · exact .ok _
    · exact nofun
  · exact nofun

/-- A value of a list of expressions is that of one of them, before which all had values. -/
theorem exists_of_mem_values {es : List Expression} {vs : List Json} (h : values env es = .ok vs)
    {v : Json} (hv : v ∈ vs) : ∃ before e after ws, es = before ++ e :: after ∧
      values env before = .ok ws ∧ value env e = .ok v := by
  induction es generalizing vs with
  | nil =>
    cases h
    simp at hv
  | cons e rest ih =>
    rw [values] at h
    cases he : value env e with
    | error x => simp [he, bind, Except.bind] at h
    | ok w =>
      cases hrest : values env rest with
      | error x => simp [he, hrest, bind, Except.bind] at h
      | ok ws =>
        simp only [he, hrest, bind, Except.bind, pure, Except.pure] at h
        cases h
        -- The value is that of the first expression, or that of a later one behind it.
        rcases List.mem_cons.mp hv with rfl | hv
        · exact ⟨[], e, rest, [], rfl, rfl, he⟩
        · obtain ⟨before, e', after, ws', rfl, hbefore, he'⟩ := ih hrest hv
          refine ⟨e :: before, e', after, w :: ws', rfl, ?_, he'⟩
          rw [values, he, hbefore]
          rfl

mutual

/-- An expression keeps within bounds, if the texts that its evaluation comes across are in memory.
-/
theorem value_inBounds : (e : Expression) → TextsFit env e → InBounds (value env e)
  | .string s, _ => .ok _
  | .integer i, _ => .ok _
  | .property target name, h => by
    -- What evaluating a part comes across, evaluating the whole comes across.
    have htarget := value_inBounds target fun p s hp => h p s (.propertyTarget name hp)
    exact htarget.bind fun v _ => propertyOf_inBounds v name
  | .index target i, h => by
    have htarget := value_inBounds target fun p s hp => h p s (.indexTarget i hp)
    refine htarget.bind fun v hv => ?_
    have hindex := value_inBounds i fun p s hp => h p s (.index hv hp)
    exact hindex.bind fun w _ => indexOf_inBounds v w
  | .call name args, h => by
    unfold value
    split
    · rename_i hname
      split
      next condition yes no =>
        have hcondition := value_inBounds condition fun p s hp => h p s (.condition hname hp)
        refine hcondition.bind fun c hc => ?_
        split
        · exact value_inBounds yes fun p s hp => h p s (.yes hname hc hp)
        · exact value_inBounds no fun p s hp => h p s (.no hname hc hp)
        · exact nofun
      next => exact nofun
    · rename_i hname
      have hargs := values_inBounds args fun before arg after heq vs hvs p s hp =>
        h p s (heq ▸ .argument hname hvs hp)
      refine hargs.bind fun vs hvs => callValue_inBounds name fun s hs => ?_
      -- A text among the arguments is the value of a part that was evaluated.
      obtain ⟨before, arg, after, ws, rfl, hbefore, harg⟩ := exists_of_mem_values hvs hs
      exact h arg s (.argument hname hbefore (.whole arg)) harg

/-- Expressions one after another keep within bounds, up to the first without a value. -/
theorem values_inBounds : (es : List Expression) →
    (∀ before e after, es = before ++ e :: after → ∀ vs, values env before = .ok vs →
      TextsFit env e) → InBounds (values env es)
  | [], _ => .ok _
  | e :: rest, h => by
    refine (value_inBounds e (h [] e rest rfl [] rfl)).bind fun v hv => ?_
    refine (values_inBounds rest fun before e' after heq vs hvs => ?_).bind fun vs _ => .ok _
    refine h (e :: before) e' after (heq ▸ rfl) (v :: vs) ?_
    rw [values, hv, hvs]
    rfl

end

/-- Nothing is read out of bounds, in a function or in a text.

- A read of an argument keeps within bounds exactly if the argument is there.
- A call whose arguments are in memory reads no position that they do not have, and it ends with no
  sum of more than 64 bits and with no slice past the end of a text.
- The sum in `substring` is one of 64 bits, and a part that it takes lies within the text.
- So an expression does not end with such a read, if the texts that its evaluation comes across are
  in memory. -/
theorem evaluation_inBounds (env : Environment) :
    (∀ (a : Arguments) (position : Nat), InBounds (a.value position) ↔ position < a.count) ∧
    (∀ (f : Builtin) (a : Arguments), a.Fit → InBounds (f.apply env a)) ∧
    (∀ (a : Arguments) (s : String) (start count : Nat), a.Fit → a.Takes s start count →
      Decimal.inUnsigned64 (start + count) = true) ∧
    (∀ (a : Arguments) (v : Json), Builtin.substring.apply env a = .ok v →
      ∃ s start count, a.Takes s start count ∧ start + count ≤ s.length ∧
        v = .string (String.ofList ((s.toList.drop start).take count))) ∧
    ∀ e : Expression, TextsFit env e → InBounds (value env e) :=
  ⟨fun _ _ => Arguments.value_inBounds_iff, fun f _ hfit => apply_inBounds env hfit f,
    fun _ _ _ _ hfit h => h.fits hfit, fun _ _ h => Arguments.exists_takes h,
    fun e h => value_inBounds e h⟩

/-! ### Texts that evaluation comes across -/

/-- A text in memory comes across no other text. -/
theorem textsFit_string {s : String} (h : FitsWord s) : TextsFit env (.string s) := by
  intro p s' hp hv
  cases hp
  cases hv
  exact h

/-- A number comes across no text. -/
theorem textsFit_integer (i : Int) : TextsFit env (.integer i) := by
  intro p s hp hv
  cases hp
  cases hv

/-- A call comes across the texts of its arguments, and its own value may be one more. -/
theorem textsFit_call {name : String} {args : List Expression}
    (hname : ¬ isConditional name = true) (hargs : ∀ arg ∈ args, TextsFit env arg)
    (h : ∀ s, value env (.call name args) = .ok (.string s) → FitsWord s) :
    TextsFit env (.call name args) := by
  intro p s hp hv
  -- A part of a call is the call itself or a part of an argument. The others are parts of other
  -- expressions or of a conditional.
  generalize he : Expression.call name args = e at hp
  cases hp with
  | whole => exact h s (he ▸ hv)
  | propertyTarget | indexTarget | index => cases he
  | argument _ _ harg =>
    cases he
    exact hargs _ (by simp) p s harg hv
  | condition hif | yes hif | no hif =>
    cases he
    exact absurd hif hname

namespace Sample

/-- A text and the largest numbers that a start and a length can be. -/
def farPart : Arguments :=
  ⟨"substring", [.string "contoso", .number (.integer 9223372036854775807),
    .number (.integer 9223372036854775807)]⟩

/-- The call with them. -/
def farCall : Expression :=
  .call "substring" [.string "contoso", .integer 9223372036854775807, .integer 9223372036854775807]

end Sample

/-- The end of the farthest part is still a number of 64 bits, and the call is refused for what it
asks. The part from the fourth character on lies within the text. -/
theorem evaluation_inBounds_farthest :
    Sample.farPart.Fit ∧ InBounds (Builtin.substring.apply {} Sample.farPart) ∧
    Sample.farPart.Takes "contoso" 9223372036854775807 9223372036854775807 ∧
    Decimal.inUnsigned64 (9223372036854775807 + 9223372036854775807) = true ∧
    (∃ s start count, Arguments.Takes ⟨"substring", [.string "contoso", .number (.integer 3)]⟩
        s start count ∧ start + count ≤ s.length ∧
      Json.string "toso" = .string (String.ofList ((s.toList.drop start).take count))) ∧
    TextsFit {} Sample.farCall ∧ InBounds (value {} Sample.farCall) := by
  have hword : FitsWord "contoso" := by decide
  have hfit : Sample.farPart.Fit := by
    intro s hs
    simp only [Sample.farPart, List.mem_cons, Json.string.injEq, reduceCtorEq, List.not_mem_nil,
      or_false] at hs
    exact hs ▸ hword
  have htakes : Sample.farPart.Takes "contoso" 9223372036854775807 9223372036854775807 :=
    ⟨Or.inr rfl, rfl, rfl, rfl⟩
  have hpart : Builtin.substring.apply {}
      ⟨"substring", [.string "contoso", .number (.integer 3)]⟩ = .ok (.string "toso") := by rfl
  have htexts : TextsFit {} Sample.farCall := by
    refine textsFit_call (by decide) (fun arg harg => ?_) fun s hs => ?_
    · simp only [List.mem_cons, List.not_mem_nil, or_false] at harg
      rcases harg with rfl | rfl | rfl
      · exact textsFit_string hword
      · exact textsFit_integer _
      · exact textsFit_integer _
    · -- The call has no value, so there is no text to be in memory.
      have hvalue : value {} Sample.farCall = .error (.type "substring"
          (.outsideString 9223372036854775807 18446744073709551614 7)) := by rfl
      rw [Sample.farCall] at hvalue
      rw [hvalue] at hs
      cases hs
  obtain ⟨-, hcalls, hsums, hparts, hvalues⟩ := evaluation_inBounds {}
  exact ⟨hfit, hcalls .substring _ hfit, htakes, hsums _ _ _ _ hfit htakes, hparts _ _ hpart,
    htexts, hvalues _ htexts⟩

end Governance.Expression
