import Governance.Expression.Evaluation
import Mathlib.Data.List.Basic

/-!
# `Governance.Proofs.Expression.Respelling`: names of functions ignore case

A function is found under its name in small letters. The name as it is spelled goes into errors and
nowhere else. So two expressions that differ in the spelling of functions only (`Respelled`) have
the same value, or they fail with errors that differ in the spelling of a function only
(`ExpressionError.Respelled`).

* `Alike`: the relation of the two results. It goes through a sequence of steps (`Alike.bind`) and
  through a list of them (`Alike.mapM`).
* `Arguments.Alike.apply`: each function gives results that are alike for the same values, whatever
  the spelling it was called by.
* `value_respelled`: so do whole expressions.
-/

set_option autoImplicit false

namespace Governance

open Text

/-! ### Expressions and errors up to spelling -/

mutual

/-- The two expressions differ at most in the case of letters in the names of functions, at any
depth. -/
inductive Expression.Respelled : Expression → Expression → Prop
  | string (value : String) : Respelled (.string value) (.string value)
  | integer (value : Int) : Respelled (.integer value) (.integer value)
  | call {name name' : String} {args args' : List Expression}
    (function : equalIgnoringCase name name' = true) (arguments : RespelledAll args args') :
    Respelled (.call name args) (.call name' args')
  | property {target target' : Expression} (inner : Respelled target target') (name : String) :
    Respelled (.property target name) (.property target' name)
  | index {target target' i i' : Expression} (inner : Respelled target target')
    (position : Respelled i i') : Respelled (.index target i) (.index target' i')

/-- The same of two lists of expressions, one by one. -/
inductive Expression.RespelledAll : List Expression → List Expression → Prop
  | nil : RespelledAll [] []
  | cons {e e' : Expression} {es es' : List Expression} (head : Respelled e e')
    (tail : RespelledAll es es') : RespelledAll (e :: es) (e' :: es')

end

/-- The two errors differ at most in the case of letters in the name of a function. -/
inductive ExpressionError.Respelled : ExpressionError → ExpressionError → Prop
  | refl (e : ExpressionError) : Respelled e e
  | unknownFunction {name name' : String} (function : equalIgnoringCase name name' = true) :
    Respelled (.unknownFunction name) (.unknownFunction name')
  | arity {name name' : String} (function : equalIgnoringCase name name' = true)
    (expected : Expression.Arity) (actual : Nat) :
    Respelled (.arity name expected actual) (.arity name' expected actual)
  | type {name name' : String} (function : equalIgnoringCase name name' = true)
    (fault : Expression.TypeFault) : Respelled (.type name fault) (.type name' fault)
  | outOfBounds {name name' : String} (function : equalIgnoringCase name name' = true) :
    Respelled (.outOfBounds name) (.outOfBounds name')

namespace Expression

variable {α β γ : Type}

/-- The two results are the same, or both are failures that differ in the spelling of a function at
most. -/
inductive Alike : Except ExpressionError α → Except ExpressionError α → Prop
  | ok (a : α) : Alike (.ok a) (.ok a)
  | error {e e' : ExpressionError} (h : e.Respelled e') : Alike (.error e) (.error e')

namespace Alike

variable {r r' : Except ExpressionError α} {f f' : α → Except ExpressionError β}

/-- A result is alike to itself. -/
theorem refl (r : Except ExpressionError α) : Alike r r := by
  cases r with
  | ok a => exact .ok a
  | error e => exact .error (.refl e)

/-- Equal results are alike. -/
theorem of_eq (h : r = r') : Alike r r' := h ▸ .refl r

/-- Steps that are alike one by one are alike together. -/
theorem bind (h : Alike r r') (hf : ∀ a, Alike (f a) (f' a)) : Alike (r >>= f) (r' >>= f') := by
  cases h with
  | ok a => exact hf a
  | error he => exact .error he

/-- Lists of steps that are alike are alike. -/
theorem mapM (hf : ∀ a, Alike (f a) (f' a)) (l : List α) : Alike (l.mapM f) (l.mapM f') := by
  induction l with
  | nil => exact .ok []
  | cons a rest ih =>
    rw [List.mapM_cons, List.mapM_cons]
    exact (hf a).bind fun b => ih.bind fun bs => .ok (b :: bs)

end Alike

/-! ### Parts of texts -/

namespace Arguments

/-- How many characters of `s` are taken from `start` on: the third argument, or all that are
left. -/
def partLength (a : Arguments) (s : List Char) (start : Nat) : Except ExpressionError Nat :=
  if a.count = 3 then do
    let length ← a.int 2
    if length < 0 then a.refuse .negativeLength else .ok length.toNat
  else .ok (s.length - start)

/-- The part of `s` from `start` on with `count` characters. -/
def part (a : Arguments) (s : List Char) (start count : Nat) : Except ExpressionError Json :=
  if !Decimal.inUnsigned64 (start + count) then .error (.outOfBounds a.function)
  else if s.length < start + count then
    a.refuse (.outsideString start (start + count) s.length)
  else match slice? s start count with
    | some part => .ok (.string (String.ofList part))
    | none => .error (.outOfBounds a.function)

end Arguments

/-- A part of a text is found in three steps: where it starts, how long it is, and what it is. -/
theorem substringOf_eq (a : Arguments) :
    substringOf a = (do
      let s ← a.text 0
      let start ← a.int 1
      if start < 0 then a.refuse .negativeStart
      else a.part s.toList start.toNat (← a.partLength s.toList start.toNat)) := by
  refine bind_congr fun s => bind_congr fun start => ?_
  dsimp only [Arguments.partLength]
  -- A negative start is refused on both sides, before a length is read.
  split
  · rfl
  · split
    · rw [bind_assoc]
      refine bind_congr fun length => ?_
      split <;> rfl
    · rfl

/-! ### Calls up to spelling -/

/-- The same values were given to a function, under spellings of its name. -/
structure Arguments.Alike (a a' : Arguments) : Prop where
  function : equalIgnoringCase a.function a'.function = true
  values : a.values = a'.values

namespace Arguments.Alike

variable {a a' : Arguments} (h : a.Alike a')
include h

/-- There are as many arguments. -/
theorem count : a.count = a'.count := congrArg List.length h.values

/-- A refusal names the function, in one spelling or the other. -/
theorem refuse (fault : TypeFault) :
    Expression.Alike (a.refuse fault : Except ExpressionError α) (a'.refuse fault) :=
  .error (.type h.function fault)

/-- The number of arguments is the same, so both go on or both are refused. -/
theorem expect (arity : Arity) : Expression.Alike (a.expect arity) (a'.expect arity) := by
  unfold Arguments.expect
  rw [h.count]
  split
  · exact .ok ()
  · exact .error (.arity h.function arity _)

/-- An argument is read alike. -/
theorem value (position : Nat) : Expression.Alike (a.value position) (a'.value position) := by
  unfold Arguments.value
  rw [h.values]
  split
  · exact .ok _
  · exact .error (.outOfBounds h.function)

/-- A text is read alike. -/
theorem text (position : Nat) : Expression.Alike (a.text position) (a'.text position) := by
  refine (h.value position).bind fun v => ?_
  split
  · exact .ok _
  · exact h.refuse _

/-- A truth value is read alike. -/
theorem bool (position : Nat) : Expression.Alike (a.bool position) (a'.bool position) := by
  refine (h.value position).bind fun v => ?_
  split
  · exact .ok _
  · exact h.refuse _

/-- A whole number is read alike. -/
theorem int (position : Nat) : Expression.Alike (a.int position) (a'.int position) := by
  refine (h.value position).bind fun v => ?_
  split
  · split
    · exact .ok _
    · exact h.refuse _
  · exact h.refuse _

/-- All arguments are read alike as truth values. -/
theorem flags : Expression.Alike (allFlags a) (allFlags a') := by
  unfold allFlags
  rw [h.count]
  exact .mapM h.bool _

/-- A template is read alike, with what is put into it. -/
theorem formatted : Expression.Alike (formatted a) (formatted a') := by
  refine (h.text 0).bind fun template => ?_
  rw [h.values]
  refine Alike.bind (.mapM (fun piece => ?_) _) fun texts => .ok _
  cases piece with
  | char c => exact .ok _
  | slot position inside =>
    dsimp only [fill]
    cases (Decimal.readUnsigned64 position).bind ((a'.values.drop 1)[·]?) with
    | some v => exact .ok (stringify v)
    | none => exact h.refuse _

/-- The length of a part is read alike. -/
theorem partLength (s : List Char) (start : Nat) :
    Expression.Alike (a.partLength s start) (a'.partLength s start) := by
  unfold Arguments.partLength
  rw [h.count]
  split
  · refine (h.int 2).bind fun length => ?_
    split
    · exact h.refuse _
    · exact .ok _
  · exact .ok _

/-- A part of a text is taken alike. -/
theorem part (s : List Char) (start count : Nat) :
    Expression.Alike (a.part s start count) (a'.part s start count) := by
  unfold Arguments.part
  split
  · exact .error (.outOfBounds h.function)
  · split
    · exact h.refuse _
    · split
      · exact .ok _
      · exact .error (.outOfBounds h.function)

/-- The part that `substring` takes is alike. -/
theorem substringOf : Expression.Alike (substringOf a) (substringOf a') := by
  rw [substringOf_eq, substringOf_eq]
  refine (h.text 0).bind fun s => (h.int 1).bind fun start => ?_
  split
  · exact h.refuse _
  · exact (h.partLength _ _).bind fun count => h.part _ _ count

/-- A function gives the same for the same values, up to the spelling that it was called by. -/
theorem apply (env : Environment) (f : Builtin) :
    Expression.Alike (f.apply env a) (f.apply env a') := by
  -- A function looks at its name only when it refuses something. So each case follows its reads,
  -- and the values in between are the same.
  cases f with
  | parameters =>
    refine (h.expect _).bind fun _ => (h.text 0).bind fun name => ?_
    exact .refl _
  | concat =>
    have hsame : joined a.values = joined a'.values := congrArg joined h.values
    exact .of_eq (congrArg Except.ok hsame)
  | format => exact (h.expect _).bind fun _ => h.formatted.bind fun _ => .ok _
  | toLower | toUpper | trim => exact (h.expect _).bind fun _ => (h.text 0).bind fun _ => .ok _
  | string | empty => exact (h.expect _).bind fun _ => (h.value 0).bind fun _ => .ok _
  | int =>
    refine (h.expect _).bind fun _ => (h.value 0).bind fun v => ?_
    split
    · split
      · exact .ok _
      · exact h.refuse _
    · split
      · exact .ok _
      · exact h.refuse _
    · exact h.refuse _
  | true | false | null => exact (h.expect _).bind fun _ => .ok _
  | equals =>
    exact (h.expect _).bind fun _ => (h.value 0).bind fun _ => (h.value 1).bind fun _ => .ok _
  | not => exact (h.expect _).bind fun _ => (h.bool 0).bind fun _ => .ok _
  | and | or => exact (h.expect _).bind fun _ => h.flags.bind fun _ => .ok _
  | coalesce =>
    refine (h.expect _).bind fun _ => ?_
    rw [h.values]
    exact .ok _
  | replace =>
    exact (h.expect _).bind fun _ => (h.text 0).bind fun _ => (h.text 1).bind fun _ =>
      (h.text 2).bind fun _ => .ok _
  | substring => exact (h.expect _).bind fun _ => h.substringOf
  | length =>
    refine (h.expect _).bind fun _ => (h.value 0).bind fun v => ?_
    split
    · exact .ok _
    · exact h.refuse _
  | contains =>
    refine (h.expect _).bind fun _ => (h.value 0).bind fun v => (h.value 1).bind fun part => ?_
    split
    · exact .ok _
    · exact h.refuse _
  | startsWith | endsWith =>
    exact (h.expect _).bind fun _ => (h.text 0).bind fun _ => (h.text 1).bind fun _ => .ok _
  | split =>
    refine (h.expect _).bind fun _ => (h.text 0).bind fun s => (h.text 1).bind fun delimiter => ?_
    split
    · exact h.refuse _
    · exact .ok _
  | first | last =>
    refine (h.expect _).bind fun _ => (h.value 0).bind fun v => ?_
    split
    · exact .ok _
    · exact h.refuse _
  | createArray =>
    have hsame : Json.array a.values = .array a'.values := congrArg Json.array h.values
    exact .of_eq (congrArg Except.ok hsame)
  | regionShortName =>
    refine (h.expect _).bind fun _ => (h.text 0).bind fun region => ?_
    split
    · exact .ok _
    · exact h.refuse _

end Arguments.Alike

/-! ### Values up to spelling -/

variable {env : Environment} {name name' : String} {e e' : Expression} {es es' : List Expression}

/-- A function is found by its name in any case of letters. -/
theorem callValue_alike (h : equalIgnoringCase name name' = true) (vs : List Json) :
    Alike (callValue env name vs) (callValue env name' vs) := by
  have hfound : Builtin.ofName? name = Builtin.ofName? name' := by
    rw [Builtin.ofName?, equalIgnoringCase_iff.mp h, Builtin.ofName?]
  have harguments : Arguments.Alike ⟨name, vs⟩ ⟨name', vs⟩ := ⟨h, rfl⟩
  unfold callValue
  rw [hfound]
  split
  · exact harguments.apply env _
  · exact .error (.unknownFunction h)

/-- The conditional is found by its name in any case of letters. -/
theorem isConditional_eq (h : equalIgnoringCase name name' = true) :
    isConditional name = isConditional name' := by
  rw [isConditional, equalIgnoringCase_iff.mp h, isConditional]

/-- Respelled expressions are as many. -/
theorem RespelledAll.length_eq : {es es' : List Expression} → RespelledAll es es' →
    es.length = es'.length
  | _, _, .nil => rfl
  | _, _, .cons _ tail => congrArg (· + 1) tail.length_eq

/-- The conditional evaluates its condition and the branch that it takes. -/
theorem value_conditional (h : isConditional name = true) (c yes no : Expression) :
    value env (.call name [c, yes, no]) = value env c >>= fun v => match v with
      | .bool true => value env yes
      | .bool false => value env no
      | _ => .error (.type name (.argument 0 .boolean)) := by
  conv_lhs => unfold value
  exact if_pos h

/-- A conditional without three arguments is refused before any is evaluated. -/
theorem value_conditional_arity (h : isConditional name = true) {args : List Expression}
    (hargs : args.length ≠ 3) :
    value env (.call name args) = .error (.arity name (.exactly 3) args.length) := by
  unfold value
  rw [if_pos h]
  split
  · exact absurd rfl hargs
  · rfl

/-- Every other function is called with the values of all arguments. -/
theorem value_call (h : ¬ isConditional name = true) (args : List Expression) :
    value env (.call name args) = values env args >>= callValue env name := by
  conv_lhs => unfold value
  rw [if_neg h]

mutual

/-- The value of an expression does not depend on the spelling of functions. -/
theorem Respelled.value_alike (env : Environment) : {e e' : Expression} → Respelled e e' →
    Alike (value env e) (value env e')
  | _, _, .string _ => .refl _
  | _, _, .integer _ => .refl _
  | _, _, .property inner _ => (inner.value_alike env).bind fun _ => .refl _
  | _, _, .index inner position =>
    (inner.value_alike env).bind fun _ => (position.value_alike env).bind fun _ => .refl _
  | .call name args, .call name' args', .call function arguments => by
    have hlength := arguments.length_eq
    by_cases hif : isConditional name = true
    · have hif' : isConditional name' = true := isConditional_eq function ▸ hif
      by_cases hthree : args.length = 3
      · -- The condition has a value, and then one of the branches.
        obtain ⟨c, yes, no, rfl⟩ := List.length_eq_three.mp hthree
        match args', arguments with
        | [c', yes', no'], .cons condition (.cons taken (.cons other .nil)) =>
          rw [value_conditional hif, value_conditional hif']
          refine (condition.value_alike env).bind fun v => ?_
          split
          · exact taken.value_alike env
          · exact other.value_alike env
          · exact .error (.type function _)
      · rw [value_conditional_arity hif hthree, value_conditional_arity hif' (hlength ▸ hthree),
          hlength]
        exact .error (.arity function _ _)
    · have hif' : ¬ isConditional name' = true := isConditional_eq function ▸ hif
      rw [value_call hif, value_call hif']
      exact (arguments.values_alike env).bind fun vs => callValue_alike function vs

/-- The values of expressions do not depend on the spelling of functions. -/
theorem RespelledAll.values_alike (env : Environment) : {es es' : List Expression} →
    RespelledAll es es' → Alike (values env es) (values env es')
  | _, _, .nil => .refl _
  | _, _, .cons head tail =>
    (head.value_alike env).bind fun v => (tail.values_alike env).bind fun vs => .ok (v :: vs)

end

/-- Two expressions that differ in the case of letters in the names of functions, at any depth, have
the same value, or they fail with errors that differ in the same way. -/
theorem value_respelled (h : Respelled e e') (env : Environment) :
    (∃ v, value env e = .ok v ∧ value env e' = .ok v) ∨
      ∃ x x', value env e = .error x ∧ value env e' = .error x' ∧ x.Respelled x' := by
  have halike := h.value_alike env
  generalize value env e = r at halike ⊢
  generalize value env e' = r' at halike ⊢
  cases halike with
  | ok v => exact .inl ⟨v, rfl, rfl⟩
  | error hx => exact .inr ⟨_, _, rfl, rfl, hx⟩

namespace Sample

/-- The negation of a text, under the names that are given. The branch that is not taken calls a
function that does not exist. -/
def negation (not conditional condition join unknown : String) : Expression :=
  .call not [.call conditional
    [.call condition [], .call join [.string "a"], .call unknown []]]

end Sample

/-- The negation of a text fails under all spellings, and the error has that of the negation. -/
theorem value_respelled_negation :
    let e := Sample.negation "not" "if" "true" "concat" "nothing"
    let e' := Sample.negation "NOT" "If" "True" "conCat" "Nothing"
    Respelled e e' ∧ value {} e = .error (.type "not" (.argument 0 .boolean)) ∧
      ∃ x', value {} e' = .error x' ∧
        (ExpressionError.type "not" (.argument 0 .boolean)).Respelled x' := by
  intro e e'
  have hspelled : Respelled e e' :=
    .call (by decide) (.cons (.call (by decide) (.cons (.call (by decide) .nil)
      (.cons (.call (by decide) (.cons (.string "a") .nil))
        (.cons (.call (by decide) .nil) .nil)))) .nil)
  have hvalue : value {} e = .error (.type "not" (.argument 0 .boolean)) := by rfl
  refine ⟨hspelled, hvalue, ?_⟩
  -- The theorem leaves two cases, and the first one would give the expression a value.
  rcases value_respelled hspelled {} with ⟨v, hv, -⟩ | ⟨x, x', hx, hx', hsame⟩
  · rw [hvalue] at hv
    cases hv
  · rw [hvalue] at hx
    cases hx
    exact ⟨x', hx', hsame⟩

end Expression

end Governance
