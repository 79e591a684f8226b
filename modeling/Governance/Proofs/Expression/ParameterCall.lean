import Governance.Expression.Evaluation
import Governance.Proofs.Expression.Writing
import Governance.Proofs.Order.Map

/-!
# `Governance.Proofs.Expression.ParameterCall`: an expression that stands for a parameter

A member of a set passes a parameter on with the expression `[parameters('name')]`, in which a quote
in the name is written twice. The text is followed through scanner, reader and evaluation.

* `spaced_parameterBody`: the text writes a call with the name as a string.
* `evaluate_parameterCall_eq`: the expression looks the name up, for every name and every
  environment; `evaluate_parameterCall` is the case of a name that is there.
-/

set_option autoImplicit false

namespace Governance.Expression

/-! ### The expression that stands for a parameter -/

/-- What stands between the brackets of the expression that stands for a parameter. -/
def parameterBody (name : String) : List Char :=
  'p' :: ("arameters".toList ++ '(' :: '\'' :: (doubled name.toList ++ '\'' :: [')']))

/-- The text of the expression that stands for a parameter. -/
def parameterCall (name : String) : String :=
  "[parameters('" ++ String.ofList (doubled name.toList) ++ "')]"

/-- The text stands in brackets, so it is an expression and no literal. -/
theorem body?_parameterCall (name : String) :
    body? (parameterCall name) = some (parameterBody name) := by
  refine body?_of_toList ?_ (by simp [parameterBody])
  simp [parameterCall, parameterBody, String.toList_append]

/-- The body is written with the tokens of a call with the name as a string. -/
theorem spaced_parameterBody (name : String) :
    Spaced (tokens (.call "parameters" [.string name])) (parameterBody name) := by
  have htext : parameterBody name =
      (tokens (.call "parameters" [.string name])).flatMap Token.text := by
    simp [parameterBody, tokens, argTokens, moreTokens, Token.text]
  rw [htext]
  exact spaced_flatMap _

/-- The body is read as a call with the name as its one argument. -/
theorem ofChars_parameterBody (name : String) :
    ofChars (parameterBody name) = .ok (.call "parameters" [.string name]) := by
  have hname : isIdentifier "parameters" = true := by decide +kernel
  have hwritable : isWritable (.call "parameters" [.string name]) = true := by
    simp [isWritable, areWritable, hname]
  have hnest : nest (.call "parameters" [.string name]) ≤ maxDepth := by
    simp [nest, nestArgs, maxDepth]
  exact ofChars_spaced (spaced_parameterBody name) hwritable hnest

/-- The expression looks the name up in the environment. -/
theorem evaluate_parameterCall_eq (env : Environment) (name : String) :
    evaluate env (parameterCall name) = match lookup? name env.entries with
      | some v => .ok v
      | none => .error (.unknownParameter name) := by
  -- The call is no conditional, so its argument is evaluated first.
  have hcall : value env (.call "parameters" [.string name]) =
      callValue env "parameters" [.string name] := by
    have hname : isConditional "parameters" = false := by decide
    unfold value
    rw [if_neg (by simp [hname])]
    rfl
  have hfunction : Builtin.ofName? "parameters" = some .parameters := by decide +kernel
  have hexpect : Arguments.expect ⟨"parameters", [.string name]⟩ (.exactly 1) = .ok () := rfl
  have htext : Arguments.text ⟨"parameters", [.string name]⟩ 0 = .ok name := rfl
  rw [evaluate, body?_parameterCall]
  dsimp only
  rw [ofChars_parameterBody]
  dsimp only
  rw [hcall, callValue, hfunction]
  cases hlookup : lookup? name env.entries <;>
    simp only [Builtin.apply, hexpect, htext, bind, Except.bind, hlookup]

/-- The expression has the value of the parameter, whatever the name and the value are. -/
theorem evaluate_parameterCall {env : Environment} {name : String} {v : Json}
    (h : env.get? name = some v) : evaluate env (parameterCall name) = .ok v := by
  -- A name that is there is found as it is, before names that differ from it in case.
  have hfind : lookup? name env.entries = some v := by
    rw [lookup?, OrderedMap.lookup_entries, h]
    rfl
  rw [evaluate_parameterCall_eq, hfind]

end Governance.Expression
