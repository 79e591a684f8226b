import Governance.Expression.Builtin
import Governance.Expression.Tree

/-!
# Values of expressions

`Expression.value` gives the value of an expression in an environment. The arguments of a call are
evaluated from the left before the function is looked up; the conditional evaluates its condition
and the branch that it takes.

A text in brackets is an expression; any other text is a literal, in which two brackets at the front
stand for one (`Expression.evaluate`).
-/

set_option autoImplicit false

namespace Governance

namespace Expression

/-- The value of a property. -/
def propertyOf (target : Json) (name : String) : Except ExpressionError Json :=
  match target.members?.bind (lookup? name) with
  | some v => .ok v
  | none => .error (.access (.property name) target)

/-- The value at an index, which is the name of a property or a position. -/
def indexOf (target index : Json) : Except ExpressionError Json :=
  match index with
  | .string name => propertyOf target name
  | .number n =>
    match n.toUnsigned?.bind fun i => target.items?.bind (·[i]?) with
    | some v => .ok v
    | none => .error (.access (.index n) target)
  | _ => .error (.access (.unfit index) target)

/-- The value of a call of `name` with the given values. -/
def callValue (env : Environment) (name : String) (values : List Json) :
    Except ExpressionError Json :=
  match Builtin.ofName? name with
  | some f => f.apply env ⟨name, values⟩
  | none => .error (.unknownFunction name)

mutual

/-- The value of an expression. -/
def value (env : Environment) : Expression → Except ExpressionError Json
  | .string s => .ok (.string s)
  | .integer i => .ok (.number (.integer i))
  | .property target name => do propertyOf (← value env target) name
  | .index target i => do
    let target ← value env target
    indexOf target (← value env i)
  | .call name args =>
    if isConditional name then
      match args with
      | [condition, yes, no] => do
        match ← value env condition with
        | .bool true => value env yes
        | .bool false => value env no
        | _ => .error (.type name (.argument 0 .boolean))
      | _ => .error (.arity name (.exactly 3) args.length)
    else do callValue env name (← values env args)

/-- The values of expressions, from the left. -/
def values (env : Environment) : List Expression → Except ExpressionError (List Json)
  | [] => .ok []
  | e :: rest => do
    let v ← value env e
    return v :: (← values env rest)

end

/-- A literal, in which two brackets at the front stand for one. -/
def literal (s : String) : String :=
  match s.toList with
  | '[' :: '[' :: rest => String.ofList ('[' :: rest)
  | _ => s

/-- The value of a text: that of the expression in it, or the literal that it is. -/
def evaluate (env : Environment) (s : String) : Except ExpressionError Json :=
  match body? s with
  | none => .ok (.string (literal s))
  | some body =>
    match ofChars body with
    | .ok e => value env e
    | .error e => .error (.parse e)

end Expression

end Governance
