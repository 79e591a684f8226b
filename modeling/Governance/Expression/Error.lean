import Governance.Expression.Token
import Governance.Json.Basic

/-!
# Errors of expressions

Why an expression has no value. Each error is a cause; `ExpressionError.message` is its text.
-/

set_option autoImplicit false

namespace Governance

namespace Expression

/-- How many arguments a function takes. -/
inductive Arity where
  | exactly (n : Nat)
  | either (m n : Nat)
  | atLeast (n : Nat)
  deriving DecidableEq

/-- The wording of an arity. -/
def Arity.text : Arity → String
  | .exactly n => Decimal.text n
  | .either m n => s!"{Decimal.text m} or {Decimal.text n}"
  | .atLeast n => s!"at least {Decimal.text n}"

/-- Whether an arity admits a number of arguments. -/
def Arity.admits : Arity → Nat → Bool
  | .exactly n, count => count == n
  | .either m n, count => count == m || count == n
  | .atLeast n, count => n ≤ count

/-- The kinds of value that a function asks of an argument. -/
inductive Demand where
  | string
  | boolean
  | integer
  | stringOrInteger
  | stringOrArray
  | stringArrayOrObject
  deriving DecidableEq

/-- The wording of a demand. -/
def Demand.text : Demand → String
  | .string => "a string"
  | .boolean => "a boolean"
  | .integer => "an integer"
  | .stringOrInteger => "a string or integer"
  | .stringOrArray => "a string or array"
  | .stringArrayOrObject => "a string, array or object"

/-- Why a function refuses its arguments. -/
inductive TypeFault where
  /-- The argument at a position, counted from 0, is of another kind. -/
  | argument (position : Nat) (demand : Demand)
  | notAnInteger (text : String)
  | negativeStart
  | negativeLength
  | outsideString (start stop length : Nat)
  | unsupported
  | emptyDelimiter
  | unknownRegion (region : String)
  /-- A placeholder, here all between its braces, has no argument. -/
  | noArgument (inside : String)
  deriving DecidableEq

/-- The message of a fault. -/
def TypeFault.message : TypeFault → String
  | .argument position demand => s!"argument {Decimal.text (position + 1)} must be {demand.text}"
  | .notAnInteger text => s!"`{text}` is not an integer"
  | .negativeStart => "start index must not be negative"
  | .negativeLength => "length must not be negative"
  | .outsideString start stop length =>
    s!"range {Decimal.text start}..{Decimal.text stop} is outside a string of length " ++
      Decimal.text length
  | .unsupported => "unsupported argument types"
  | .emptyDelimiter => "delimiter must not be empty"
  | .unknownRegion region => s!"unknown region `{region}`"
  | .noArgument inside => "placeholder `\x7b" ++ inside ++ "\x7d` has no argument"

/-- How messages name a value. -/
def description : Json → String
  | .null => "null"
  | .bool _ => "a boolean"
  | .number _ => "a number"
  | .string _ => "a string"
  | .array _ => "an array"
  | .object _ => "an object"

/-- What an accessor asks for. -/
inductive Accessor where
  | property (name : String)
  | index (n : Number)
  /-- An index that is neither a name nor a number. -/
  | unfit (index : Json)

/-- The wording of an accessor. -/
def Accessor.text : Accessor → String
  | .property name => s!"property `{name}`"
  | .index n => s!"index {n.text}"
  | .unfit v => s!"index {description v}"

end Expression

/-- Why an expression has no value. -/
inductive ExpressionError where
  | parse (e : Expression.ParseError)
  | unknownFunction (name : String)
  | arity (function : String) (expected : Expression.Arity) (actual : Nat)
  | type (function : String) (fault : Expression.TypeFault)
  | unknownParameter (name : String)
  | access (accessor : Expression.Accessor) (target : Json)
  /-- A function reads past its arguments or past the end of a string. -/
  | outOfBounds (function : String)

/-- The message of an error. -/
def ExpressionError.message : ExpressionError → String
  | .parse e => e.message
  | .unknownFunction name => s!"unknown function `{name}`"
  | .arity function expected actual =>
    s!"function `{function}` expects {expected.text} argument(s), got {Decimal.text actual}"
  | .type function fault => s!"function `{function}`: {fault.message}"
  | .unknownParameter name => s!"parameter `{name}` not found"
  | .access accessor target =>
    s!"cannot access {accessor.text} on {Expression.description target}"
  | .outOfBounds function => s!"function `{function}` reads out of bounds"

end Governance
