import Governance.Expression.Token

/-!
# Expressions

An expression is a string, a whole number, a call, a property of an expression or an item of one:

    expression := primary accessor*
    primary    := STRING | INTEGER | IDENTIFIER '(' (expression (',' expression)*)? ')'
    accessor   := '.' IDENTIFIER | '[' expression ']'

`Expression.tokens` writes an expression in this grammar. `Expression.ofTokens` reads one with a
stack of the calls and indexes that are still open, one token at a time; an expression may begin
only while fewer than `maxDepth` of them are open. `Expression.nest` is the depth that an expression
needs.
-/

set_option autoImplicit false

namespace Governance

/-- An expression. -/
inductive Expression where
  | string (value : String)
  | integer (value : Int)
  | call (name : String) (args : List Expression)
  | property (target : Expression) (name : String)
  | index (target : Expression) (index : Expression)

namespace Expression

instance : Inhabited Expression := ⟨.string ""⟩

/-! ### Writing -/

mutual

/-- The tokens that write an expression. -/
def tokens : Expression → List Token
  | .string value => [.string value]
  | .integer value => [.integer value]
  | .call name args => .identifier name :: .openParen :: (argTokens args ++ [.closeParen])
  | .property target name => tokens target ++ [.dot, .identifier name]
  | .index target i => tokens target ++ .openBracket :: (tokens i ++ [.closeBracket])

/-- The tokens that write arguments, with commas between them. -/
def argTokens : List Expression → List Token
  | [] => []
  | arg :: rest => tokens arg ++ moreTokens rest

/-- The tokens that write further arguments, with a comma before each. -/
def moreTokens : List Expression → List Token
  | [] => []
  | arg :: rest => .comma :: (tokens arg ++ moreTokens rest)

end

mutual

/-- The number of expressions that are open at the deepest place, the whole one included. -/
def nest : Expression → Nat
  | .string _ => 1
  | .integer _ => 1
  | .call _ args => 1 + nestArgs args
  | .property target _ => nest target
  | .index target i => max (nest target) (1 + nest i)

/-- The largest nesting among arguments. -/
def nestArgs : List Expression → Nat
  | [] => 0
  | arg :: rest => max (nest arg) (nestArgs rest)

end

/-! ### Reading -/

/-- A call or an index that is still open. -/
inductive Frame where
  /-- A call with the arguments read so far, backwards. -/
  | call (name : String) (args : List Expression)
  /-- An index into an expression. -/
  | index (target : Expression)

/-- Where the reader stands between two tokens. The stack has the innermost frame first. -/
inductive State where
  /-- An expression comes next. -/
  | operand (stack : List Frame)
  /-- The name of a function was read: its opening parenthesis comes next. -/
  | callName (name : String) (stack : List Frame)
  /-- A call was opened: an argument or its end comes next. -/
  | firstArgument (name : String) (stack : List Frame)
  /-- An expression was read: an accessor or whatever follows the expression comes next. -/
  | complete (e : Expression) (stack : List Frame)
  /-- A dot was read: the name of a property comes next. -/
  | property (e : Expression) (stack : List Frame)

/-- The state after the first token of an expression. -/
def begin (stack : List Frame) (t : Token) : Except ParseFault State :=
  if stack.length = maxDepth then .error .tooDeep
  else match t with
    | .string value => .ok (.complete (.string value) stack)
    | .integer value => .ok (.complete (.integer value) stack)
    | .identifier name => .ok (.callName name stack)
    | t => .error (.unexpected t)

/-- The state after a token that follows the whole of an expression. -/
def leave (e : Expression) (stack : List Frame) (t : Token) : Except ParseFault State :=
  match stack with
  | [] => .error (.unexpected t)
  | .call name args :: stack =>
    match t with
    | .closeParen => .ok (.complete (.call name (e :: args).reverse) stack)
    | .comma => .ok (.operand (.call name (e :: args) :: stack))
    | t => .error (.expected .comma t)
  | .index target :: stack =>
    match t with
    | .closeBracket => .ok (.complete (.index target e) stack)
    | t => .error (.expected .closeBracket t)

/-- The state after a token. -/
def step : State → Token → Except ParseFault State
  | .operand stack, t => begin stack t
  | .callName name stack, t =>
    match t with
    | .openParen => .ok (.firstArgument name stack)
    | t => .error (.expected .openParen t)
  | .firstArgument name stack, t =>
    match t with
    | .closeParen => .ok (.complete (.call name []) stack)
    | t => begin (.call name [] :: stack) t
  | .complete e stack, t =>
    match t with
    | .dot => .ok (.property e stack)
    | .openBracket => .ok (.operand (.index e :: stack))
    | t => leave e stack t
  | .property e stack, t =>
    match t with
    | .identifier name => .ok (.complete (.property e name) stack)
    | t => .error (.expectedProperty t)

/-- What the end of the text gives. -/
def finish : State → Except ParseFault Expression
  | .complete e [] => .ok e
  | .operand stack => .error (if stack.length = maxDepth then .tooDeep else .unexpectedEnd)
  | .firstArgument _ stack =>
    .error (if stack.length + 1 = maxDepth then .tooDeep else .unexpectedEnd)
  | _ => .error .unexpectedEnd

/-- Reads on from a state; `stop` is the offset of the end of the text. -/
def readFrom (stop : Nat) (s : State) : List (Token × Nat) → Except ParseError Expression
  | [] =>
    match finish s with
    | .ok e => .ok e
    | .error fault => .error ⟨stop, fault⟩
  | (t, offset) :: rest =>
    match step s t with
    | .ok s' => readFrom stop s' rest
    | .error fault => .error ⟨offset, fault⟩

/-- The expression that tokens write. -/
def ofTokens (stop : Nat) (ts : List (Token × Nat)) : Except ParseError Expression :=
  readFrom stop (.operand []) ts

/-- The expression that a text writes. -/
def ofChars (s : List Char) : Except ParseError Expression :=
  (scan s).bind (ofTokens (byteLength s))

/-- The part of a text between its brackets. A text that begins with two brackets is a literal. -/
def body? (s : String) : Option (List Char) :=
  match s.toList with
  | '[' :: '[' :: _ => none
  | '[' :: rest => if rest.getLast? = some ']' then some rest.dropLast else none
  | _ => none

/-- Whether a text is an expression and not a literal. -/
def isExpression (s : String) : Bool := (body? s).isSome

/-- The expression that a text in brackets writes. -/
def parse (s : String) : Except ParseError Expression :=
  match body? s with
  | none => .error ⟨0, .notEnclosed⟩
  | some body => ofChars body

end Expression

end Governance
