import Governance.Expression.Error
import Governance.Expression.Format
import Governance.Json.Printer
import Governance.Order.Map
import Governance.Region
import Governance.Text.CaseMapping
import Governance.Text.Search

/-!
# Functions of expressions

The functions that an expression may call, found by their names without regard to ASCII case, and
what each makes of its arguments. A function reads an argument through `Arguments.value`, which
reports a position that is not there instead of inventing a value.

* `Arguments.value_of_lt`: a position below the number of arguments can be read.
-/

set_option autoImplicit false

namespace Governance

namespace Expression

/-- The parameters that an expression may refer to. -/
abbrev Environment := OrderedMap String Json

/-- A function. -/
inductive Builtin where
  | parameters
  | concat
  | format
  | toLower
  | toUpper
  | trim
  | string
  | int
  | true
  | false
  | null
  | equals
  | not
  | and
  | or
  | empty
  | coalesce
  | replace
  | substring
  | length
  | contains
  | startsWith
  | endsWith
  | split
  | first
  | last
  | createArray
  | regionShortName
  deriving DecidableEq

/-- The functions by their names in small letters. -/
def Builtin.names : List (String × Builtin) :=
  [("parameters", .parameters), ("concat", .concat), ("format", .format), ("tolower", .toLower),
   ("toupper", .toUpper), ("trim", .trim), ("string", .string), ("int", .int), ("true", .true),
   ("false", .false), ("null", .null), ("equals", .equals), ("not", .not), ("and", .and),
   ("or", .or), ("empty", .empty), ("coalesce", .coalesce), ("replace", .replace),
   ("substring", .substring), ("length", .length), ("contains", .contains),
   ("startswith", .startsWith), ("endswith", .endsWith), ("split", .split), ("first", .first),
   ("last", .last), ("createarray", .createArray), ("regionshortname", .regionShortName)]

/-- The function of a name. -/
def Builtin.ofName? (name : String) : Option Builtin := names.lookup (Text.asciiLower name)

/-- Whether a name is that of the conditional, which evaluates only the branch it takes. -/
def isConditional (name : String) : Bool := Text.asciiLower name == "if"

/-! ### Arguments -/

/-- The values that a function was called with, and the name it was called by. -/
structure Arguments where
  function : String
  values : List Json

namespace Arguments

/-- The number of arguments. -/
def count (a : Arguments) : Nat := a.values.length

/-- Fails unless there are as many arguments as the function takes. -/
def expect (a : Arguments) (arity : Arity) : Except ExpressionError Unit :=
  if arity.admits a.count then .ok () else .error (.arity a.function arity a.count)

/-- The failure of a function that refuses its arguments. -/
def refuse {α : Type} (a : Arguments) (fault : TypeFault) : Except ExpressionError α :=
  .error (.type a.function fault)

/-- The argument at a position. -/
def value (a : Arguments) (position : Nat) : Except ExpressionError Json :=
  match a.values[position]? with
  | some v => .ok v
  | none => .error (.outOfBounds a.function)

/-- A position below the number of arguments can be read. -/
theorem value_of_lt {a : Arguments} {position : Nat} (h : position < a.count) :
    a.value position = .ok a.values[position] := by
  simp only [count] at h
  simp [value, h]

/-- The text at a position. -/
def text (a : Arguments) (position : Nat) : Except ExpressionError String := do
  match (← a.value position).text? with
  | some s => .ok s
  | none => a.refuse (.argument position .string)

/-- The truth value at a position. -/
def bool (a : Arguments) (position : Nat) : Except ExpressionError Bool := do
  match (← a.value position).bool? with
  | some b => .ok b
  | none => a.refuse (.argument position .boolean)

/-- The whole number at a position. -/
def int (a : Arguments) (position : Nat) : Except ExpressionError Int := do
  match ← a.value position with
  | .number n => match n.toSigned? with
    | some i => .ok i
    | none => a.refuse (.argument position .integer)
  | _ => a.refuse (.argument position .integer)

end Arguments

/-! ### What functions make of their arguments -/

/-- A value as text: a string as it is, null as nothing, all else as JSON. -/
def stringify : Json → String
  | .string s => s
  | .null => ""
  | v => v.compact

/-- The first entry whose name differs from `name` at most in ASCII case, an exact match first. -/
def lookup? (name : String) (entries : List (String × Json)) : Option Json :=
  entries.lookup name <|>
    (entries.find? fun e => Text.equalIgnoringCase e.1 name).map Prod.snd

/-- The text of a piece of a template. -/
def fill (a : Arguments) (values : List Json) : Piece → Except ExpressionError String
  | .char c => .ok (String.singleton c)
  | .slot position inside =>
    match (Decimal.readUnsigned64 position).bind (values[·]?) with
    | some v => .ok (stringify v)
    | none => a.refuse (.noArgument (String.ofList inside))

/-- Writes the arguments after the first into the template that is the first. -/
def formatted (a : Arguments) : Except ExpressionError String := do
  let template ← a.text 0
  let texts ← (pieces template.toList).mapM (fill a (a.values.drop 1))
  return String.join texts

/-- The items of an array; of another value none. -/
def itemsOf (v : Json) : List Json := v.items?.getD []

/-- Joins arrays to an array, and values of which one is no array to a text. -/
def joined (values : List Json) : Json :=
  if values.all (fun v => v.items?.isSome) && !values.isEmpty then
    .array (values.flatMap itemsOf)
  else .string (String.join (values.map stringify))

/-- Whether a value counts as empty. -/
def isEmptyValue : Json → Bool
  | .null => true
  | .string s => s.isEmpty
  | .array items => items.isEmpty
  | .object members => members.isEmpty
  | _ => false

/-- The characters from `start` on, `count` of them; `none` where they do not all exist. -/
def slice? (s : List Char) (start count : Nat) : Option (List Char) :=
  if start + count ≤ s.length then some ((s.drop start).take count) else none

/-- A part of a text, given by its start and perhaps its length. -/
def substringOf (a : Arguments) : Except ExpressionError Json := do
  let s := (← a.text 0).toList
  let start ← a.int 1
  if start < 0 then a.refuse .negativeStart
  else
    let start := start.toNat
    let count ←
      if a.count = 3 then do
        let length ← a.int 2
        if length < 0 then a.refuse .negativeLength else .ok length.toNat
      else .ok (s.length - start)
    if !Decimal.inUnsigned64 (start + count) then .error (.outOfBounds a.function)
    else if s.length < start + count then
      a.refuse (.outsideString start (start + count) s.length)
    else match slice? s start count with
      | some part => .ok (.string (String.ofList part))
      | none => .error (.outOfBounds a.function)

/-- The size of a text, an array or an object. -/
def sizeOf? : Json → Option Nat
  | .string s => some s.length
  | .array items => some items.length
  | .object members => some members.length
  | _ => none

/-- Whether the first value holds the second; `none` where they do not fit. -/
def holds? : Json → Json → Option Bool
  | .string s, .string part => some (Text.occurs part s)
  | .array items, v => some (items.any fun item => item.same v)
  | .object members, .string name => some (members.any fun m => m.1 == name)
  | _, _ => none

/-- The item or the character that `pick` takes out; `none` where the value has none to offer. -/
def pickFrom? (pick : {α : Type} → List α → Option α) : Json → Option Json
  | .array items => some ((pick items).getD .null)
  | .string s => some (.string ((pick s.toList).elim "" String.singleton))
  | _ => none

/-- The truth values of all arguments. -/
def allFlags (a : Arguments) : Except ExpressionError (List Bool) :=
  (List.range a.count).mapM a.bool

namespace Builtin

/-- The value of a call. -/
def apply (env : Environment) (a : Arguments) : Builtin → Except ExpressionError Json
  | .parameters => do
    a.expect (.exactly 1)
    let name ← a.text 0
    match lookup? name env.entries with
    | some v => .ok v
    | none => .error (.unknownParameter name)
  | .concat => .ok (joined a.values)
  | .format => do
    a.expect (.atLeast 1)
    return .string (← formatted a)
  | .toLower => do
    a.expect (.exactly 1)
    return .string (Text.lowercase (← a.text 0))
  | .toUpper => do
    a.expect (.exactly 1)
    return .string (Text.uppercase (← a.text 0))
  | .trim => do
    a.expect (.exactly 1)
    return .string (Text.trim (← a.text 0))
  | .string => do
    a.expect (.exactly 1)
    return .string (stringify (← a.value 0))
  | .int => do
    a.expect (.exactly 1)
    match ← a.value 0 with
    | .number n =>
      if n.toSigned?.isSome then .ok (.number n) else a.refuse (.argument 0 .stringOrInteger)
    | .string s =>
      match Decimal.readSigned64 (Text.trim s).toList with
      | some i => .ok (.number (.integer i))
      | none => a.refuse (.notAnInteger s)
    | _ => a.refuse (.argument 0 .stringOrInteger)
  | .true => do
    a.expect (.exactly 0)
    return .bool Bool.true
  | .false => do
    a.expect (.exactly 0)
    return .bool Bool.false
  | .null => do
    a.expect (.exactly 0)
    return .null
  | .equals => do
    a.expect (.exactly 2)
    return .bool ((← a.value 0).same (← a.value 1))
  | .not => do
    a.expect (.exactly 1)
    return .bool (!(← a.bool 0))
  | .and => do
    a.expect (.atLeast 2)
    return .bool ((← allFlags a).all id)
  | .or => do
    a.expect (.atLeast 2)
    return .bool ((← allFlags a).any id)
  | .empty => do
    a.expect (.exactly 1)
    return .bool (isEmptyValue (← a.value 0))
  | .coalesce => do
    a.expect (.atLeast 1)
    return (a.values.find? fun v => !v.isNull).getD .null
  | .replace => do
    a.expect (.exactly 3)
    return .string (Text.replaceAll (← a.text 0) (← a.text 1) (← a.text 2))
  | .substring => do
    a.expect (.either 2 3)
    substringOf a
  | .length => do
    a.expect (.exactly 1)
    match sizeOf? (← a.value 0) with
    | some n => .ok (.ofNat n)
    | none => a.refuse (.argument 0 .stringArrayOrObject)
  | .contains => do
    a.expect (.exactly 2)
    match holds? (← a.value 0) (← a.value 1) with
    | some b => .ok (.bool b)
    | none => a.refuse .unsupported
  | .startsWith => do
    a.expect (.exactly 2)
    let s := Text.lowercase (← a.text 0)
    return .bool (Text.beginsWith (Text.lowercase (← a.text 1)) s)
  | .endsWith => do
    a.expect (.exactly 2)
    let s := Text.lowercase (← a.text 0)
    return .bool (Text.finishesWith (Text.lowercase (← a.text 1)) s)
  | .split => do
    a.expect (.exactly 2)
    let s ← a.text 0
    let delimiter ← a.text 1
    if delimiter.isEmpty then a.refuse .emptyDelimiter
    else return .ofTexts (Text.pieces delimiter s)
  | .first => do
    a.expect (.exactly 1)
    match pickFrom? List.head? (← a.value 0) with
    | some v => .ok v
    | none => a.refuse (.argument 0 .stringOrArray)
  | .last => do
    a.expect (.exactly 1)
    match pickFrom? List.getLast? (← a.value 0) with
    | some v => .ok v
    | none => a.refuse (.argument 0 .stringOrArray)
  | .createArray => .ok (.array a.values)
  | .regionShortName => do
    a.expect (.exactly 1)
    let region ← a.text 0
    match Region.shortName? region with
    | some short => .ok (.string short)
    | none => a.refuse (.unknownRegion region)

end Builtin

end Expression

end Governance
