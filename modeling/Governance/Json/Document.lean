import Governance.Json.Token

/-!
# JSON documents

A document is JSON text taken apart, every number and string still as it is written and the members
of an object in their order with all repetitions. `Document.ofTokens?` builds it with a stack of the
containers that are still open, one token at a time, so nesting is limited only where a document is
turned into a value: `Document.toJson?` enters at most as many containers as it is told.
-/

set_option autoImplicit false

namespace Governance.Json

/-- JSON text taken apart. -/
inductive Document where
  | null
  | bool (b : Bool)
  | number (l : Literal)
  | string (r : Raw)
  | array (items : List Document)
  | object (members : List (Raw × Document))

namespace Document

/-- A container that is still open, with what it holds so far, backwards. -/
inductive Frame where
  | array (items : List Document)
  | object (members : List (Raw × Document)) (name : Raw)

/-- Where the reader stands between two tokens. The stack has the innermost container first. -/
inductive State where
  /-- A value comes next. -/
  | value (stack : List Frame)
  /-- An array was opened: an item or its end comes next. -/
  | firstItem (stack : List Frame)
  /-- An object was opened: a name or its end comes next. -/
  | firstName (stack : List Frame)
  /-- A comma in an object: a name comes next. -/
  | name (members : List (Raw × Document)) (stack : List Frame)
  /-- A name was read: a colon comes next. -/
  | colon (members : List (Raw × Document)) (name : Raw) (stack : List Frame)
  /-- A value is complete. -/
  | done (value : Document) (stack : List Frame)

/-- The state after the first token of a value. -/
def begin (stack : List Frame) : Token → Option State
  | .null => some (.done .null stack)
  | .bool b => some (.done (.bool b) stack)
  | .number l => some (.done (.number l) stack)
  | .string r => some (.done (.string r) stack)
  | .beginArray => some (.firstItem stack)
  | .beginObject => some (.firstName stack)
  | _ => none

/-- The state after a token that follows a complete value. -/
def next (value : Document) : List Frame → Token → Option State
  | .array items :: stack, .comma => some (.value (.array (value :: items) :: stack))
  | .array items :: stack, .endArray => some (.done (.array (value :: items).reverse) stack)
  | .object members name :: stack, .comma => some (.name ((name, value) :: members) stack)
  | .object members name :: stack, .endObject =>
    some (.done (.object ((name, value) :: members).reverse) stack)
  | _, _ => none

/-- The state after a token; `none` where the token cannot come next. -/
def step : State → Token → Option State
  | .value stack, t => begin stack t
  | .firstItem stack, .endArray => some (.done (.array []) stack)
  | .firstItem stack, t => begin (.array [] :: stack) t
  | .firstName stack, .endObject => some (.done (.object []) stack)
  | .firstName stack, .string r => some (.colon [] r stack)
  | .name members stack, .string r => some (.colon members r stack)
  | .colon members name stack, .colon => some (.value (.object members name :: stack))
  | .done value stack, t => next value stack t
  | _, _ => none

/-- The document that tokens write. -/
def ofTokens? (ts : List Token) : Option Document :=
  match ts.foldlM step (.value []) with
  | some (.done value []) => some value
  | _ => none

/-- The document that a text writes. -/
def ofBytes? (s : List UInt8) : Option Document := (Token.scan s).bind ofTokens?

mutual

/-- The value that a document stands for; at most `depth` containers are entered. Of the members of
one name the last stays. -/
def toJson? (depth : Nat) : Document → Option Json
  | .null => some .null
  | .bool b => some (.bool b)
  | .number l => l.value?.map .number
  | .string r => r.text?.map .string
  | .array items => match depth with
    | 0 => none
    | depth + 1 => (itemsToJson? depth items).map .array
  | .object members => match depth with
    | 0 => none
    | depth + 1 =>
      (membersToJson? depth members).map fun ms => .object (OrderedMap.ofList ms).entries

/-- The values that the items of an array stand for. -/
def itemsToJson? (depth : Nat) : List Document → Option (List Json)
  | [] => some []
  | v :: rest => do return (← toJson? depth v) :: (← itemsToJson? depth rest)

/-- The members that the members of an object stand for. -/
def membersToJson? (depth : Nat) : List (Raw × Document) → Option (List (String × Json))
  | [] => some []
  | (name, v) :: rest => do
    return ((← name.text?), (← toJson? depth v)) :: (← membersToJson? depth rest)

end

/-- The greatest number of containers that may be nested in a value. -/
def maxDepth : Nat := 127

end Document

/-- The value that a text writes. -/
def ofBytes? (s : List UInt8) : Option Json :=
  (Document.ofBytes? s).bind (Document.toJson? Document.maxDepth)

/-- The value that a text writes. -/
def ofText (s : String) : Option Json := ofBytes? s.toUTF8.toList

end Governance.Json
