import Governance.Json.Document

/-!
# Sources of JSON

A record is read from a value or from text that has not been turned into a value yet. The two differ
in what they can show: text may repeat a member, and a member that is not asked for is never looked
at. `Json.Source` is what reading needs of either: the outermost layer, and the whole as a value.
-/

set_option autoImplicit false

namespace Governance.Json

/-- The outermost layer of a source. -/
inductive Layer (δ : Type) where
  | null
  | bool (b : Bool)
  | number (n : Number)
  | string (s : String)
  | array (items : List δ)
  | object (members : List (String × δ))

/-- What reading needs of a source; `none` where it stands for no value. -/
class Source (δ : Type) where
  layer : δ → Option (Layer δ)
  value : δ → Option Json

/-- The outermost layer of a value. -/
def topLayer : Json → Layer Json
  | .null => .null
  | .bool b => .bool b
  | .number n => .number n
  | .string s => .string s
  | .array items => .array items
  | .object members => .object members

instance : Source Json where
  layer v := some (topLayer v)
  value := some

/-- A document of which at most `depth` containers may be entered. -/
structure Excerpt where
  document : Document
  depth : Nat

/-- The outermost layer of a document. -/
def Excerpt.layer (e : Excerpt) : Option (Layer Excerpt) :=
  match e.document, e.depth with
  | .null, _ => some .null
  | .bool b, _ => some (.bool b)
  | .number l, _ => l.value?.map .number
  | .string r, _ => r.text?.map .string
  | .array items, depth + 1 => some (.array (items.map fun d => ⟨d, depth⟩))
  | .object members, depth + 1 =>
    let inner : List (Option (String × Excerpt)) :=
      members.map fun m => m.1.text?.map fun name => (name, ⟨m.2, depth⟩)
    (inner.mapM id).map .object
  | _, 0 => none

instance : Source Excerpt where
  layer := Excerpt.layer
  value e := e.document.toJson? e.depth

/-- The excerpt that is a whole text. -/
def Excerpt.ofBytes? (s : List UInt8) : Option Excerpt :=
  (Document.ofBytes? s).map fun d => ⟨d, Document.maxDepth⟩

end Governance.Json
