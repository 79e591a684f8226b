import Governance.Json.Record

/-!
# Architectures

An architecture is the shape of a tree of management groups, with the archetypes of each. It is
declared as a list of rows that name their parents; `ArchitectureDefinition.tree` checks the rows
and makes a tree of them. Children stand in the order of their rows.

* `grow_eq`: a grown tree has the position of its row and the trees of its children's rows.
-/

set_option autoImplicit false

namespace Governance

open Json

/-- A place in an architecture. -/
structure Position where
  id : String
  displayName : String
  existing : Bool
  archetypes : OrderedSet String
  deriving DecidableEq

/-- A place with the name of the place above it. -/
structure ArchitectureRow where
  position : Position
  parentId : Option String
  deriving DecidableEq

/-- An architecture as a file declares it. -/
structure ArchitectureDefinition where
  name : String
  rows : List ArchitectureRow
  deriving DecidableEq

/-- A place with the places below it. -/
inductive ArchitectureTree where
  | node (position : Position) (children : List ArchitectureTree)

/-- An architecture. -/
structure Architecture where
  name : String
  roots : List ArchitectureTree

/-- What is wrong with the rows of an architecture. -/
inductive ArchitectureError where
  | duplicateManagementGroup (architecture id : String)
  | unknownParent (architecture id parentId : String)
  | noRoot (architecture : String)
  | cycle (architecture id : String)
  deriving DecidableEq

/-- The message of an error. -/
def ArchitectureError.message : ArchitectureError → String
  | .duplicateManagementGroup architecture id =>
    s!"architecture `{architecture}` declares `{id}` more than once"
  | .unknownParent architecture id parentId =>
    s!"architecture `{architecture}`: `{id}` names unknown parent `{parentId}`"
  | .noRoot architecture => s!"architecture `{architecture}` has no root management group"
  | .cycle architecture id => s!"architecture `{architecture}`: `{id}` is part of a parent cycle"

/-! ### Trees -/

namespace ArchitectureTree

instance : Inhabited ArchitectureTree := ⟨.node ⟨"", "", false, {}⟩ []⟩

mutual

/-- The places of a tree, each before those below it. -/
def positions : ArchitectureTree → List Position
  | .node p children => p :: positionsOf children

/-- The places of trees, one tree after another. -/
def positionsOf : List ArchitectureTree → List Position
  | [] => []
  | t :: rest => positions t ++ positionsOf rest

end

mutual

/-- Writes a tree. -/
def encode : ArchitectureTree → Json
  | .node p children => record [
    ("id", some (.string p.id)),
    ("display_name", some (.string p.displayName)),
    ("exists", some (.bool p.existing)),
    ("archetypes", some (ofTextSet p.archetypes)),
    ("children", some (.array (encodeAll children)))]

/-- Writes trees. -/
def encodeAll : List ArchitectureTree → List Json
  | [] => []
  | t :: rest => encode t :: encodeAll rest

end

end ArchitectureTree

namespace Architecture

/-- The places of an architecture, each before those below it. -/
def positions (a : Architecture) : List Position := ArchitectureTree.positionsOf a.roots

/-- The number of places. -/
def size (a : Architecture) : Nat := a.positions.length

/-- Whether there is no place. -/
def isEmpty (a : Architecture) : Bool := a.roots.isEmpty

/-- Writes an architecture. -/
def encode (a : Architecture) : Json := record [
  ("name", some (.string a.name)),
  ("roots", some (.array (ArchitectureTree.encodeAll a.roots)))]

end Architecture

/-! ### Rows -/

namespace ArchitectureRow

variable {δ : Type} [Source δ]

/-- The name of the place that the row declares. -/
def id (r : ArchitectureRow) : String := r.position.id

/-- Whether the row declares a root. -/
def isRoot (r : ArchitectureRow) : Bool := r.parentId.isNone

/-- Whether the row declares a child of another one. -/
def isChildOf (r parent : ArchitectureRow) : Bool := r.parentId == some parent.id

/-- The names of the fields. -/
def fieldNames : List String := ["id", "display_name", "parent_id", "exists", "archetypes"]

/-- Reads a row. -/
def decode (d : δ) : Option ArchitectureRow := do
  let fs ← readFields fieldNames d
  let id ← fs.required "id" readText
  let displayName ← fs.required "display_name" readText
  let parentId ← fs.optional "parent_id" readText
  let existing ← fs.withDefault "exists" false readBool
  let archetypes ← fs.withDefault "archetypes" {} readTextSet
  return ⟨⟨id, displayName, existing, archetypes⟩, parentId⟩

/-- Writes a row. -/
def encode (r : ArchitectureRow) : Json := record [
  ("id", some (.string r.position.id)),
  ("display_name", some (.string r.position.displayName)),
  ("parent_id", some (ofText? r.parentId)),
  ("exists", some (.bool r.position.existing)),
  ("archetypes", some (ofTextSet r.position.archetypes))]

end ArchitectureRow

/-! ### Growing -/

/-- The rows of the children of a row. -/
def childRows (rows : List ArchitectureRow) (row : ArchitectureRow) : List ArchitectureRow :=
  rows.filter fun r => r.isChildOf row

/-- The rows that do not declare a child of a row. -/
def otherRows (rows : List ArchitectureRow) (row : ArchitectureRow) : List ArchitectureRow :=
  rows.filter fun r => !r.isChildOf row

/-- A child of a row is not among the other rows, so fewer are left to grow its own tree from. -/
theorem length_otherRows_lt {rows : List ArchitectureRow} {row child : ArchitectureRow}
    (h : child ∈ childRows rows row) : (otherRows rows row).length < rows.length := by
  have hchild := List.mem_filter.mp h
  exact List.length_filter_lt_length_iff_exists.mpr ⟨child, hchild.1, by simp [hchild.2]⟩

/-- The tree below a row. The rows of its children are taken out of those that are left for the
trees of the children. -/
def grow (rows : List ArchitectureRow) (row : ArchitectureRow) : ArchitectureTree :=
  .node row.position ((childRows rows row).attach.map fun child =>
    grow (otherRows rows row) child.1)
termination_by rows.length
decreasing_by exact length_otherRows_lt child.2

/-- A grown tree has the position of its row and the trees of its children's rows. -/
theorem grow_eq (rows : List ArchitectureRow) (row : ArchitectureRow) :
    grow rows row =
      .node row.position ((childRows rows row).map (grow (otherRows rows row))) := by
  rw [grow.eq_def, List.attach_map_val]

namespace ArchitectureDefinition

variable {δ : Type} [Source δ]

/-- The names of the fields. -/
def fieldNames : List String := ["name", "management_groups"]

/-- Reads the declaration of an architecture. -/
def decode (d : δ) : Option ArchitectureDefinition := do
  let fs ← readFields fieldNames d
  return {
    name := ← fs.required "name" readText
    rows := ← fs.required "management_groups" (readList ArchitectureRow.decode) }

/-- Writes the declaration of an architecture. -/
def encode (a : ArchitectureDefinition) : Json := record [
  ("name", some (.string a.name)),
  ("management_groups", some (Json.ofList ArchitectureRow.encode a.rows))]

/-- The first row whose name a row before it has; `seen` are the names of earlier rows. -/
def firstRepeated (seen : List String) : List ArchitectureRow → Option ArchitectureRow
  | [] => none
  | r :: rest => if seen.contains r.id then some r else firstRepeated (r.id :: seen) rest

/-- The parent of a row, if no row declares it. -/
def missingParent? (a : ArchitectureDefinition) (r : ArchitectureRow) : Option String :=
  r.parentId.filter fun parent => !a.rows.any fun other => other.id == parent

/-- The trees of the roots. -/
def rootTrees (a : ArchitectureDefinition) : List ArchitectureTree :=
  (a.rows.filter ArchitectureRow.isRoot).map (grow a.rows)

/-- The first row that no root leads to. -/
def firstUnreached (a : ArchitectureDefinition) : Option ArchitectureRow :=
  let reached := (ArchitectureTree.positionsOf a.rootTrees).map Position.id
  a.rows.find? fun r => !reached.contains r.id

/-- The architecture that the rows declare. -/
def tree (a : ArchitectureDefinition) : Except ArchitectureError Architecture :=
  match firstRepeated [] a.rows with
  | some r => .error (.duplicateManagementGroup a.name r.id)
  | none =>
    match a.rows.findSome? fun r => (a.missingParent? r).map (r, ·) with
    | some (r, parent) => .error (.unknownParent a.name r.id parent)
    | none =>
      if !a.rows.any ArchitectureRow.isRoot then .error (.noRoot a.name)
      else match a.firstUnreached with
        | some r => .error (.cycle a.name r.id)
        | none => .ok ⟨a.name, a.rootTrees⟩

end ArchitectureDefinition

end Governance
