import Governance.Hierarchy.Growth
import Mathlib.Data.List.Nodup
import Mathlib.Data.List.Perm.Basic

/-!
# `Governance.Proofs.Asset.Architecture`: the order of the places

`ArchitectureDefinition.tree` makes trees of rows, and `Hierarchy.placements` lists the places
of trees. `ArchitectureDefinition.order` lists the rows in that order without trees:

* `placementsOf_rootTrees` / `positionsOf_rootTrees`: the places of a declaration are those
  of its rows in this order.
* `order_perm`: the order of an accepted declaration has each row once.
* `parentsFirst_order`: the row of a parent stands before the rows of its children.

So two accepted declarations of the same rows differ only in the order of their places.
-/

set_option autoImplicit false

namespace Governance

/-- What the place of a row hangs below. -/
def ArchitectureRow.parent (place : String) (r : ArchitectureRow) : Parent :=
  match r.parentId with
  | some id => .group id
  | none => .external place

/-- A row hangs below a group exactly if it names the group as its parent. -/
theorem ArchitectureRow.parent_eq_group {r : ArchitectureRow} {place p : String} :
    r.parent place = .group p ↔ r.parentId = some p := by
  unfold parent
  cases r.parentId <;> simp

/-- Without the name of a parent, a row hangs below the place of the architecture. -/
theorem ArchitectureRow.parent_eq_external {r : ArchitectureRow} {place p : String} :
    r.parent place = .external p ↔ r.parentId = none ∧ place = p := by
  unfold parent
  cases r.parentId <;> simp

/-- A row is a child of the row whose id it names as its parent. -/
theorem isChildOf_iff {r parent : ArchitectureRow} :
    r.isChildOf parent = true ↔ r.parentId = some parent.id := by
  rw [ArchitectureRow.isChildOf, beq_iff_eq]

/-- A root names no parent. -/
theorem isRoot_iff {r : ArchitectureRow} : r.isRoot = true ↔ r.parentId = none := by
  rw [ArchitectureRow.isRoot, Option.isNone_iff_eq_none]

/-- The rows that a tree is grown from, each before those below it. -/
def preorder (rows : List ArchitectureRow) (row : ArchitectureRow) : List ArchitectureRow :=
  row :: (childRows rows row).attach.flatMap fun child => preorder (otherRows rows row) child.1
termination_by rows.length
decreasing_by exact length_otherRows_lt child.2

/-- A row comes before its children, each of which is followed by the rows below it. -/
theorem preorder_eq (rows : List ArchitectureRow) (row : ArchitectureRow) :
    preorder rows row =
      row :: (childRows rows row).flatMap (preorder (otherRows rows row)) := by
  rw [preorder.eq_def, List.flatMap_subtype (fun _ _ => rfl), List.unattach_attach]

/-- The rows in the order of the places: tree after tree, parents first. -/
def ArchitectureDefinition.order (a : ArchitectureDefinition) : List ArchitectureRow :=
  (a.rows.filter ArchitectureRow.isRoot).flatMap (preorder a.rows)

/-! ### Places of trees -/

/-- The places of trees are those of one tree after another. -/
theorem positionsOf_eq (ts : List ArchitectureTree) :
    ArchitectureTree.positionsOf ts = ts.flatMap ArchitectureTree.positions := by
  induction ts with
  | nil => rfl
  | cons t rest ih => rw [ArchitectureTree.positionsOf, ih, List.flatMap_cons]

/-- The places of trees, with what they hang below, are those of one tree after another. -/
theorem placementsOf_eq (parent : Parent) (ts : List ArchitectureTree) :
    Hierarchy.placementsOf parent ts = ts.flatMap (Hierarchy.placements parent) := by
  induction ts with
  | nil => rfl
  | cons t rest ih => rw [Hierarchy.placementsOf, ih, List.flatMap_cons]

/-- A grown tree has the places of the rows, in the order in which the rows are met. -/
theorem positions_grow (rows : List ArchitectureRow) (row : ArchitectureRow) :
    (grow rows row).positions = (preorder rows row).map ArchitectureRow.position := by
  induction rows, row using grow.induct with
  | case1 rows row ih =>
    rw [grow_eq, preorder_eq, ArchitectureTree.positions, positionsOf_eq, List.flatMap_map,
      List.map_cons, List.map_flatMap]
    -- The children are grown from fewer rows, to which the hypothesis applies.
    refine congrArg (row.position :: ·) (List.flatMap_congr fun child hchild => ?_)
    exact ih ⟨child, hchild⟩

/-- The places of a grown tree are those of its rows, each below the parent that its row
names. -/
theorem placements_grow (place : String) (rows : List ArchitectureRow) (row : ArchitectureRow) :
    Hierarchy.placements (row.parent place) (grow rows row) =
      (preorder rows row).map fun r => (r.position, r.parent place) := by
  induction rows, row using grow.induct with
  | case1 rows row ih =>
    rw [grow_eq, preorder_eq, Hierarchy.placements, placementsOf_eq, List.flatMap_map,
      List.map_cons, List.map_flatMap]
    refine congrArg (_ :: ·) (List.flatMap_congr fun child hchild => ?_)
    have hparent : child.parent place = .group row.position.id :=
      ArchitectureRow.parent_eq_group.mpr (isChildOf_iff.mp (List.mem_filter.mp hchild).2)
    rw [← hparent]
    exact ih ⟨child, hchild⟩

/-! ### Each row once -/

/-- From `c` down to a row, by rows of `rows` that name their parents. -/
inductive Below (rows : List ArchitectureRow) (c : ArchitectureRow) : ArchitectureRow → Prop where
  | self : Below rows c c
  | child {x y : ArchitectureRow} (hx : Below rows c x) (hy : y ∈ rows)
      (hyx : y.isChildOf x = true) : Below rows c y

namespace Below

variable {rows rows' : List ArchitectureRow} {c d r : ArchitectureRow}

/-- A way down stays one among more rows. -/
theorem mono (h : Below rows c r) (hsub : rows ⊆ rows') : Below rows' c r := by
  induction h with
  | self => exact .self
  | child _ hy hyx ih => exact .child ih (hsub hy) hyx

/-- Ways down can be put together. -/
theorem trans (hcd : Below rows c d) (hdr : Below rows d r) : Below rows c r := by
  induction hdr with
  | self => exact hcd
  | child _ hy hyx ih => exact .child ih hy hyx

/-- A way down ends at its start or at one of the rows that it goes through. -/
theorem mem_or_eq (h : Below rows c r) : r = c ∨ r ∈ rows := by
  cases h with
  | self => exact Or.inl rfl
  | child _ hy _ => exact Or.inr hy

end Below

/-- The children of a row are some of the rows. -/
theorem childRows_subset (rows : List ArchitectureRow) (row : ArchitectureRow) :
    childRows rows row ⊆ rows :=
  List.filter_subset_self rows

/-- The rows that are left without the children of a row are some of the rows. -/
theorem otherRows_subset (rows : List ArchitectureRow) (row : ArchitectureRow) :
    otherRows rows row ⊆ rows :=
  List.filter_subset_self rows

/-- What is met below a row is below it. -/
theorem below_of_mem_preorder {rows : List ArchitectureRow} {row r : ArchitectureRow}
    (h : r ∈ preorder rows row) : Below rows row r := by
  induction rows, row using preorder.induct with
  | case1 rows row ih =>
    rw [preorder_eq] at h
    rcases List.mem_cons.mp h with rfl | h
    · exact .self
    · obtain ⟨child, hchild, hr⟩ := List.mem_flatMap.mp h
      -- Below a child there are fewer rows to go through, but they are some of the same rows.
      have hbelow := (ih ⟨child, hchild⟩ hr).mono (otherRows_subset rows row)
      exact (Below.child .self (childRows_subset rows row hchild)
        (List.mem_filter.mp hchild).2).trans hbelow

/-- The ways down from `start` go through `rows`, which are some of the rows `all`. When
`start` is among `rows` itself, it names no parent, so no way down comes to it. -/
structure Starts (all rows : List ArchitectureRow) (start : ArchitectureRow) : Prop where
  subset : rows ⊆ all
  mem : start ∈ all
  not_below : start ∈ rows → start.isRoot = true

/-- The children of a row are starting points for the rows that are left without them. -/
theorem Starts.child {all rows : List ArchitectureRow} {row child : ArchitectureRow}
    (h : Starts all rows row) (hchild : child ∈ childRows rows row) :
    Starts all (otherRows rows row) child := by
  refine ⟨fun r hr => h.subset (otherRows_subset rows row hr),
    h.subset (childRows_subset rows row hchild), fun hmem => ?_⟩
  have hother := (List.mem_filter.mp hmem).2
  rw [(List.mem_filter.mp hchild).2] at hother
  simp at hother

/-- At first all rows are left, and a root is a starting point. -/
theorem Starts.root {rows : List ArchitectureRow} {row : ArchitectureRow} (hrow : row ∈ rows)
    (hroot : row.isRoot = true) : Starts rows rows row :=
  ⟨fun _ hr => hr, hrow, fun _ => hroot⟩

/-- A row is below one starting point only: the way up from it is fixed by the names of the
parents. -/
theorem Below.unique {all rows : List ArchitectureRow} {c d r : ArchitectureRow}
    (hids : ∀ x ∈ all, ∀ y ∈ all, x.id = y.id → x = y) (hc : Starts all rows c)
    (hd : Starts all rows d) (hcr : Below rows c r) (hdr : Below rows d r) : c = d := by
  have hmem : ∀ {c x}, Starts all rows c → Below rows c x → x ∈ all := by
    intro c x hc hx
    rcases hx.mem_or_eq with rfl | hx
    · exact hc.mem
    · exact hc.subset hx
  have hstart : ∀ {c x}, Starts all rows c → c ∈ rows → c.isChildOf x = true → False := by
    intro c x hc hmem hchild
    have hroot := isRoot_iff.mp (hc.not_below hmem)
    rw [isChildOf_iff, hroot] at hchild
    simp at hchild
  -- Both ways up go to the row of the same parent, until one of them starts.
  induction hcr with
  | self =>
    cases hdr with
    | self => rfl
    | child hx hy hyx => exact (hstart hc hy hyx).elim
  | child hx hy hyx ih =>
    cases hdr with
    | self => exact (hstart hd hy hyx).elim
    | child hx' _ hyx' =>
      rw [isChildOf_iff] at hyx hyx'
      obtain rfl := hids _ (hmem hc hx) _ (hmem hd hx') (Option.some.inj (hyx.symm.trans hyx'))
      exact ih hx'

/-- From different starting points the same row is not met twice. -/
theorem nodup_flatMap_preorder {all rows l : List ArchitectureRow}
    (hids : ∀ x ∈ all, ∀ y ∈ all, x.id = y.id → x = y) (hl : l.Nodup)
    (hstarts : ∀ c ∈ l, Starts all rows c) (hnodup : ∀ c ∈ l, (preorder rows c).Nodup) :
    (l.flatMap (preorder rows)).Nodup := by
  refine List.nodup_flatMap.mpr ⟨hnodup, hl.imp_of_mem fun {c d} hc hd hne => ?_⟩
  intro r hrc hrd
  exact hne (Below.unique hids (hstarts c hc) (hstarts d hd) (below_of_mem_preorder hrc)
    (below_of_mem_preorder hrd))

/-- From one starting point no row is met twice. -/
theorem nodup_preorder {all rows : List ArchitectureRow} {row : ArchitectureRow}
    (hids : ∀ x ∈ all, ∀ y ∈ all, x.id = y.id → x = y) (hrows : rows.Nodup)
    (hstart : Starts all rows row) : (preorder rows row).Nodup := by
  induction rows, row using preorder.induct with
  | case1 rows row ih =>
    -- The induction is that of the growing: the children start among the rows that are left.
    rw [preorder_eq]
    refine List.nodup_cons.mpr ⟨fun hmem => ?_,
      nodup_flatMap_preorder hids (hrows.filter _) (fun _ hchild => hstart.child hchild)
        fun child hchild => ih ⟨child, hchild⟩ (hrows.filter _) (hstart.child hchild)⟩
    -- The row would have to be below itself, so it would have a parent.
    obtain ⟨child, hchild, hr⟩ := List.mem_flatMap.mp hmem
    have hrow : ∀ {x}, row ∈ rows → row.isChildOf x = true → False := by
      intro x hmem hx
      rw [isChildOf_iff, isRoot_iff.mp (hstart.not_below hmem)] at hx
      simp at hx
    cases below_of_mem_preorder hr with
    | self => exact hrow (childRows_subset _ _ hchild) (List.mem_filter.mp hchild).2
    | child _ hy hyx => exact hrow (otherRows_subset _ _ hy) hyx

/-! ### Parents first -/

/-- Each row names no parent, or one whose identifier is in `before` or stands before the
row. -/
def ParentsFirst (before : List String) : List ArchitectureRow → Prop
  | [] => True
  | r :: rest => (∀ p, r.parentId = some p → p ∈ before) ∧ ParentsFirst (r.id :: before) rest

namespace ParentsFirst

/-- More ids before do no harm. -/
theorem mono {before before' : List String} {l : List ArchitectureRow}
    (h : ParentsFirst before l) (hsub : before ⊆ before') : ParentsFirst before' l := by
  induction l generalizing before before' with
  | nil => trivial
  | cons r rest ih =>
    exact ⟨fun p hp => hsub (h.1 p hp), ih h.2 (List.cons_subset_cons r.id hsub)⟩

/-- Rows with their parents first can be followed by others of this kind. -/
theorem append {before : List String} {l l' : List ArchitectureRow} (h : ParentsFirst before l)
    (h' : ParentsFirst before l') : ParentsFirst before (l ++ l') := by
  induction l generalizing before with
  | nil => exact h'
  -- Behind the first row its id is among those before, which is one more for the second list.
  | cons r rest ih => exact ⟨h.1, ih h.2 (h'.mono (List.subset_cons_self r.id before))⟩

/-- Rows with their parents first can be put one group after another. -/
theorem flatMap {before : List String} {l : List ArchitectureRow}
    {f : ArchitectureRow → List ArchitectureRow} (h : ∀ r ∈ l, ParentsFirst before (f r)) :
    ParentsFirst before (l.flatMap f) := by
  induction l with
  | nil => trivial
  | cons r rest ih =>
    rw [List.flatMap_cons]
    exact (h r (by simp)).append (ih fun r' hr' => h r' (List.mem_cons_of_mem _ hr'))

end ParentsFirst

namespace ArchitectureDefinition

variable {a : ArchitectureDefinition} {t : Architecture}

/-- Without a repeated row, the identifiers are different from each other and from those
seen before. -/
theorem nodup_of_firstRepeated {seen : List String} {rows : List ArchitectureRow}
    (h : firstRepeated seen rows = none) :
    (rows.map ArchitectureRow.id).Nodup ∧ ∀ r ∈ rows, r.id ∉ seen := by
  induction rows generalizing seen with
  | nil => simp
  | cons r rest ih =>
    rw [firstRepeated] at h
    split at h
    · simp at h
    · rename_i hseen
      -- The rest is searched with the id of the first row among those that were seen.
      obtain ⟨hnodup, hrest⟩ := ih h
      refine ⟨List.nodup_cons.mpr ⟨fun hmem => ?_, hnodup⟩, fun r' hr' => ?_⟩
      · obtain ⟨r', hr', hid⟩ := List.mem_map.mp hmem
        exact hrest r' hr' (by simp [hid])
      · rcases List.mem_cons.mp hr' with rfl | hr'
        · simpa using hseen
        · exact fun hmem => hrest r' hr' (List.mem_cons_of_mem _ hmem)

/-- An accepted declaration has no identifier twice, and the trees of its roots have every
row. -/
theorem tree_ok (h : a.tree = .ok t) : t = ⟨a.name, a.rootTrees⟩ ∧
    (a.rows.map ArchitectureRow.id).Nodup ∧
    ∀ r ∈ a.rows, r.id ∈ (ArchitectureTree.positionsOf a.rootTrees).map Position.id := by
  -- Each check is passed, and the last of them has found no row that was not reached.
  unfold tree at h
  split at h
  · simp at h
  · rename_i hrepeated
    split at h
    · simp at h
    · split at h
      · simp at h
      · split at h
        · simp at h
        · rename_i hreached
          refine ⟨(Except.ok.inj h).symm, (nodup_of_firstRepeated hrepeated).1, fun r hr => ?_⟩
          have hnone := List.find?_eq_none.mp hreached r hr
          simpa using hnone

/-- An accepted declaration has a root. -/
theorem exists_root_of_tree (h : a.tree = .ok t) : ∃ root ∈ a.rows, root.isRoot = true := by
  unfold tree at h
  split at h
  · simp at h
  · split at h
    · simp at h
    · split at h
      · simp at h
      · rename_i hroot
        simpa using hroot

/-- The trees of the roots have the places of the rows in their order. -/
theorem positionsOf_rootTrees (a : ArchitectureDefinition) :
    ArchitectureTree.positionsOf a.rootTrees = a.order.map ArchitectureRow.position := by
  rw [positionsOf_eq, rootTrees, order, List.flatMap_map, List.map_flatMap]
  exact List.flatMap_congr fun row _ => positions_grow a.rows row

/-- The places of a declaration are those of its rows, each below the parent that its row
names. -/
theorem placementsOf_rootTrees (a : ArchitectureDefinition) (place : String) :
    Hierarchy.placementsOf (.external place) a.rootTrees =
      a.order.map fun r => (r.position, r.parent place) := by
  rw [placementsOf_eq, rootTrees, order, List.flatMap_map, List.map_flatMap]
  refine List.flatMap_congr fun row hrow => ?_
  have hparent : row.parent place = .external place :=
    ArchitectureRow.parent_eq_external.mpr ⟨isRoot_iff.mp (List.mem_filter.mp hrow).2, rfl⟩
  rw [← hparent]
  exact placements_grow place a.rows row

/-- In an architecture that was accepted, a row is known by its id. -/
theorem id_injective (h : a.tree = .ok t) :
    ∀ x ∈ a.rows, ∀ y ∈ a.rows, x.id = y.id → x = y :=
  List.inj_on_of_nodup_map (tree_ok h).2.1

/-- The rows in order are below roots. -/
theorem exists_root_of_mem_order {r : ArchitectureRow} (h : r ∈ a.order) :
    ∃ root ∈ a.rows, root.isRoot = true ∧ Below a.rows root r := by
  obtain ⟨root, hroot, hr⟩ := List.mem_flatMap.mp h
  obtain ⟨hmem, hroot⟩ := List.mem_filter.mp hroot
  exact ⟨root, hmem, hroot, below_of_mem_preorder hr⟩

/-- The order holds only rows that were declared. -/
theorem mem_rows_of_mem_order {r : ArchitectureRow} (h : r ∈ a.order) : r ∈ a.rows := by
  obtain ⟨root, hmem, -, hr⟩ := exists_root_of_mem_order h
  rcases hr.mem_or_eq with rfl | hr
  · exact hmem
  · exact hr

/-- The order of an accepted declaration has each row once. -/
theorem order_perm (h : a.tree = .ok t) : a.order.Perm a.rows := by
  obtain ⟨-, hids, hreached⟩ := tree_ok h
  have hrows : a.rows.Nodup := hids.of_map _
  have hstarts : ∀ c ∈ a.rows.filter ArchitectureRow.isRoot, Starts a.rows a.rows c := fun c hc =>
    .root (List.mem_filter.mp hc).1 (List.mem_filter.mp hc).2
  have hnodup : a.order.Nodup :=
    nodup_flatMap_preorder (id_injective h) (hrows.filter _) hstarts fun c hc =>
      nodup_preorder (id_injective h) hrows (hstarts c hc)
  refine (List.perm_ext_iff_of_nodup hnodup hrows).mpr fun r =>
    ⟨mem_rows_of_mem_order, fun hr => ?_⟩
  -- Every row is reached by its id, and rows of one id are equal.
  have hid := hreached r hr
  rw [positionsOf_rootTrees, List.map_map] at hid
  obtain ⟨r', hr', hr'id⟩ := List.mem_map.mp hid
  rwa [← id_injective h r' (mem_rows_of_mem_order hr') r hr hr'id]

end ArchitectureDefinition

end Governance
