import Governance.Proofs.Asset.Architecture
import Mathlib

/-!
# `Governance.Proofs.Asset.Forest`: which rows make an architecture

A declaration is a list of rows, and each row may name a parent. Rows that pass the first checks
have different ids, name only parents that are there, and include a root
(`ArchitectureDefinition.PassesChecks`). The way up from such a row has one direction. It ends at a
root, or it never ends.

* `GrownFrom` describes the tree below a row without a guard against rows that were met before, and
  `grownFrom_grow` says that there is such a tree below each root, whatever cycles the other rows
  make.
* `rooted_or_leadsToCycle` and `not_onCycle_of_rooted`: a row leads up either to a root or to a
  cycle, and not to both.
* `ArchitectureDefinition.PassesChecks.reached_iff`: the rows in the trees are those that lead up to
  a root.
* `ArchitectureDefinition.tree_folds_forest`: a declaration is accepted if and only if its rows are
  a forest (`ArchitectureDefinition.IsForest`), and then the architecture is the one that they stand
  for (`ArchitectureDefinition.FoldsTo`).
* `ArchitectureDefinition.tree_cycle_iff`: a cycle is reported at the first row that leads up to
  one. The row need not be on the cycle (`ArchitectureDefinition.cycle_reported_below`).
-/

set_option autoImplicit false

namespace Governance

variable {all rows : List ArchitectureRow} {row r x : ArchitectureRow}

/-! ### Trees without a guard -/

/-- The tree below a row: each place has the trees of all rows that name it as their parent, in
their order. No row is left out because it was met before, so there is such a tree only where every
way down comes to an end. -/
inductive GrownFrom (rows : List ArchitectureRow) : ArchitectureRow → ArchitectureTree → Prop
  | node {row : ArchitectureRow} {children : List ArchitectureTree}
    (hchildren : List.Forall₂ (GrownFrom rows) (childRows rows row) children) :
    GrownFrom rows row (.node row.position children)

/-- A row that is left and has a parent is another one than the starting point. -/
theorem Starts.id_ne (h : Starts all rows row)
    (hids : ∀ x ∈ all, ∀ y ∈ all, x.id = y.id → x = y) (hx : x ∈ rows)
    (hparent : ¬ x.isRoot = true) : x.id ≠ row.id := by
  intro hid
  obtain rfl := hids x (h.subset hx) row h.mem hid
  exact hparent (h.not_below hx)

/-- To take out the children of one row leaves the children of another one. -/
theorem childRows_otherRows (h : x.id ≠ row.id) :
    childRows (otherRows rows row) x = childRows rows x := by
  unfold childRows otherRows
  rw [List.filter_filter]
  refine List.filter_congr fun y _ => ?_
  by_cases hyx : y.isChildOf x = true
  · have hyrow : ¬ y.isChildOf row = true := by
      intro hyrow
      rw [isChildOf_iff] at hyx hyrow
      exact h (Option.some.inj (hyx.symm.trans hyrow))
    simp [hyx, hyrow]
  · simp [hyx]

/-- A row below a child is left when the children are taken out, or it is the child. -/
theorem Below.mem_and_parent {child : ArchitectureRow} (h : Below (otherRows rows row) child x)
    (hchild : child ∈ childRows rows row) : x ∈ rows ∧ ¬ x.isRoot = true := by
  have hasParent : ∀ {y z : ArchitectureRow}, y.isChildOf z = true → ¬ y.isRoot = true := by
    intro y z hyz
    rw [isRoot_iff, isChildOf_iff.mp hyz]
    simp
  cases h with
  | self => exact ⟨childRows_subset rows row hchild, hasParent (List.mem_filter.mp hchild).2⟩
  | child _ hy hyx => exact ⟨otherRows_subset rows row hy, hasParent hyx⟩

/-- The recursion takes rows out and yet finds all children: below a starting point no row is met
again, so a row that was taken out is not asked for again. -/
theorem grownFrom_of_starts (hids : ∀ x ∈ all, ∀ y ∈ all, x.id = y.id → x = y)
    (hstart : Starts all rows row)
    (hall : ∀ x, Below rows row x → childRows all x = childRows rows x) :
    GrownFrom all row (grow rows row) := by
  induction rows, row using grow.induct with
  | case1 rows row ih =>
    -- The children grow from fewer rows. So the children of each row below have to be the same
    -- among all rows and among those that are left.
    rw [grow_eq]
    refine .node ?_
    rw [hall row .self, List.forall₂_map_right_iff, List.forall₂_same]
    intro child hchild
    refine ih ⟨child, hchild⟩ (hstart.child hchild) fun x hx => ?_
    obtain ⟨hmem, hparent⟩ := hx.mem_and_parent hchild
    have hbelow : Below rows row x :=
      (Below.child .self (childRows_subset rows row hchild) (List.mem_filter.mp hchild).2).trans
        (hx.mono (otherRows_subset rows row))
    -- A row below a child is not the row itself, so no child of it was taken out.
    rw [hall x hbelow, childRows_otherRows (hstart.id_ne hids hmem hparent)]

/-- Below a root there is a tree, and it is the one that is made. Cycles among other rows do not
matter. -/
theorem grownFrom_grow (hids : ∀ x ∈ rows, ∀ y ∈ rows, x.id = y.id → x = y) (hrow : row ∈ rows)
    (hroot : row.isRoot = true) : GrownFrom rows row (grow rows row) :=
  grownFrom_of_starts hids (.root hrow hroot) fun _ _ => rfl

/-- One of two related lists has a partner for each item of the other. -/
theorem exists_of_forall₂ {α β : Type} {R : α → β → Prop} {l : List α} {l' : List β}
    (h : List.Forall₂ R l l') {a : α} (ha : a ∈ l) : ∃ b ∈ l', R a b := by
  induction h with
  | nil => simp at ha
  | @cons a' b' l l' hab _ ih =>
    rcases List.mem_cons.mp ha with rfl | ha
    · exact ⟨b', by simp, hab⟩
    · obtain ⟨b, hb, hR⟩ := ih ha
      exact ⟨b, List.mem_cons_of_mem _ hb, hR⟩

/-- The tree of a row has the trees of all rows below it. -/
theorem GrownFrom.exists_below {t : ArchitectureTree} (h : GrownFrom rows row t)
    (hr : Below rows row r) : ∃ t', GrownFrom rows r t' ∧ t'.positions ⊆ t.positions := by
  -- Down the way from the row, each step goes from a tree into one of the trees of its children.
  induction hr with
  | self => exact ⟨t, h, fun _ hp => hp⟩
  | @child x y _ hy hyx ih =>
    obtain ⟨t', ⟨hchildren⟩, hsub⟩ := ih
    have hchild : y ∈ childRows rows x := List.mem_filter.mpr ⟨hy, hyx⟩
    obtain ⟨t'', hmem, hgrown⟩ := exists_of_forall₂ hchildren hchild
    refine ⟨t'', hgrown, fun p hp => hsub ?_⟩
    rw [ArchitectureTree.positions, positionsOf_eq]
    exact List.mem_cons_of_mem _ (List.mem_flatMap.mpr ⟨t'', hmem, hp⟩)

/-- The tree of a row has the places of all rows below it. -/
theorem GrownFrom.position_mem {t : ArchitectureTree} (h : GrownFrom rows row t)
    (hr : Below rows row r) : r.position ∈ t.positions := by
  obtain ⟨t', ⟨hchildren⟩, hsub⟩ := h.exists_below hr
  refine hsub ?_
  rw [ArchitectureTree.positions]
  simp

/-! ### The way up -/

/-- The way up from a row comes to a root. -/
def Rooted (rows : List ArchitectureRow) (r : ArchitectureRow) : Prop :=
  ∃ root ∈ rows, root.isRoot = true ∧ Below rows root r

/-- The way up from a row comes back to it, in one or more steps. -/
def OnCycle (rows : List ArchitectureRow) (r : ArchitectureRow) : Prop :=
  r ∈ rows ∧ ∃ p ∈ rows, r.isChildOf p = true ∧ Below rows r p

/-- A row on a cycle is the parent of a row. -/
theorem OnCycle.exists_child (h : OnCycle rows r) : ∃ y ∈ rows, y.isChildOf r = true := by
  obtain ⟨hr, p, -, hrp, hbelow⟩ := h
  -- Down from the row there is a first step, unless the row is its own parent.
  have hdown : ∀ {x}, Below rows r x → x = r ∨ ∃ y ∈ rows, y.isChildOf r = true := by
    intro x hx
    induction hx with
    | self => exact Or.inl rfl
    | @child x y _ hy hyx ih =>
      rcases ih with rfl | hchild
      · exact Or.inr ⟨y, hy, hyx⟩
      · exact Or.inr hchild
  rcases hdown hbelow with rfl | hchild
  · exact ⟨p, hr, hrp⟩
  · exact hchild

/-- The way up from a row comes to a cycle. The row is on the cycle or hangs below it. -/
def LeadsToCycle (rows : List ArchitectureRow) (r : ArchitectureRow) : Prop :=
  ∃ c, OnCycle rows c ∧ Below rows c r

/-- When every parent is there, the way up from a row comes to a root or to a cycle. -/
theorem rooted_or_leadsToCycle
    (hnamed : ∀ x ∈ rows, ∀ p, x.parentId = some p → ∃ q ∈ rows, q.id = p) (hr : r ∈ rows) :
    Rooted rows r ∨ LeadsToCycle rows r := by
  classical
  let above (x : ArchitectureRow) : Finset ArchitectureRow := {y ∈ rows.toFinset | Below rows y x}
  have hmem : ∀ x y, y ∈ above x ↔ y ∈ rows ∧ Below rows y x := by simp [above]
  -- Of the rows on the way up, take one that has the fewest rows above it.
  have hself : r ∈ above r := (hmem r r).mpr ⟨hr, .self⟩
  obtain ⟨x, hx, hleast⟩ := (above r).exists_min_image (fun x => (above x).card) ⟨r, hself⟩
  obtain ⟨hx, hxr⟩ := (hmem r x).mp hx
  cases hparent : x.parentId with
  | none => exact Or.inl ⟨x, hx, isRoot_iff.mpr hparent, hxr⟩
  | some p =>
    obtain ⟨q, hq, rfl⟩ := hnamed x hx p hparent
    have hchild : x.isChildOf q = true := isChildOf_iff.mpr hparent
    have hqx : Below rows q x := .child .self hx hchild
    by_cases hcycle : Below rows x q
    · exact Or.inr ⟨x, ⟨hx, q, hq, hchild, hcycle⟩, hxr⟩
    · -- Its parent would have fewer, since the row itself is not above its parent.
      have hfewer : above q ⊂ above x := by
        refine Finset.ssubset_iff_subset_ne.mpr ⟨fun y hy => ?_, fun heq => ?_⟩
        · obtain ⟨hy, hyq⟩ := (hmem q y).mp hy
          exact (hmem x y).mpr ⟨hy, hyq.trans hqx⟩
        · have hxx : x ∈ above x := (hmem x x).mpr ⟨hx, .self⟩
          rw [← heq] at hxx
          exact hcycle ((hmem q x).mp hxx).2
      have hle := hleast q ((hmem r q).mpr ⟨hq, hqx.trans hxr⟩)
      have hlt := Finset.card_lt_card hfewer
      omega

/-- The way up has one direction, so a row that leads to a root leads to no cycle. -/
theorem not_onCycle_of_rooted (hids : ∀ x ∈ rows, ∀ y ∈ rows, x.id = y.id → x = y)
    (hr : Rooted rows r) {c : ArchitectureRow} (hc : Below rows c r) : ¬ OnCycle rows c := by
  obtain ⟨root, hmem, hroot, hbelow⟩ := hr
  have notRoot : ∀ {y z : ArchitectureRow}, y.isChildOf z = true → y.parentId ≠ none := by
    intro y z hyz
    rw [isChildOf_iff.mp hyz]
    simp
  have hinRows : ∀ {x y : ArchitectureRow}, x ∈ rows → Below rows x y → y ∈ rows := by
    intro x y hx hxy
    rcases hxy.mem_or_eq with rfl | hy
    · exact hx
    · exact hy
  rintro ⟨hcmem, p, hp, hcp, hcycle⟩
  -- The induction goes down from the root, with any cycle above the row that is reached.
  induction hbelow generalizing c p with
  | self =>
    cases hc with
    | self => exact notRoot hcp (isRoot_iff.mp hroot)
    | child _ _ hchild => exact notRoot hchild (isRoot_iff.mp hroot)
  | @child x y hx hy hyx ih =>
    have hsame : ∀ {z : ArchitectureRow}, z ∈ rows → y.isChildOf z = true → z = x := by
      intro z hz hyz
      rw [isChildOf_iff] at hyx hyz
      exact hids z hz x (hinRows hmem hx) (Option.some.inj (hyz.symm.trans hyx))
    cases hc with
    | self =>
      -- The row is on the cycle itself, so its parent has the row above it.
      obtain rfl := hsame hp hcp
      exact ih hcycle hcmem p hp hcp hcycle
    | @child z _ hcz _ hyz =>
      obtain rfl := hsame (hinRows hcmem hcz) hyz
      exact ih hcz hcmem p hp hcp hcycle

namespace ArchitectureDefinition

variable {a : ArchitectureDefinition} {t : Architecture}

/-! ### Checks -/

/-- The rows pass the checks that come before the trees:

- `distinct`: no two rows have one id;
- `named`: a parent that a row names is there;
- `root`: some row names no parent. -/
structure PassesChecks (a : ArchitectureDefinition) : Prop where
  distinct : (a.rows.map ArchitectureRow.id).Nodup
  named : ∀ r ∈ a.rows, ∀ p, r.parentId = some p → ∃ q ∈ a.rows, q.id = p
  root : ∃ r ∈ a.rows, r.isRoot = true

/-- The rows are a forest: they pass the checks, and each row leads up to a root. -/
structure IsForest (a : ArchitectureDefinition) : Prop extends a.PassesChecks where
  rooted : ∀ r ∈ a.rows, Rooted a.rows r

/-- Rows that pass the checks are known by their ids. -/
theorem PassesChecks.id_injective (h : a.PassesChecks) :
    ∀ x ∈ a.rows, ∀ y ∈ a.rows, x.id = y.id → x = y :=
  List.inj_on_of_nodup_map h.distinct

/-- Where the ids are different from each other and from those seen before, none is repeated. -/
theorem firstRepeated_of_nodup {seen : List String} {rows : List ArchitectureRow}
    (h : (rows.map ArchitectureRow.id).Nodup) (hseen : ∀ r ∈ rows, r.id ∉ seen) :
    firstRepeated seen rows = none := by
  induction rows generalizing seen with
  | nil => rfl
  | cons r rest ih =>
    obtain ⟨hr, hrest⟩ := List.nodup_cons.mp h
    have hfresh : ¬ seen.contains r.id = true := by simpa using hseen r (by simp)
    rw [firstRepeated, if_neg hfresh]
    -- The id of the first row is seen from now on, and no other row has it.
    refine ih hrest fun q hq hmem => ?_
    rcases List.mem_cons.mp hmem with hid | hmem
    · exact hr (List.mem_map.mpr ⟨q, hq, hid⟩)
    · exact hseen q (List.mem_cons_of_mem _ hq) hmem

/-- No row names a parent that is missing, if and only if every parent that is named is there. -/
theorem findSome?_missingParent_iff :
    (a.rows.findSome? fun r => (a.missingParent? r).map (r, ·)) = none ↔
      ∀ r ∈ a.rows, ∀ p, r.parentId = some p → ∃ q ∈ a.rows, q.id = p := by
  simp only [List.findSome?_eq_none_iff, Option.map_eq_none_iff, missingParent?,
    Option.filter_eq_none_iff, Bool.not_eq_true', Bool.not_eq_false, List.any_eq_true, beq_iff_eq]

/-- Rows that pass the checks make an architecture, or a cycle is reported. -/
theorem PassesChecks.tree_eq (h : a.PassesChecks) : a.tree = match a.firstUnreached with
    | some r => .error (.cycle a.name r.id)
    | none => .ok ⟨a.name, a.rootTrees⟩ := by
  have hrepeated : firstRepeated [] a.rows = none := firstRepeated_of_nodup h.distinct (by simp)
  have hmissing := findSome?_missingParent_iff.mpr h.named
  have hroot : a.rows.any ArchitectureRow.isRoot = true := List.any_eq_true.mpr h.root
  rw [tree, hrepeated, hmissing]
  simp only [hroot]
  rfl

/-- Rows that do not pass the checks are refused for it, and no cycle is reported. -/
theorem passesChecks_or_error (a : ArchitectureDefinition) :
    a.PassesChecks ∨ ∃ e, a.tree = .error e ∧ ∀ name id, e ≠ .cycle name id := by
  -- The three checks come one after another. Each of them has an error of its own, or leaves its
  -- part of the conclusion.
  unfold tree
  cases hrepeated : firstRepeated [] a.rows with
  | some r => exact Or.inr ⟨_, rfl, by simp⟩
  | none =>
    dsimp only
    cases hmissing : a.rows.findSome? fun r => (a.missingParent? r).map (r, ·) with
    | some e => exact Or.inr ⟨_, rfl, by simp⟩
    | none =>
      dsimp only
      by_cases hroot : a.rows.any ArchitectureRow.isRoot = true
      · refine Or.inl ⟨(nodup_of_firstRepeated hrepeated).1, ?_, List.any_eq_true.mp hroot⟩
        exact findSome?_missingParent_iff.mp hmissing
      · rw [if_pos (by simpa using hroot)]
        exact Or.inr ⟨_, rfl, by simp⟩

/-! ### Rows in the trees -/

/-- The rows in the trees are those that lead up to a root. -/
theorem PassesChecks.reached_iff (h : a.PassesChecks) (hr : r ∈ a.rows) :
    r.id ∈ (ArchitectureTree.positionsOf a.rootTrees).map Position.id ↔ Rooted a.rows r := by
  constructor
  · intro hid
    rw [positionsOf_rootTrees, List.map_map] at hid
    obtain ⟨r', hr', hid⟩ := List.mem_map.mp hid
    -- The id was found at some row, and the ids tell rows apart.
    obtain rfl := h.id_injective r' (mem_rows_of_mem_order hr') r hr hid
    exact exists_root_of_mem_order hr'
  · rintro ⟨root, hmem, hroot, hbelow⟩
    have hposition := (grownFrom_grow h.id_injective hmem hroot).position_mem hbelow
    refine List.mem_map.mpr ⟨r.position, ?_, rfl⟩
    rw [positionsOf_eq, rootTrees, List.flatMap_map]
    exact List.mem_flatMap.mpr ⟨root, List.mem_filter.mpr ⟨hmem, hroot⟩, hposition⟩

/-- Every row is reached exactly if every row has a root. -/
theorem PassesChecks.firstUnreached_eq_none_iff (h : a.PassesChecks) :
    a.firstUnreached = none ↔ ∀ r ∈ a.rows, Rooted a.rows r := by
  unfold firstUnreached
  rw [List.find?_eq_none]
  refine forall₂_congr fun r hr => ?_
  rw [← h.reached_iff hr]
  simp

/-- The row that is reported is the first one without a root. -/
theorem PassesChecks.firstUnreached_eq_some_iff (h : a.PassesChecks) :
    a.firstUnreached = some r ↔ ∃ before after, a.rows = before ++ r :: after ∧
      ¬ Rooted a.rows r ∧ ∀ q ∈ before, Rooted a.rows q := by
  unfold firstUnreached
  rw [List.find?_eq_some_iff_append]
  -- The search asks whether the id was reached, for which `reached_iff` puts the way up to a root,
  -- in both directions.
  constructor
  · rintro ⟨hr, before, after, hrows, hbefore⟩
    refine ⟨before, after, hrows, ?_, fun q hq => ?_⟩
    · rw [← h.reached_iff (by simp [hrows])]
      simpa using hr
    · rw [← h.reached_iff (by simp [hrows, hq])]
      simpa using hbefore q hq
  · rintro ⟨before, after, hrows, hr, hbefore⟩
    refine ⟨?_, before, after, hrows, fun q hq => ?_⟩
    · rw [← h.reached_iff (by simp [hrows])] at hr
      simpa using hr
    · have hq' := hbefore q hq
      rw [← h.reached_iff (by simp [hrows, hq])] at hq'
      simpa using hq'

/-! ### Forests -/

/-- In a forest every row is reached. -/
theorem IsForest.firstUnreached_eq_none (h : a.IsForest) : a.firstUnreached = none :=
  h.firstUnreached_eq_none_iff.mpr h.rooted

/-- A declaration is accepted if and only if its rows are a forest. -/
theorem tree_ok_iff_isForest (a : ArchitectureDefinition) :
    (∃ t, a.tree = .ok t) ↔ a.IsForest := by
  constructor
  · rintro ⟨t, ht⟩
    obtain h | ⟨e, he, -⟩ := a.passesChecks_or_error
    · rw [h.tree_eq] at ht
      -- Behind the checks only the search for a row that was not reached is left.
      cases hunreached : a.firstUnreached with
      | none => exact { h with rooted := h.firstUnreached_eq_none_iff.mp hunreached }
      | some r => simp [hunreached] at ht
    · simp [he] at ht
  · intro h
    rw [h.tree_eq, h.firstUnreached_eq_none]
    exact ⟨_, rfl⟩

/-- The architecture that the rows stand for:

- `name`: it has the name of the declaration;
- `roots`: its roots are the rows without a parent, in their order, and below each row are the rows
  that name it as their parent, in their order;
- `positions`: it has the place of each row once, with all that the row says about it;
- `size`: it has as many places as there are rows. -/
structure FoldsTo (a : ArchitectureDefinition) (t : Architecture) : Prop where
  name : t.name = a.name
  roots : List.Forall₂ (GrownFrom a.rows) (a.rows.filter ArchitectureRow.isRoot) t.roots
  positions : t.positions.Perm (a.rows.map ArchitectureRow.position)
  size : t.size = a.rows.length

/-- An architecture that is accepted folds to its tree. -/
theorem foldsTo_of_tree (h : a.tree = .ok t) : a.FoldsTo t := by
  obtain ⟨rfl, -, -⟩ := tree_ok h
  -- Each root grows its tree, and the rows of all the trees are the declared ones in another order.
  have hroots : List.Forall₂ (GrownFrom a.rows) (a.rows.filter ArchitectureRow.isRoot)
      a.rootTrees := by
    rw [rootTrees, List.forall₂_map_right_iff, List.forall₂_same]
    intro root hroot
    obtain ⟨hmem, hroot⟩ := List.mem_filter.mp hroot
    exact grownFrom_grow (id_injective h) hmem hroot
  have hpositions : (Architecture.positions ⟨a.name, a.rootTrees⟩).Perm
      (a.rows.map ArchitectureRow.position) := by
    rw [Architecture.positions, positionsOf_rootTrees]
    exact (order_perm h).map _
  have hsize : Architecture.size ⟨a.name, a.rootTrees⟩ = a.rows.length := by
    rw [Architecture.size, hpositions.length_eq, List.length_map]
  exact ⟨rfl, hroots, hpositions, hsize⟩

/-- Where no two rows have one id, the tree below each root is finite, though no row is marked when
it is met. The rows are accepted if and only if they are a forest, and the architecture is then the
one that they stand for. -/
theorem tree_folds_forest (a : ArchitectureDefinition) :
    ((a.rows.map ArchitectureRow.id).Nodup →
      ∀ root ∈ a.rows, root.isRoot = true → ∃ t, GrownFrom a.rows root t) ∧
    ((∃ t, a.tree = .ok t) ↔ a.IsForest) ∧
    ∀ t, a.tree = .ok t → a.FoldsTo t := by
  refine ⟨fun hids root hmem hroot => ?_, a.tree_ok_iff_isForest, fun t h => foldsTo_of_tree h⟩
  exact ⟨_, grownFrom_grow (List.inj_on_of_nodup_map hids) hmem hroot⟩

/-! ### Cycles -/

/-- A row of checked rows leads up to a cycle if and only if it does not lead up to a root. -/
theorem PassesChecks.leadsToCycle_iff (h : a.PassesChecks) (hr : r ∈ a.rows) :
    LeadsToCycle a.rows r ↔ ¬ Rooted a.rows r := by
  constructor
  · rintro ⟨c, hcycle, hbelow⟩ hrooted
    exact not_onCycle_of_rooted h.id_injective hrooted hbelow hcycle
  · intro hrooted
    exact (rooted_or_leadsToCycle h.named hr).resolve_left hrooted

/-- A cycle is reported for checked rows, at the first row that leads up to one. -/
theorem tree_cycle_iff (a : ArchitectureDefinition) (name id : String) :
    a.tree = .error (.cycle name id) ↔
      name = a.name ∧ a.PassesChecks ∧ ∃ before r after, a.rows = before ++ r :: after ∧
        r.id = id ∧ LeadsToCycle a.rows r ∧ ∀ q ∈ before, ¬ LeadsToCycle a.rows q := by
  constructor
  · intro htree
    obtain h | ⟨e, he, hne⟩ := a.passesChecks_or_error
    · rw [h.tree_eq] at htree
      -- The checks report no cycle, so it is the search that does. It finds the first row without a
      -- root, and such a row leads to a cycle.
      cases hunreached : a.firstUnreached with
      | none => simp [hunreached] at htree
      | some r =>
        simp only [hunreached, Except.error.injEq, ArchitectureError.cycle.injEq] at htree
        obtain ⟨before, after, hrows, hr, hbefore⟩ := h.firstUnreached_eq_some_iff.mp hunreached
        refine ⟨htree.1.symm, h, before, r, after, hrows, htree.2, ?_, fun q hq => ?_⟩
        · exact (h.leadsToCycle_iff (by simp [hrows])).mpr hr
        · rw [h.leadsToCycle_iff (by simp [hrows, hq]), not_not]
          exact hbefore q hq
    · rw [he, Except.error.injEq] at htree
      exact absurd htree (hne name id)
  · rintro ⟨rfl, h, before, r, after, hrows, rfl, hr, hbefore⟩
    -- The first row that leads to a cycle is the first one without a root, which the search finds.
    have hfirst : a.firstUnreached = some r := by
      refine h.firstUnreached_eq_some_iff.mpr ⟨before, after, hrows, ?_, fun q hq => ?_⟩
      · exact (h.leadsToCycle_iff (by simp [hrows])).mp hr
      · have hq' := hbefore q hq
        rwa [h.leadsToCycle_iff (by simp [hrows, hq]), not_not] at hq'
    rw [h.tree_eq, hfirst]

end ArchitectureDefinition

/-! ### A row below a cycle -/

namespace Sample

/-- A root. -/
def top : ArchitectureRow := ⟨⟨"top", "Top", false, {}⟩, none⟩

/-- A row that is its own parent. -/
def loop : ArchitectureRow := ⟨⟨"loop", "Loop", false, {}⟩, some "loop"⟩

/-- A row below the cycle. -/
def tail : ArchitectureRow := ⟨⟨"tail", "Tail", false, {}⟩, some "loop"⟩

end Sample

/-- A cycle is reported at a row that hangs below it and is on no cycle. -/
theorem ArchitectureDefinition.cycle_reported_below :
    ArchitectureDefinition.tree ⟨"hanging", [Sample.top, Sample.tail, Sample.loop]⟩ =
      .error (.cycle "hanging" "tail") ∧
    ¬ ∃ r ∈ [Sample.top, Sample.tail, Sample.loop], r.id = "tail" ∧
      OnCycle [Sample.top, Sample.tail, Sample.loop] r := by
  refine ⟨by cbv, ?_⟩
  rintro ⟨r, -, hid, hcycle⟩
  -- A row on a cycle has a child, and no row names this one as its parent.
  obtain ⟨y, hy, hchild⟩ := hcycle.exists_child
  rw [isChildOf_iff, hid] at hchild
  revert y
  decide

end Governance
