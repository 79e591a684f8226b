import Governance.Command.Run
import Governance.Proofs.Hierarchy.Tree
import Mathlib.Data.List.Nodup

/-!
# `Governance.Proofs.Hierarchy.Outline`: an outline has every group once

The summary of a hierarchy prints the groups from the roots down. The recursion follows the
children that a group lists. It does not remember which groups it has seen, and nothing bounds its
depth. `Registry.Prints` is this recursion: a derivation of it exists only if the recursion comes
to an end. `Registry.outlineFrom` stops after as many levels as there are groups, and
`prints_outlineFrom` says that on linked groups it is never stopped.

That every group is printed once is a count. Each printed id is one that the recursion began with,
or a child of a printed group, as often as it is there (`Prints.perm`). So a group is printed as
often as its parent is (`count_children`), and a root is printed once.

* `History.isOutline_after`: after every run of calls the recursion ends with the outline of the
  registry. This has each group once, after its parent and indented by its level, and the summary
  says how many there are.
-/

set_option autoImplicit false

namespace Governance

/-- The id of the group of an entry. -/
def OutlineEntry.id (e : OutlineEntry) : String := e.group.id

/-- The ids that the group of an entry lists as children. -/
def OutlineEntry.children (e : OutlineEntry) : List String := e.group.children.toList

namespace Registry

/-- Printing ids one after another, each with what hangs below it, ends with these entries.

- `nil`: nothing is left to print;
- `missing`: an id that is not registered is skipped;
- `group`: a group is printed, then its children one step deeper, then the rest. -/
inductive Prints (r : Registry) : Nat → List String → List OutlineEntry → Prop
  | nil (depth : Nat) : Prints r depth [] []
  | missing {depth : Nat} {id : String} {rest : List String} {l : List OutlineEntry} :
    r.get? id = none → Prints r depth rest l → Prints r depth (id :: rest) l
  | group {depth : Nat} {id : String} {g : Group} {rest : List String}
    {below l : List OutlineEntry} :
    r.get? id = some g → Prints r (depth + 1) g.children.toList below → Prints r depth rest l →
    Prints r depth (id :: rest) (⟨depth, g⟩ :: (below ++ l))

/-- A list of entries is the outline of a registry. -/
structure IsOutline (r : Registry) (l : List OutlineEntry) : Prop where
  /-- Printing from the roots ends with these entries. -/
  prints : r.Prints 1 (r.atLevel 0) l
  /-- It ends with no others. -/
  unique : ∀ l', r.Prints 1 (r.atLevel 0) l' → l' = l
  registered : ∀ e ∈ l, r.get? e.id = some e.group
  /-- Each registered id stands in the outline just once. -/
  ids : (l.map OutlineEntry.id).Perm r.keys
  length : l.length = r.size
  /-- The parent of an entry stands before it. -/
  parent_first : ∀ before e after, l = before ++ e :: after →
    ∀ p, e.group.parent? = some p → ∃ e' ∈ before, e'.id = p
  /-- An entry is indented by one step more than its level. -/
  indent : ∀ e ∈ l, ∃ counts, e.text =
    String.ofList (List.replicate (2 * (e.group.level + 1)) ' ') ++ e.id ++ ": " ++ counts

variable {r : Registry}

/-! ### The ids that the recursion goes to -/

/-- Each group has the id that it is registered under. -/
theorem Linked.map_id_values (h : r.Linked) : r.values.map Group.id = r.keys := by
  rw [OrderedMap.values, OrderedMap.keys, List.map_map]
  refine List.map_congr_left fun e he => ?_
  exact h.id_eq (OrderedMap.get?_eq_some_iff.mpr he)

/-- The ids of a level are those of its groups. -/
theorem Linked.mem_atLevel (h : r.Linked) {id : String} {level : Nat} :
    id ∈ r.atLevel level ↔ ∃ g, r.get? id = some g ∧ g.level = level := by
  rw [atLevel, List.mem_map]
  constructor
  · rintro ⟨g, hg, rfl⟩
    obtain ⟨hvalue, hlevel⟩ := List.mem_filter.mp hg
    obtain ⟨id, hid⟩ := OrderedMap.mem_values.mp hvalue
    exact ⟨g, h.id_eq hid ▸ hid, by simpa using hlevel⟩
  · rintro ⟨g, hg, hlevel⟩
    have hvalue : g ∈ r.values := OrderedMap.mem_values.mpr ⟨id, hg⟩
    exact ⟨g, List.mem_filter.mpr ⟨hvalue, by simpa using hlevel⟩, h.id_eq hg⟩

/-- A registered group stands at its own level and at no other. -/
theorem Linked.mem_atLevel_of_get? (h : r.Linked) {id : String} {g : Group}
    (hg : r.get? id = some g) {level : Nat} : id ∈ r.atLevel level ↔ g.level = level := by
  simp [h.mem_atLevel, hg]

/-- No id is listed twice at a level. -/
theorem Linked.nodup_atLevel (h : r.Linked) (level : Nat) : (r.atLevel level).Nodup := by
  have hsub : (r.atLevel level).Sublist r.keys :=
    h.map_id_values ▸ List.filter_sublist.map Group.id
  exact hsub.nodup r.nodup_keys

/-- A group stands in the list of its parent, and in no other. -/
theorem Linked.mem_children (h : r.Linked) {p x : String} {gp g : Group}
    (hgp : r.get? p = some gp) (hg : r.get? x = some g) :
    x ∈ gp.children.toList ↔ g.parent = .group p := by
  rw [← OrderedSet.contains_iff_mem, h.children hgp, hg]
  simp

/-- A child of a registered group is registered one level below it. -/
theorem Linked.get?_child (h : r.Linked) {id c : String} {g : Group} (hg : r.get? id = some g)
    (hc : c ∈ g.children.toList) : ∃ gc, r.get? c = some gc ∧ gc.level = g.level + 1 := by
  obtain ⟨gc, hgc, hp⟩ := (h.children hg c).mp (OrderedSet.contains_iff_mem.mpr hc)
  obtain ⟨g', hg', hlevel⟩ := h.parent_group hgc hp
  rw [hg, Option.some.injEq] at hg'
  exact ⟨gc, hgc, hg' ▸ hlevel⟩

/-! ### The recursion ends -/

/-- Steps enough for the levels below the ids are never used up. -/
theorem prints_outlineFrom (h : r.Linked) {levels depth : Nat} {ids : List String}
    (hids : ∀ id ∈ ids, ∃ g, r.get? id = some g ∧ r.size ≤ levels + g.level) :
    r.Prints depth ids (ids.flatMap (r.outlineFrom levels depth)) := by
  -- A step goes one level down and uses up one of `levels`, so the bound in `hids` stays.
  induction levels generalizing depth ids with
  | zero =>
    cases ids with
    | nil => exact .nil depth
    | cons id rest =>
      obtain ⟨g, hg, hsize⟩ := hids id List.mem_cons_self
      have hlt := h.level_lt_size hg
      omega
  | succ levels ih =>
    induction ids with
    | nil => exact .nil depth
    | cons id rest ihrest =>
      obtain ⟨g, hg, hsize⟩ := hids id List.mem_cons_self
      have hbelow : r.Prints (depth + 1) g.children.toList
          (g.children.toList.flatMap (r.outlineFrom levels (depth + 1))) := by
        refine ih fun c hc => ?_
        obtain ⟨gc, hgc, hlevel⟩ := h.get?_child hg hc
        exact ⟨gc, hgc, by omega⟩
      have hrest := ihrest fun x hx => hids x (List.mem_cons_of_mem _ hx)
      rw [List.flatMap_cons, outlineFrom, hg]
      exact .group hg hbelow hrest

/-- The outline is what printing from the roots gives. -/
theorem Linked.prints_outline (h : r.Linked) : r.Prints 1 (r.atLevel 0) r.outline := by
  refine prints_outlineFrom h fun id hid => ?_
  obtain ⟨g, hg, -⟩ := h.mem_atLevel.mp hid
  exact ⟨g, hg, by omega⟩

namespace Prints

variable {depth : Nat} {ids : List String} {l l' : List OutlineEntry}

/-- Printing ends with one list of entries only. -/
theorem unique (hl : r.Prints depth ids l) (hl' : r.Prints depth ids l') : l' = l := by
  -- An id is either missing or a group, so both lists come about by the same rule.
  induction hl generalizing l' with
  | nil depth =>
    cases hl'
    rfl
  | missing hnone _ ih =>
    cases hl' with
    | missing _ hrest => exact ih hrest
    | group hg _ _ => simp [hnone] at hg
  | group hg _ _ ihbelow ihrest =>
    cases hl' with
    | missing hnone _ => simp [hg] at hnone
    | group hg' hbelow hrest =>
      rw [hg, Option.some.injEq] at hg'
      subst hg'
      rw [ihbelow hbelow, ihrest hrest]

/-! ### What is printed -/

/-- Below ids of one level the entries are registered groups, and an entry is as much deeper as its
level is. -/
theorem registered (h : r.Linked) (hl : r.Prints depth ids l)
    (hids : ∀ id ∈ ids, ∀ g, r.get? id = some g → depth = g.level + 1) :
    ∀ e ∈ l, r.get? e.id = some e.group ∧ e.depth = e.group.level + 1 := by
  -- Children stand one level below their group and are printed one step deeper.
  induction hl with
  | nil depth => simp
  | missing _ _ ih => exact ih fun id hid => hids id (List.mem_cons_of_mem _ hid)
  | @group depth id g rest below l hg _ _ ihbelow ihrest =>
    have hdepth := hids id List.mem_cons_self g hg
    intro e he
    rcases List.mem_cons.mp he with rfl | he
    · have hid : (⟨depth, g⟩ : OutlineEntry).id = id := h.id_eq hg
      exact ⟨hid ▸ hg, hdepth⟩
    · rcases List.mem_append.mp he with he | he
      · refine ihbelow (fun c hc gc hgc => ?_) e he
        obtain ⟨gc', hgc', hlevel⟩ := h.get?_child hg hc
        rw [hgc, Option.some.injEq] at hgc'
        rw [hgc', hlevel, hdepth]
      · exact ihrest (fun id hid => hids id (List.mem_cons_of_mem _ hid)) e he

/-- The printed ids are those that the recursion began with, and the children of printed groups. -/
theorem perm (h : r.Linked) (hl : r.Prints depth ids l)
    (hids : ∀ id ∈ ids, ∃ g, r.get? id = some g) :
    (l.map OutlineEntry.id).Perm (ids ++ l.flatMap OutlineEntry.children) := by
  induction hl with
  | nil depth => exact .nil
  | missing hnone _ _ =>
    obtain ⟨g, hg⟩ := hids _ List.mem_cons_self
    simp [hnone] at hg
  | @group depth id g rest below l hg _ _ ihbelow ihrest =>
    have hbelow := ihbelow fun c hc => (h.get?_child hg hc).imp fun _ => And.left
    have hrest := ihrest fun id hid => hids id (List.mem_cons_of_mem _ hid)
    -- Behind the printed id, only the rest and what is printed below the id change places.
    have hmove := List.perm_append_comm_assoc
      (g.children.toList ++ below.flatMap OutlineEntry.children) rest
      (l.flatMap OutlineEntry.children)
    have hid : (⟨depth, g⟩ : OutlineEntry).id = id := h.id_eq hg
    rw [List.map_cons, List.map_append, List.flatMap_cons, List.flatMap_append, List.cons_append,
      hid]
    refine List.Perm.cons id (((hbelow.append hrest).trans ?_))
    simpa only [OutlineEntry.children, List.append_assoc] using hmove

/-- In front of an entry stands one that lists it as a child, unless the recursion began with it. -/
theorem parent_first (h : r.Linked) (hl : r.Prints depth ids l) {before after : List OutlineEntry}
    {e : OutlineEntry} (heq : l = before ++ e :: after) :
    e.id ∈ ids ∨ ∃ e' ∈ before, e.id ∈ e'.children := by
  induction hl generalizing before after with
  | nil depth => simp at heq
  | missing _ _ ih => exact (ih heq).imp_left (List.mem_cons_of_mem _)
  | @group depth id g rest below l hg _ _ ihbelow ihrest =>
    cases before with
    | nil =>
      obtain ⟨rfl, -⟩ := List.cons.inj heq
      have hid : (⟨depth, g⟩ : OutlineEntry).id = id := h.id_eq hg
      exact Or.inl (hid ▸ List.mem_cons_self)
    | cons first before =>
      rw [List.cons_append, List.cons.injEq] at heq
      obtain ⟨rfl, heq⟩ := heq
      -- The entry stands among those below the printed group, or among those of the rest.
      rcases List.append_eq_append_iff.mp heq with ⟨l', rfl, hsplit⟩ | ⟨below', hsplit, hrest⟩
      · rcases ihrest hsplit with hmem | ⟨e', he', hchild⟩
        · exact Or.inl (List.mem_cons_of_mem _ hmem)
        · exact Or.inr ⟨e', by simp [he'], hchild⟩
      · cases below' with
        | nil =>
          rw [List.append_nil] at hsplit
          have hfirst : l = [] ++ e :: after := hrest.symm
          rcases ihrest hfirst with hmem | ⟨e', he', -⟩
          · exact Or.inl (List.mem_cons_of_mem _ hmem)
          · simp at he'
        | cons first' below' =>
          obtain ⟨rfl, -⟩ := List.cons.inj hrest
          rcases ihbelow hsplit with hmem | ⟨e', he', hchild⟩
          · exact Or.inr ⟨_, List.mem_cons_self, hmem⟩
          · exact Or.inr ⟨e', List.mem_cons_of_mem _ he', hchild⟩

end Prints

/-! ### How often a group is printed -/

/-- A group lists another one as a child once if it is its parent, and else not at all. -/
theorem Linked.count_children_of_get? (h : r.Linked) {x p : String} {g : Group}
    (hx : r.get? x = some g) (hp : g.parent = .group p) {e : OutlineEntry}
    (he : r.get? e.id = some e.group) : e.children.count x = if e.id == p then 1 else 0 := by
  have hmem : x ∈ e.children ↔ p = e.id := by
    rw [OutlineEntry.children, h.mem_children he hx, hp, Parent.group.injEq]
  by_cases hid : e.id = p
  · -- The children of a group are a set, so one that is there is there once.
    have hnodup : e.children.Nodup := e.group.children.nodup_toList
    rw [if_pos (beq_iff_eq.mpr hid)]
    exact List.count_eq_one_of_mem hnodup (hmem.mpr hid.symm)
  · have hnot : x ∉ e.children := fun hin => hid (hmem.mp hin).symm
    rw [if_neg (by simpa using hid)]
    exact List.count_eq_zero_of_not_mem hnot

/-- Entries list a group as a child as often as its parent is among them. -/
theorem Linked.count_children (h : r.Linked) {x p : String} {g : Group} (hx : r.get? x = some g)
    (hp : g.parent = .group p) {l : List OutlineEntry}
    (hl : ∀ e ∈ l, r.get? e.id = some e.group) :
    (l.flatMap OutlineEntry.children).count x = (l.map OutlineEntry.id).count p := by
  induction l with
  | nil => rfl
  | cons e rest ih =>
    have hcount := h.count_children_of_get? hx hp (hl e List.mem_cons_self)
    have hrest := ih fun e' he' => hl e' (List.mem_cons_of_mem _ he')
    rw [List.flatMap_cons, List.count_append, List.map_cons, List.count_cons, hcount, hrest,
      Nat.add_comm]

/-- A group below a place outside of the hierarchy is no child of an entry. -/
theorem Linked.notMem_children (h : r.Linked) {x place : String} {g : Group}
    (hx : r.get? x = some g) (hp : g.parent = .external place) {l : List OutlineEntry}
    (hl : ∀ e ∈ l, r.get? e.id = some e.group) : x ∉ l.flatMap OutlineEntry.children := by
  intro hmem
  obtain ⟨e, he, hchild⟩ := List.mem_flatMap.mp hmem
  have hparent := (h.mem_children (hl e he) hx).mp hchild
  rw [hp] at hparent
  cases hparent

section Roots

variable {l : List OutlineEntry} (h : r.Linked) (hl : r.Prints 1 (r.atLevel 0) l)

include h hl

/-- From the roots down, the entries are registered groups, and each is one step deeper than its
level. -/
theorem Prints.registered_roots :
    ∀ e ∈ l, r.get? e.id = some e.group ∧ e.depth = e.group.level + 1 := by
  refine hl.registered h fun id hid g hg => ?_
  rw [(h.mem_atLevel_of_get? hg).mp hid]

/-- From the roots down, each group is printed once. -/
theorem Prints.count_id {x : String} {g : Group} (hx : r.get? x = some g) :
    (l.map OutlineEntry.id).count x = 1 := by
  have hentries : ∀ e ∈ l, r.get? e.id = some e.group := fun e he =>
    (hl.registered_roots h e he).1
  have hperm := hl.perm h fun id hid => (h.mem_atLevel.mp hid).imp fun _ => And.left
  -- From a parent to its children: a child is printed where its parent lists it.
  induction x, g, hx using h.induction with
  | external x g place hx hp =>
    have hroot : x ∈ r.atLevel 0 := (h.mem_atLevel_of_get? hx).mpr (h.level_external hx hp)
    rw [hperm.count_eq, List.count_append,
      List.count_eq_one_of_mem (h.nodup_atLevel 0) hroot,
      List.count_eq_zero_of_not_mem (h.notMem_children hx hp hentries)]
  | group x g p gp hx hgp hp hlevel ih =>
    have hroot : x ∉ r.atLevel 0 := by
      rw [h.mem_atLevel_of_get? hx, hlevel]
      omega
    rw [hperm.count_eq, List.count_append, List.count_eq_zero_of_not_mem hroot,
      h.count_children hx hp hentries, ih, Nat.zero_add]

/-- From the roots down, the ids are those that are registered. -/
theorem Prints.ids_perm : (l.map OutlineEntry.id).Perm r.keys := by
  refine List.perm_iff_count.mpr fun x => ?_
  by_cases hx : x ∈ r.keys
  · obtain ⟨g, hg⟩ := OrderedMap.mem_keys.mp hx
    rw [hl.count_id h hg, List.count_eq_one_of_mem r.nodup_keys hx]
  · have hnone : x ∉ l.map OutlineEntry.id := by
      intro hmem
      obtain ⟨e, he, rfl⟩ := List.mem_map.mp hmem
      exact hx (OrderedMap.mem_keys.mpr ⟨e.group, (hl.registered_roots h e he).1⟩)
    rw [List.count_eq_zero_of_not_mem hx, List.count_eq_zero_of_not_mem hnone]

end Roots

/-- The outline of linked groups. -/
theorem Linked.isOutline (h : r.Linked) : r.IsOutline r.outline where
  prints := h.prints_outline
  unique l' hl' := h.prints_outline.unique hl'
  registered e he := (h.prints_outline.registered_roots h e he).1
  ids := h.prints_outline.ids_perm h
  length := by
    have hlength := (h.prints_outline.ids_perm h).length_eq
    rwa [List.length_map, OrderedMap.length_keys] at hlength
  parent_first before e after heq p hp := by
    have hregistered := fun e' he' => (h.prints_outline.registered_roots h e' he').1
    have he := hregistered e (by simp [heq])
    obtain hroot | ⟨e', he', hchild⟩ := h.prints_outline.parent_first h heq
    · -- A root has no parent to look for.
      obtain ⟨gp, -, hlevel⟩ := h.parent_group he (parent?_eq_some.mp hp)
      rw [(h.mem_atLevel_of_get? he).mp hroot] at hlevel
      omega
    · refine ⟨e', he', ?_⟩
      have he' := hregistered e' (by simp [heq, he'])
      rw [parent?_eq_some, (h.mem_children he' he).mp hchild, Parent.group.injEq] at hp
      exact hp
  indent e he := by
    have hdepth := (h.prints_outline.registered_roots h e he).2
    rw [OutlineEntry.text, hdepth]
    simp only [String.append_assoc]
    exact ⟨_, rfl⟩

end Registry

namespace History

variable {σ : Type}

/-- After every run of calls, printing from the roots ends, and what it prints is the outline: each
group once, after its parent and indented by its level. The summary has a line for each of these
entries, and the number that it gives is how many they are. -/
theorem isOutline_after (src : AssetSource σ) (uniqueRoles : Bool) (calls : List (σ × Call)) :
    (after src uniqueRoles calls).hierarchy.groups.IsOutline
        (after src uniqueRoles calls).hierarchy.groups.outline ∧
      ∀ (settings : Settings) (catalog : Catalog),
        Command.summary ⟨settings, catalog, (after src uniqueRoles calls).hierarchy⟩ =
          Command.lines (["mgtree build " ++ settings.architecture ++ " --parent-id " ++
              settings.parentId,
            "  Management groups: " ++ Decimal.text
              (after src uniqueRoles calls).hierarchy.groups.outline.length] ++
            (after src uniqueRoles calls).hierarchy.groups.outline.map OutlineEntry.text) := by
  have houtline := (linked_after src uniqueRoles calls).isOutline
  refine ⟨houtline, fun settings catalog => ?_⟩
  rw [Command.summary, houtline.length]

end History

end Governance
