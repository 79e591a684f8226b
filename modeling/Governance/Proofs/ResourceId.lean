import Governance.Proofs.Text.Cells
import Governance.ResourceId

/-!
# `Governance.Proofs.ResourceId`: identifiers that are read back

The templates put a block of segments after an identifier. `segments?_append` cuts such a text
again: the segments of the front stay as they are, whatever they are, and those of the back
follow. So the reading of the whole succeeds just when that of the front does:

* `ResourceId.parse_below`: below an identifier that can be read, a resource is read with the
  type and the name that were put there.
* `ResourceId.exists_of_parse_below`: an identifier below another one can be read only if that
  one can.

A management group whose id is a segment has an identifier that can be read
(`ReadsGroup.of_isSegment`). Other ids may have one as well, if the segments in them happen to
go on in pairs.
-/

set_option autoImplicit false

namespace Governance

namespace ResourceId

/-! ### Segments -/

/-- A text that can stand between two slashes of an identifier. -/
structure IsSegment (s : String) : Prop where
  ne_empty : s ≠ ""
  no_slash : '/' ∉ s.toList

instance (s : String) : Decidable (IsSegment s) :=
  decidable_of_iff (s ≠ "" ∧ '/' ∉ s.toList) ⟨fun h => ⟨h.1, h.2⟩, fun h => ⟨h.1, h.2⟩⟩

/-- Behind a slash come more segments. -/
theorem segments?_append {s : String} {segments : List String} (h : segments? s = some segments)
    (t : String) : segments? (s ++ "/" ++ t) = some (segments ++ Text.splitAtChar '/' t) := by
  unfold segments? at h ⊢
  split at h
  · rename_i rest hs
    cases h
    -- Past the slash in front, the new slash is a separator in the middle.
    rw [String.toList_append, String.toList_append, hs]
    change some ((Text.cells '/' (rest ++ ['/'] ++ t.toList)).map String.ofList) = _
    rw [List.append_assoc, List.singleton_append, Text.cells_append, List.map_append]
    rfl
  · simp at h

/-- The segments of a management group are three, and those that its id is cut into. -/
theorem segments?_managementGroup (group : String) : segments? (managementGroup group) =
    some (["providers", "Microsoft.Management", "managementGroups"] ++
      Text.splitAtChar '/' group) :=
  have hfront : segments? ("" ++ "/providers/" ++ ResourceType.managementGroup) =
      some ["providers", "Microsoft.Management", "managementGroups"] := by decide
  segments?_append hfront group

/-- A resource below another one has four segments more. -/
theorem segments?_below {parent ns type name : String} {segments : List String}
    (h : segments? parent = some segments) (hns : IsSegment ns) (htype : IsSegment type)
    (hname : IsSegment name) :
    segments? (below parent (ns ++ "/" ++ type) name) =
      some (segments ++ ["providers", ns, type, name]) := by
  have hbelow : below parent (ns ++ "/" ++ type) name =
      parent ++ "/" ++ "providers" ++ "/" ++ ns ++ "/" ++ type ++ "/" ++ name := by
    rw [← String.toList_inj]
    simp [below]
  have hproviders : '/' ∉ "providers".toList := by decide
  -- One slash after another, each segment is cut off.
  have hcut := segments?_append (segments?_append (segments?_append
    (segments?_append h "providers") ns) type) name
  rw [hbelow, hcut, Text.splitAtChar_of_notMem hproviders,
    Text.splitAtChar_of_notMem hns.no_slash, Text.splitAtChar_of_notMem htype.no_slash,
    Text.splitAtChar_of_notMem hname.no_slash]
  simp

/-- The segments of a text have no slash. -/
theorem notMem_of_segments? {s : String} {segments : List String}
    (h : segments? s = some segments) {x : String} (hx : x ∈ segments) : '/' ∉ x.toList := by
  unfold segments? at h
  split at h
  · cases h
    obtain ⟨cell, hcell, rfl⟩ := List.mem_map.mp hx
    rw [String.toList_ofList]
    exact Text.notMem_of_mem_cells hcell
  · simp at h

/-- There is at least one segment, which may be empty. -/
theorem ne_nil_of_segments? {s : String} {segments : List String}
    (h : segments? s = some segments) : segments ≠ [] := by
  unfold segments? at h
  split at h
  · cases h
    simpa using Text.cells_ne_nil '/' _
  · simp at h

/-! ### The resource that segments name -/

/-- The name at the end of a block is one of the segments, or that of the pair before them. -/
theorem name_of_readBlock {ns name : String} {types l : List String} {r : String × String}
    (h : readBlock ns types name l = .ok r) : r.2 ∈ l ∨ types ≠ [] ∧ r.2 = name := by
  -- The name is the second one of the last pair, or the one from before if no pair was read.
  fun_induction readBlock ns types name l with
  | case1 => simp at h
  | case2 ns types name htypes =>
    cases h
    exact Or.inr ⟨by simpa using htypes, rfl⟩
  | case3 => simp at h
  | case4 => simp at h
  | case5 ns types name key value rest hkey htypes ih =>
    obtain hmem | ⟨hne, -⟩ := ih h
    · exact Or.inl (List.mem_cons_of_mem _ (List.mem_cons_of_mem _ hmem))
    · exact absurd rfl hne
  | case6 ns types name key value rest hkey ih =>
    obtain hmem | ⟨-, hname⟩ := ih h
    · exact Or.inl (List.mem_cons_of_mem _ (List.mem_cons_of_mem _ hmem))
    · exact Or.inl (by simp [hname])

/-- The name that segments give is one of them, or that of the pair before them. -/
theorem name_of_readPairs {resourceType name : String} {l : List String} {r : String × String}
    (h : readPairs resourceType name l = .ok r) : r.2 ∈ l ∨ l = [] ∧ r.2 = name := by
  -- So it is for the pairs in front of the blocks.
  fun_induction readPairs resourceType name l with
  | case1 =>
    cases h
    exact Or.inr ⟨rfl, rfl⟩
  | case2 => simp at h
  | case3 resourceType name key value rest hkey =>
    obtain hmem | ⟨hne, -⟩ := name_of_readBlock h
    · exact Or.inl (List.mem_cons_of_mem _ (List.mem_cons_of_mem _ hmem))
    · exact absurd rfl hne
  | case4 resourceType name key value rest _ hkey ih =>
    obtain hmem | ⟨-, hname⟩ := ih h
    · exact Or.inl (List.mem_cons_of_mem _ (List.mem_cons_of_mem _ hmem))
    · exact Or.inl (by simp [hname])
  | case5 resourceType name key value rest _ _ hkey ih =>
    obtain hmem | ⟨-, hname⟩ := ih h
    · exact Or.inl (List.mem_cons_of_mem _ (List.mem_cons_of_mem _ hmem))
    · exact Or.inl (by simp [hname])
  | case6 => simp at h

/-- The word `providers` is the keyword that opens a block. -/
theorem isProviders_providers : isProviders "providers" = true :=
  Text.equalIgnoringCase_refl "providers"

/-- The last pair of a block gives the type and the name. -/
theorem readBlock_type (ns type name : String) (hns : isProviders type = false) (before : String) :
    readBlock ns [] before [type, name] = .ok (ns ++ "/" ++ type, name) := by
  simp [readBlock, hns, blockType, String.append_assoc]

/-- Segments that name the end of a block come in pairs. -/
theorem even_of_readBlock {ns name : String} {types l : List String} {r : String × String}
    (h : readBlock ns types name l = .ok r) : l.length % 2 = 0 := by
  fun_induction readBlock ns types name l with
  | case1 | case2 => rfl
  | case3 | case4 => simp at h
  | case5 _ _ _ _ _ rest _ _ ih | case6 _ _ _ _ _ rest _ ih =>
    have hrest := ih h
    simp only [List.length_cons]
    omega

/-- Segments that name a resource come in pairs. -/
theorem even_of_readPairs {resourceType name : String} {l : List String} {r : String × String}
    (h : readPairs resourceType name l = .ok r) : l.length % 2 = 0 := by
  -- Each step reads two segments.
  fun_induction readPairs resourceType name l with
  | case1 => rfl
  | case2 | case6 => simp at h
  | case3 _ _ _ _ rest =>
    have hrest := even_of_readBlock h
    simp only [List.length_cons]
    omega
  | case4 _ _ _ _ rest _ _ ih | case5 _ _ _ _ rest _ _ _ ih =>
    have hrest := ih h
    simp only [List.length_cons]
    omega

/-- Behind a block that is complete, the keyword opens the next one. -/
theorem readBlock_append {ns name : String} {types l : List String} {r : String × String}
    (h : readBlock ns types name l = .ok r) (ns' : String) (rest : List String) :
    readBlock ns types name (l ++ "providers" :: ns' :: rest) = readBlock ns' [] r.2 rest := by
  -- The reading goes on where it had ended, and a keyword there closes the block.
  fun_induction readBlock ns types name l with
  | case1 => simp at h
  | case2 ns types name htypes =>
    cases h
    rw [List.nil_append, readBlock, if_pos isProviders_providers, if_neg htypes]
  | case3 => simp at h
  | case4 => simp at h
  | case5 ns types name key value rest' hkey htypes ih =>
    rw [List.cons_append, List.cons_append, readBlock, if_pos hkey, if_neg htypes, ih h]
  | case6 ns types name key value rest' hkey ih =>
    rw [List.cons_append, List.cons_append, readBlock, if_neg hkey, ih h]

/-- Behind any segments that name a resource, and behind none at all, the keyword opens a block. -/
theorem readPairs_append {resourceType name : String} {l : List String} {r : String × String}
    (h : readPairs resourceType name l = .ok r) (ns : String) (rest : List String) :
    readPairs resourceType name (l ++ "providers" :: ns :: rest) = readBlock ns [] r.2 rest := by
  -- So it does behind pairs, which are read as before.
  fun_induction readPairs resourceType name l with
  | case1 resourceType name =>
    cases h
    rw [List.nil_append, readPairs, if_pos isProviders_providers]
  | case2 => simp at h
  | case3 resourceType name key value rest' hkey =>
    rw [List.cons_append, List.cons_append, readPairs, if_pos hkey]
    exact readBlock_append h ns rest
  | case4 resourceType name key value rest' hproviders hkey ih =>
    rw [List.cons_append, List.cons_append, readPairs, if_neg hproviders, if_pos hkey, ih h]
  | case5 resourceType name key value rest' hproviders hsubscriptions hkey ih =>
    rw [List.cons_append, List.cons_append, readPairs, if_neg hproviders, if_neg hsubscriptions,
      if_pos hkey, ih h]
  | case6 => simp at h

/-- Segments that a block may follow name the end of a block themselves. -/
theorem readBlock_of_append {ns name ns' type name' : String} {types l : List String}
    {r : String × String}
    (h : readBlock ns types name (l ++ ["providers", ns', type, name']) = .ok r) :
    ∃ r', readBlock ns types name l = .ok r' := by
  have heven := even_of_readBlock h
  fun_induction readBlock ns types name l with
  | case1 ns types name htypes =>
    -- A block that is still empty cannot be followed by another one.
    rw [List.nil_append, readBlock, if_pos isProviders_providers, if_pos htypes] at h
    simp at h
  | case2 => exact ⟨_, rfl⟩
  -- A key without a value leaves the pairs of the block out of step.
  | case3 => simp at heven
  | case4 ns types name key value rest hkey htypes =>
    rw [List.cons_append, List.cons_append, readBlock, if_pos hkey, if_pos htypes] at h
    simp at h
  | case5 ns types name key value rest hkey htypes ih =>
    rw [List.cons_append, List.cons_append, readBlock, if_pos hkey, if_neg htypes] at h
    exact ih h (even_of_readBlock h)
  | case6 ns types name key value rest hkey ih =>
    rw [List.cons_append, List.cons_append, readBlock, if_neg hkey] at h
    exact ih h (even_of_readBlock h)

/-- Segments that a block may follow name a resource themselves, or there are none. -/
theorem readPairs_of_append {resourceType name ns type name' : String} {l : List String}
    {r : String × String}
    (h : readPairs resourceType name (l ++ ["providers", ns, type, name']) = .ok r) :
    ∃ r', readPairs resourceType name l = .ok r' := by
  have heven := even_of_readPairs h
  -- Four segments are appended, so the two that a step reads are both from before or both new.
  fun_induction readPairs resourceType name l with
  | case1 => exact ⟨_, rfl⟩
  | case2 => simp at heven
  | case3 resourceType name key value rest hkey =>
    rw [List.cons_append, List.cons_append, readPairs, if_pos hkey] at h
    exact readBlock_of_append h
  | case4 resourceType name key value rest hproviders hkey ih =>
    rw [List.cons_append, List.cons_append, readPairs, if_neg hproviders, if_pos hkey] at h
    exact ih h (even_of_readPairs h)
  | case5 resourceType name key value rest hproviders hsubscriptions hkey ih =>
    rw [List.cons_append, List.cons_append, readPairs, if_neg hproviders, if_neg hsubscriptions,
      if_pos hkey] at h
    exact ih h (even_of_readPairs h)
  | case6 resourceType name key value rest hproviders hsubscriptions hkey =>
    rw [List.cons_append, List.cons_append, readPairs, if_neg hproviders, if_neg hsubscriptions,
      if_neg hkey] at h
    simp at h

/-! ### Identifiers -/

/-- A text is read segment by segment: none may be empty, and they name a resource. -/
theorem parse_eq_ok {s : String} {id : ResourceId} : parse s = .ok id ↔
    ∃ segments, segments? s = some segments ∧ (∀ x ∈ segments, x ≠ "") ∧
      readPairs "" "" segments = .ok (id.resourceType, id.name) ∧ id.text = s := by
  unfold parse
  cases segments? s with
  | none => simp
  | some segments =>
    have hempty : segments.any String.isEmpty = true ↔ ¬ ∀ x ∈ segments, x ≠ "" := by simp
    dsimp only
    split
    · rename_i h
      simp [hempty.mp h]
    · rename_i h
      obtain ⟨text, resourceType, name⟩ := id
      rw [hempty, Classical.not_not] at h
      -- A fault of the segments is an error of the whole text.
      cases hread : readPairs "" "" segments with
      | error fault => cases fault <;> simp [hread]
      | ok r =>
        constructor
        · intro heq
          cases heq
          exact ⟨segments, rfl, h, hread, rfl⟩
        · rintro ⟨_, hsegments, -, hread', rfl⟩
          cases hsegments
          cases hread.symm.trans hread'
          rfl

/-- The name in an identifier that was read is a segment. -/
theorem isSegment_name {s : String} {id : ResourceId} (h : parse s = .ok id) :
    IsSegment id.name := by
  obtain ⟨segments, hsegments, hne, hread, -⟩ := parse_eq_ok.mp h
  obtain hmem | ⟨hnil, -⟩ := name_of_readPairs hread
  · exact ⟨hne _ hmem, notMem_of_segments? hsegments hmem⟩
  · exact absurd hnil (ne_nil_of_segments? hsegments)

section Below

variable {parent ns type name : String} (hns : IsSegment ns) (htype : IsSegment type)
  (hname : IsSegment name)

include hns htype hname

/-- Neither the segments of the front nor the four new ones are empty. -/
theorem ne_empty_of_below {segments : List String} (h : ∀ x ∈ segments, x ≠ "") :
    ∀ x ∈ segments ++ ["providers", ns, type, name], x ≠ "" := by
  intro x hx
  rcases List.mem_append.mp hx with hx | hx
  · exact h x hx
  · simp only [List.mem_cons, List.not_mem_nil, or_false] at hx
    rcases hx with rfl | rfl | rfl | rfl
    · decide
    · exact hns.ne_empty
    · exact htype.ne_empty
    · exact hname.ne_empty

/-- Below an identifier that can be read, one is read with the type and the name that are put
there. -/
theorem parse_below (hproviders : isProviders type = false) {id : ResourceId}
    (h : parse parent = .ok id) :
    parse (below parent (ns ++ "/" ++ type) name) =
      .ok ⟨below parent (ns ++ "/" ++ type) name, ns ++ "/" ++ type, name⟩ := by
  obtain ⟨segments, hsegments, hne, hread, -⟩ := parse_eq_ok.mp h
  have hbelow := (readPairs_append hread ns [type, name]).trans
    (readBlock_type ns type name hproviders id.name)
  exact parse_eq_ok.mpr ⟨_, segments?_below hsegments hns htype hname,
    ne_empty_of_below hns htype hname hne, hbelow, rfl⟩

/-- An identifier below another one can be read only if that one can. -/
theorem exists_of_parse_below {segments : List String} (hparent : segments? parent = some segments)
    {id : ResourceId} (h : parse (below parent (ns ++ "/" ++ type) name) = .ok id) :
    ∃ id', parse parent = .ok id' := by
  obtain ⟨segments', hsegments, hne, hread, -⟩ := parse_eq_ok.mp h
  rw [segments?_below hparent hns htype hname, Option.some.injEq] at hsegments
  subst hsegments
  obtain ⟨r, hr⟩ := readPairs_of_append hread
  exact ⟨⟨parent, r.1, r.2⟩, parse_eq_ok.mpr
    ⟨segments, hparent, fun x hx => hne x (List.mem_append_left _ hx), hr, rfl⟩⟩

end Below

/-- The identifier of a management group can be read. -/
def ReadsGroup (group : String) : Prop := ∃ id, parse (managementGroup group) = .ok id

/-- The identifier of a group with a segment as its id is read as that of the group. -/
theorem parse_managementGroup {group : String} (h : IsSegment group) :
    parse (managementGroup group) =
      .ok ⟨managementGroup group, ResourceType.managementGroup, group⟩ := by
  have hsegments := segments?_managementGroup group
  rw [Text.splitAtChar_of_notMem h.no_slash] at hsegments
  refine parse_eq_ok.mpr ⟨_, hsegments, fun x hx => ?_, ?_, rfl⟩
  · -- None of the segments is empty.
    simp only [List.mem_append, List.mem_cons, List.not_mem_nil, or_false] at hx
    rcases hx with (rfl | rfl | rfl) | rfl
    · decide
    · decide
    · decide
    · exact h.ne_empty
  · exact readBlock_type "Microsoft.Management" "managementGroups" group (by decide) ""

/-- A management group whose id is a segment has an identifier that can be read. -/
theorem ReadsGroup.of_isSegment {group : String} (h : IsSegment group) : ReadsGroup group :=
  ⟨_, parse_managementGroup h⟩

end ResourceId

end Governance
