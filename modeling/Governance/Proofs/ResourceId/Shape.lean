import Governance.Proofs.ResourceId

/-!
# `Governance.Proofs.ResourceId.Shape`: the identifiers that can be read

An identifier is a slash and segments with slashes between them. A `Shape` cuts the segments into
pairs and blocks:

    segments := pair* block*
    pair     := ('subscriptions' | 'resourceGroups') value
    block    := 'providers' namespace (type name)+

Keywords may be in any case of ASCII letters. They are keywords only where a key stands, and no
type of a block is `providers`, because this keyword opens the next block.

`Outcome` says for each text what reading gives, with the shapes and without the reader.
`parse_eq_iff_outcome` is the main result: reading gives this outcome and no other. The reader
walks over pairs and blocks with the type and the name of the last one. So for each part of a
shape there is a lemma that reads it in front of any other segments (`readPairs_pairs`,
`readBlock_resources`), and what is read has a shape by induction on the reader
(`exists_shape`, `exists_unexpected`).
-/

set_option autoImplicit false

namespace Governance.ResourceId

open Text

/-! ### Shapes -/

/-- What a pair in front of the blocks names. -/
inductive Scope where
  | subscription
  | resourceGroup

/-- The keyword of a scope. -/
def Scope.keyword : Scope → String
  | .subscription => "subscriptions"
  | .resourceGroup => "resourceGroups"

/-- The type of the resource that a scope is. -/
def Scope.resourceType : Scope → String
  | .subscription => ResourceType.subscription
  | .resourceGroup => ResourceType.resourceGroup

/-- A keyword and the name of a subscription or a resource group. -/
structure ScopePair where
  scope : Scope
  key : String
  value : String
  isKeyword : equalIgnoringCase key scope.keyword = true

/-- A keyword, the namespace of a provider, and the types and names of its resources. -/
structure Block where
  key : String
  ns : String
  resources : List (String × String)
  isKeyword : isProviders key = true
  resources_ne_nil : resources ≠ []
  isType : ∀ r ∈ resources, isProviders r.1 = false

/-- Pairs that name scopes, and then blocks. -/
structure Shape where
  pairs : List ScopePair
  blocks : List Block

/-- The segments of types and names. -/
def resourceSegments (resources : List (String × String)) : List String :=
  resources.flatMap fun r => [r.1, r.2]

/-- The segments of pairs. -/
def pairSegments (pairs : List ScopePair) : List String :=
  pairs.flatMap fun p => [p.key, p.value]

/-- The segments of blocks. -/
def blockSegments (blocks : List Block) : List String :=
  blocks.flatMap fun b => b.key :: b.ns :: resourceSegments b.resources

/-- The segments of a shape. -/
def Shape.segments (shape : Shape) : List String :=
  pairSegments shape.pairs ++ blockSegments shape.blocks

/-- The type of the resource that a block names: its namespace and its types. -/
def Block.resourceType (b : Block) : String := "/".intercalate (b.ns :: b.resources.map Prod.fst)

/-- The type that the last item of a list gives, or else the one before the list. -/
def typeAfter {α : Type} (type : α → String) (before : String) (l : List α) : String :=
  (l.getLast?.map type).getD before

/-- The type of the resource that a shape names: that of the last block, or else of the last
pair. -/
def Shape.resourceType (shape : Shape) : String :=
  typeAfter Block.resourceType (typeAfter (·.scope.resourceType) "" shape.pairs) shape.blocks

/-- The name of the resource that a shape names: its last segment. -/
def Shape.name (shape : Shape) : String := shape.segments.getLastD ""

/-! ### Outcomes -/

/-- The text is a slash and one or more segments with slashes between them. -/
structure HasSegments (raw : String) (segments : List String) : Prop where
  ne_nil : segments ≠ []
  no_slash : ∀ x ∈ segments, '/' ∉ x.toList
  text : raw = "/" ++ "/".intercalate segments

/-- A key that may begin a pair or a block. -/
def IsKeyword (key : String) : Prop :=
  isProviders key = true ∨ ∃ scope : Scope, equalIgnoringCase key scope.keyword = true

/-- What reading a text gives.

- `ok`: the segments are not empty, and they have a shape;
- `missingLeadingSlash`: the text does not begin with a slash;
- `emptySegment`: it does, and a segment is empty;
- `unexpectedSegment`: no segment is empty, and behind pairs stands a key that is no keyword, with
  another segment after it;
- `truncated`: none of these. -/
inductive Outcome (raw : String) : Except ResourceIdError ResourceId → Prop
  | ok (shape : Shape) : HasSegments raw shape.segments → "" ∉ shape.segments →
    Outcome raw (.ok ⟨raw, shape.resourceType, shape.name⟩)
  | missingLeadingSlash : raw.toList.head? ≠ some '/' →
    Outcome raw (.error (.missingLeadingSlash raw))
  | emptySegment (segments : List String) : HasSegments raw segments → "" ∈ segments →
    Outcome raw (.error (.emptySegment raw))
  | unexpectedSegment (pairs : List ScopePair) (key value : String) (rest : List String) :
    HasSegments raw (pairSegments pairs ++ key :: value :: rest) →
    "" ∉ pairSegments pairs ++ key :: value :: rest → ¬ IsKeyword key →
    Outcome raw (.error (.unexpectedSegment raw key))
  | truncated (segments : List String) : HasSegments raw segments → "" ∉ segments →
    (∀ shape : Shape, segments ≠ shape.segments) →
    (∀ pairs key value rest, segments = pairSegments pairs ++ key :: value :: rest →
      IsKeyword key) →
    Outcome raw (.error (.truncated raw))

/-! ### Reading a shape -/

/-- Without more items, the type is the one from before. -/
@[simp] theorem typeAfter_nil {α : Type} (type : α → String) (before : String) :
    typeAfter type before [] = before := rfl

/-- An item puts its type in the place of the one from before. -/
@[simp] theorem typeAfter_cons {α : Type} (type : α → String) (before : String) (x : α)
    (l : List α) : typeAfter type before (x :: l) = typeAfter type (type x) l := by
  rw [typeAfter, typeAfter, List.getLast?_cons]
  cases l.getLast? <;> rfl

/-- The last item of the second list, or else that of the first, or else the one given. -/
theorem getLastD_append (l l' : List String) (s : String) :
    (l ++ l').getLastD s = l'.getLastD (l.getLastD s) := by
  simp [List.getLastD_eq_getLast?, List.getLast?_append, Option.getD_or]

/-- The segments of a resource come in front of those of the others. -/
@[simp] theorem resourceSegments_cons (r : String × String) (more : List (String × String)) :
    resourceSegments (r :: more) = r.1 :: r.2 :: resourceSegments more := rfl

/-- The segments of a pair come in front of those of the others. -/
@[simp] theorem pairSegments_cons (p : ScopePair) (more : List ScopePair) :
    pairSegments (p :: more) = p.key :: p.value :: pairSegments more := rfl

/-- The segments of a block come in front of those of the others. -/
@[simp] theorem blockSegments_cons (b : Block) (more : List Block) :
    blockSegments (b :: more) =
      b.key :: b.ns :: (resourceSegments b.resources ++ blockSegments more) := rfl

/-- The name of a block is a segment of its resources, whatever stands before them. -/
theorem Block.getLastD_eq (b : Block) (s s' : String) :
    (resourceSegments b.resources).getLastD s = (resourceSegments b.resources).getLastD s' := by
  obtain ⟨r, more, hr⟩ := List.exists_cons_of_ne_nil b.resources_ne_nil
  simp only [hr, resourceSegments_cons, List.getLastD_cons]

/-- The type of a block is made of its namespace and the types of its resources. -/
theorem blockType_eq_resourceType (b : Block) :
    blockType b.ns (b.resources.map Prod.fst) = b.resourceType := by
  obtain ⟨r, more, hr⟩ := List.exists_cons_of_ne_nil b.resources_ne_nil
  rw [blockType, Block.resourceType, hr, List.map_cons, String.intercalate_cons_cons]

/-- The types and names of a block are read one after another. -/
theorem readBlock_resources (ns : String) (types : List String) (name : String)
    {resources : List (String × String)} (h : ∀ r ∈ resources, isProviders r.1 = false)
    (l : List String) :
    readBlock ns types name (resourceSegments resources ++ l) =
      readBlock ns (types ++ resources.map Prod.fst)
        ((resourceSegments resources).getLastD name) l := by
  -- Each resource adds its type to those that were read, and its name takes the place of the last
  -- one.
  induction resources generalizing types name with
  | nil => rw [List.map_nil, List.append_nil]; rfl
  | cons r more ih =>
    have hr : ¬ isProviders r.1 = true := by simp [h r List.mem_cons_self]
    rw [resourceSegments_cons, List.cons_append, List.cons_append, readBlock, if_neg hr,
      ih _ _ fun x hx => h x (List.mem_cons_of_mem _ hx), List.append_assoc, List.map_cons,
      List.singleton_append, List.getLastD_cons, List.getLastD_cons]

/-- A block is read in front of others: behind its namespace it leaves its type and its name. -/
theorem readBlock_block (b : Block) (name : String) (l : List String) :
    readBlock b.ns [] name (resourceSegments b.resources ++ l) =
      readBlock b.ns (b.resources.map Prod.fst) ((resourceSegments b.resources).getLastD b.ns)
        l := by
  rw [readBlock_resources _ _ _ b.isType, List.nil_append, b.getLastD_eq]

/-- Further blocks are read one after another. -/
theorem readBlock_blocks {ns name : String} {types : List String} (htypes : types ≠ [])
    (blocks : List Block) :
    readBlock ns types name (blockSegments blocks) =
      .ok (typeAfter Block.resourceType (blockType ns types) blocks,
        (blockSegments blocks).getLastD name) := by
  -- The keyword of the next block closes the one that is open, which has resources and so a type.
  induction blocks generalizing ns types name with
  | nil => simp [blockSegments, readBlock, htypes]
  | cons b more ih =>
    have htypes' : ¬ types.isEmpty = true := by simpa using htypes
    have hresources : b.resources.map Prod.fst ≠ [] := by simpa using b.resources_ne_nil
    rw [blockSegments_cons, readBlock, if_pos b.isKeyword, if_neg htypes', readBlock_block,
      ih hresources, blockType_eq_resourceType, typeAfter_cons, List.getLastD_cons,
      List.getLastD_cons, getLastD_append]

/-- Blocks are read behind pairs. -/
theorem readPairs_blocks (resourceType name : String) (blocks : List Block) :
    readPairs resourceType name (blockSegments blocks) =
      .ok (typeAfter Block.resourceType resourceType blocks,
        (blockSegments blocks).getLastD name) := by
  cases blocks with
  | nil => rfl
  | cons b more =>
    have hresources : b.resources.map Prod.fst ≠ [] := by simpa using b.resources_ne_nil
    rw [blockSegments_cons, readPairs, if_pos b.isKeyword, readBlock_block,
      readBlock_blocks hresources, blockType_eq_resourceType, typeAfter_cons, List.getLastD_cons,
      List.getLastD_cons, getLastD_append]

/-- The keyword of a scope is another one than that of a block. -/
theorem not_isProviders_of_scope {key : String} {scope : Scope}
    (h : equalIgnoringCase key scope.keyword = true) : ¬ isProviders key = true := by
  intro hproviders
  rw [equalIgnoringCase_iff] at h
  rw [isProviders, equalIgnoringCase_iff, h] at hproviders
  cases scope with
  | subscription => exact absurd hproviders (by decide)
  | resourceGroup => exact absurd hproviders (by decide)

/-- A pair is read in front of any segments. -/
theorem readPairs_pair (p : ScopePair) (resourceType name : String) (l : List String) :
    readPairs resourceType name (p.key :: p.value :: l) =
      readPairs p.scope.resourceType p.value l := by
  obtain ⟨scope, key, value, hkey⟩ := p
  have hproviders := not_isProviders_of_scope hkey
  cases scope with
  | subscription =>
    rw [readPairs, if_neg hproviders]
    exact if_pos hkey
  | resourceGroup =>
    -- The keyword of a resource group is none of the two that are looked for before it.
    have hsubscriptions : ¬ equalIgnoringCase key "subscriptions" = true := by
      rw [equalIgnoringCase_iff] at hkey ⊢
      rw [hkey]
      decide
    rw [readPairs, if_neg hproviders, if_neg hsubscriptions]
    exact if_pos hkey

/-- Pairs are read one after another. -/
theorem readPairs_pairs (resourceType name : String) (pairs : List ScopePair) (l : List String) :
    readPairs resourceType name (pairSegments pairs ++ l) =
      readPairs (typeAfter (·.scope.resourceType) resourceType pairs)
        ((pairSegments pairs).getLastD name) l := by
  induction pairs generalizing resourceType name with
  | nil => rfl
  | cons p more ih =>
    rw [pairSegments_cons, List.cons_append, List.cons_append, readPairs_pair, ih, typeAfter_cons,
      List.getLastD_cons, List.getLastD_cons]

/-- The segments of a shape name its resource. -/
theorem readPairs_shape (shape : Shape) :
    readPairs "" "" shape.segments = .ok (shape.resourceType, shape.name) := by
  rw [Shape.segments, readPairs_pairs, readPairs_blocks, ← getLastD_append]
  rfl

/-- Behind pairs, a key that is no keyword and has a segment after it is at fault. -/
theorem readPairs_unexpected (pairs : List ScopePair) {key : String} (hkey : ¬ IsKeyword key)
    (value : String) (rest : List String) :
    readPairs "" "" (pairSegments pairs ++ key :: value :: rest) = .error (.unexpected key) := by
  have hproviders : ¬ isProviders key = true := fun h => hkey (Or.inl h)
  have hsubscriptions : ¬ equalIgnoringCase key "subscriptions" = true :=
    fun h => hkey (Or.inr ⟨.subscription, h⟩)
  have hgroups : ¬ equalIgnoringCase key "resourceGroups" = true :=
    fun h => hkey (Or.inr ⟨.resourceGroup, h⟩)
  rw [readPairs_pairs, readPairs, if_neg hproviders, if_neg hsubscriptions, if_neg hgroups]

/-! ### The shape of what is read -/

/-- In a block, segments that name a resource are types and names, and then blocks. -/
theorem exists_blocks {ns name : String} {types l : List String} {r : String × String}
    (h : readBlock ns types name l = .ok r) :
    ∃ (resources : List (String × String)) (blocks : List Block),
      l = resourceSegments resources ++ blockSegments blocks ∧
      (∀ r ∈ resources, isProviders r.1 = false) ∧ (types = [] → resources ≠ []) := by
  fun_induction readBlock ns types name l with
  | case1 => simp at h
  | case2 ns types name htypes =>
    exact ⟨[], [], rfl, by simp, fun hnil => absurd hnil (by simpa using htypes)⟩
  | case3 => simp at h
  | case4 => simp at h
  | case5 ns types name key value rest hkey htypes ih =>
    -- The keyword ends the types of this block and opens the next one.
    obtain ⟨resources, blocks, rfl, htype, hne⟩ := ih h
    exact ⟨[], ⟨key, value, resources, hkey, hne rfl, htype⟩ :: blocks, rfl, by simp,
      fun hnil => absurd hnil (by simpa using htypes)⟩
  | case6 ns types name key value rest hkey ih =>
    obtain ⟨resources, blocks, rfl, htype, -⟩ := ih h
    refine ⟨(key, value) :: resources, blocks, rfl, fun r hr => ?_, fun _ => List.cons_ne_nil _ _⟩
    rcases List.mem_cons.mp hr with rfl | hr
    · simpa using hkey
    · exact htype r hr

/-- Segments that name a resource have a shape. -/
theorem exists_shape {resourceType name : String} {l : List String} {r : String × String}
    (h : readPairs resourceType name l = .ok r) : ∃ shape : Shape, l = shape.segments := by
  -- Each step that succeeds is a pair of the shape, and a keyword begins its blocks.
  fun_induction readPairs resourceType name l with
  | case1 => exact ⟨⟨[], []⟩, rfl⟩
  | case2 => simp at h
  | case3 resourceType name key value rest hkey =>
    obtain ⟨resources, blocks, rfl, htype, hne⟩ := exists_blocks h
    exact ⟨⟨[], ⟨key, value, resources, hkey, hne rfl, htype⟩ :: blocks⟩, rfl⟩
  | case4 resourceType name key value rest _ hkey ih =>
    obtain ⟨shape, rfl⟩ := ih h
    exact ⟨⟨⟨.subscription, key, value, hkey⟩ :: shape.pairs, shape.blocks⟩, rfl⟩
  | case5 resourceType name key value rest _ _ hkey ih =>
    obtain ⟨shape, rfl⟩ := ih h
    exact ⟨⟨⟨.resourceGroup, key, value, hkey⟩ :: shape.pairs, shape.blocks⟩, rfl⟩
  | case6 => simp at h

/-- In a block, any key may stand as a type. -/
theorem readBlock_ne_unexpected (ns name : String) (types l : List String) (key : String) :
    readBlock ns types name l ≠ .error (.unexpected key) := by
  fun_induction readBlock ns types name l with
  | case1 | case2 | case3 | case4 => simp
  | case5 _ _ _ _ _ _ _ _ ih | case6 _ _ _ _ _ _ _ ih => exact ih

/-- A key at fault is no keyword. Pairs stand before it, and a segment after it. -/
theorem exists_unexpected {resourceType name key : String} {l : List String}
    (h : readPairs resourceType name l = .error (.unexpected key)) :
    ∃ (pairs : List ScopePair) (value : String) (rest : List String),
      l = pairSegments pairs ++ key :: value :: rest ∧ ¬ IsKeyword key := by
  -- The pairs are those in front of the segment that is refused.
  fun_induction readPairs resourceType name l with
  | case1 => simp at h
  | case2 => simp at h
  | case3 => exact (readBlock_ne_unexpected _ _ _ _ _ h).elim
  | case4 resourceType name first value rest _ hkey ih =>
    obtain ⟨pairs, value', rest', rfl, hfault⟩ := ih h
    exact ⟨⟨.subscription, first, value, hkey⟩ :: pairs, value', rest', rfl, hfault⟩
  | case5 resourceType name first value rest _ _ hkey ih =>
    obtain ⟨pairs, value', rest', rfl, hfault⟩ := ih h
    exact ⟨⟨.resourceGroup, first, value, hkey⟩ :: pairs, value', rest', rfl, hfault⟩
  | case6 resourceType name first value rest hproviders hsubscriptions hgroups =>
    cases h
    refine ⟨[], value, rest, rfl, ?_⟩
    rintro (hkey | ⟨scope, hkey⟩)
    · exact hproviders hkey
    · cases scope with
      | subscription => exact hsubscriptions hkey
      | resourceGroup => exact hgroups hkey

/-! ### Texts -/

/-- The segments of a text are those that it joins behind a slash. -/
theorem segments?_eq_some_iff {raw : String} {segments : List String} :
    segments? raw = some segments ↔ HasSegments raw segments := by
  have hslash : "/".toList = ['/'] := rfl
  -- The text behind the first slash is split at the others, and joined again.
  constructor
  · intro h
    unfold segments? at h
    split at h
    · rename_i rest hraw
      obtain ⟨hne, hsep, htext⟩ := (splitAtChar_eq_iff hslash (s := String.ofList rest)).mp rfl
      rw [splitAtChar, String.toList_ofList, Option.some.inj h] at hne hsep htext
      refine ⟨hne, hsep, ?_⟩
      rw [← htext, ← String.toList_inj, hraw, String.toList_append, hslash, String.toList_ofList,
        List.singleton_append]
    · simp at h
  · rintro ⟨hne, hsep, rfl⟩
    have hsplit := (splitAtChar_eq_iff hslash).mpr ⟨hne, hsep, rfl⟩
    have htext : ("/" ++ "/".intercalate segments).toList =
        '/' :: ("/".intercalate segments).toList := by
      rw [String.toList_append, hslash, List.singleton_append]
    rw [segments?, htext]
    exact congrArg some hsplit

/-- A text has segments if it begins with a slash. -/
theorem segments?_eq_none_iff {raw : String} :
    segments? raw = none ↔ raw.toList.head? ≠ some '/' := by
  cases hraw : raw.toList with
  | nil => simp [segments?, hraw]
  | cons c rest =>
    by_cases hc : c = '/'
    · simp [segments?, hraw, hc]
    · simp [segments?, hraw, hc]

/-- Without empty segments, reading a text is reading its segments. -/
theorem parse_of_segments {raw : String} {segments : List String} (h : HasSegments raw segments)
    (hempty : "" ∉ segments) :
    parse raw = match readPairs "" "" segments with
      | .error .truncated => .error (.truncated raw)
      | .error (.unexpected segment) => .error (.unexpectedSegment raw segment)
      | .ok (resourceType, name) => .ok ⟨raw, resourceType, name⟩ := by
  -- No segment is empty, so the check for one passes.
  have hany : ¬ segments.any String.isEmpty = true := by
    intro hany
    obtain ⟨x, hx, hnil⟩ := List.any_eq_true.mp hany
    rw [String.isEmpty_iff] at hnil
    exact hempty (hnil ▸ hx)
  rw [parse, segments?_eq_some_iff.mpr h]
  exact if_neg hany

/-- An empty segment is refused before anything else of the segments is read. -/
theorem parse_of_empty {raw : String} {segments : List String} (h : HasSegments raw segments)
    (hempty : "" ∈ segments) : parse raw = .error (.emptySegment raw) := by
  have hany : segments.any String.isEmpty = true :=
    List.any_eq_true.mpr ⟨"", hempty, rfl⟩
  rw [parse, segments?_eq_some_iff.mpr h]
  exact if_pos hany

/-- An outcome that is described is the one of parsing. -/
theorem parse_of_outcome {raw : String} {r : Except ResourceIdError ResourceId}
    (h : Outcome raw r) : parse raw = r := by
  cases h with
  | ok shape hsegments hempty => rw [parse_of_segments hsegments hempty, readPairs_shape]
  | missingLeadingSlash hslash => rw [parse, segments?_eq_none_iff.mpr hslash]
  | emptySegment segments hsegments hempty => exact parse_of_empty hsegments hempty
  | unexpectedSegment pairs key value rest hsegments hempty hkey =>
    rw [parse_of_segments hsegments hempty, readPairs_unexpected pairs hkey]
  | truncated segments hsegments hempty hshape hkeyword =>
    rw [parse_of_segments hsegments hempty]
    -- Neither a shape nor a key at fault is left.
    cases hread : readPairs "" "" segments with
    | ok r =>
      obtain ⟨shape, hshape'⟩ := exists_shape hread
      exact absurd hshape' (hshape shape)
    | error fault =>
      cases fault with
      | truncated => rfl
      | unexpected key =>
        obtain ⟨pairs, value, rest, hsplit, hkey⟩ := exists_unexpected hread
        exact absurd (hkeyword pairs key value rest hsplit) hkey

/-- The outcome of parsing is described, whatever the text. -/
theorem outcome_parse (raw : String) : Outcome raw (parse raw) := by
  cases hsegments? : segments? raw with
  | none =>
    have hslash := segments?_eq_none_iff.mp hsegments?
    rw [parse, hsegments?]
    exact .missingLeadingSlash hslash
  | some segments =>
    have hsegments := segments?_eq_some_iff.mp hsegments?
    by_cases hempty : "" ∈ segments
    · rw [parse_of_empty hsegments hempty]
      exact .emptySegment segments hsegments hempty
    · rw [parse_of_segments hsegments hempty]
      cases hread : readPairs "" "" segments with
      | ok r =>
        -- A reading that succeeds has a shape, and a failure is one of two.
        obtain ⟨shape, rfl⟩ := exists_shape hread
        rw [readPairs_shape] at hread
        cases hread
        exact .ok shape hsegments hempty
      | error fault =>
        cases fault with
        | truncated =>
          refine .truncated segments hsegments hempty ?_ ?_
          · rintro shape rfl
            simp [readPairs_shape] at hread
          · rintro pairs key value rest rfl
            refine Classical.byContradiction fun hkey => ?_
            simp [readPairs_unexpected pairs hkey] at hread
        | unexpected key =>
          obtain ⟨pairs, value, rest, rfl, hkey⟩ := exists_unexpected hread
          exact .unexpectedSegment pairs key value rest hsegments hempty hkey

/-- Reading a text gives the outcome of the text and no other. So the identifiers that can be read
are those that have a shape. -/
theorem parse_eq_iff_outcome (raw : String) (r : Except ResourceIdError ResourceId) :
    parse raw = r ↔ Outcome raw r := by
  constructor
  · rintro rfl
    exact outcome_parse raw
  · exact parse_of_outcome

end Governance.ResourceId
