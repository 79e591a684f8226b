import Governance.Proofs.Hierarchy.Copies
import Governance.Proofs.Hierarchy.Pointing

/-!
# `Governance.Proofs.Hierarchy.RoleNames`: which roles get the same names

A hierarchy may give each copy of a role definition names of its own. The name is a digest of the id
of the group and the name of the asset, one written behind the other. The role name is that of the
source with the id of the group at its end, unless it ends so already.

* `History.name_eq_iff`: two copies have one name just when the texts that are digested are the
  same. Nothing separates the id from the name of the asset, so this can happen to copies on
  different groups (`History.name_of_joined`).
* `History.roleName_eq_iff`: on one group, two copies have one role name when the role names in the
  source are the same, or when one of them is the other with the end that it gets on the group.
  On different groups the role names differ, unless the id of one of the groups ends with that of
  the other behind an opening bracket. `History.roleName_of_hub` has a case of each kind.

What makes the copies is `IsDeployed`, so both hold after every run, of all groups whose addition
succeeded (`History.HoldsRole`).
-/

set_option autoImplicit false

namespace Governance

variable {σ : Type} {src : AssetSource σ}

/-! ### Texts with a suffix -/

/-- The text `y` is `x` with a suffix that `x` does not have. -/
def Text.Gains (suffix x y : String) : Prop := finishesWith suffix x = false ∧ y = x ++ suffix

namespace Deployment

/-- Two texts become one under a suffix just when they are one, or one gains the suffix to be the
other. -/
theorem withSuffix_eq_iff {suffix x y : String} :
    withSuffix suffix x = withSuffix suffix y ↔
      x = y ∨ Text.Gains suffix x y ∨ Text.Gains suffix y x := by
  have happend : ∀ s : String, Text.finishesWith suffix (s ++ suffix) = true :=
    fun s => Text.finishesWith_iff.mpr ⟨s, rfl⟩
  unfold withSuffix Text.Gains
  cases hx : Text.finishesWith suffix x <;> cases hy : Text.finishesWith suffix y
  case true.true => simp
  case false.true =>
    -- Only `x` is given the suffix.
    have hne : x ≠ y := by
      rintro rfl
      simp [hx] at hy
    simp [hne, eq_comm]
  case true.false =>
    have hne : x ≠ y := by
      rintro rfl
      simp [hx] at hy
    simp [hne]
  case false.false =>
    have hxy : y ≠ x ++ suffix := by
      rintro rfl
      simp [happend] at hy
    have hyx : x ≠ y ++ suffix := by
      rintro rfl
      simp [happend] at hx
    simp [hxy, hyx]

end Deployment

/-- The end of role names on a group. -/
def roleSuffix (group : String) : String := s!" ({group})"

/-- The suffix of a group is its id in brackets, behind a blank. -/
theorem toList_roleSuffix (group : String) :
    (roleSuffix group).toList = [' ', '('] ++ group.toList ++ [')'] := by
  simp [roleSuffix, toString]

/-- What is read behind an opening bracket holds a later opening bracket as a whole. -/
theorem bracket_cases {group group' front : List Char}
    (h : [' ', '('] ++ group = front ++ ([' ', '('] ++ group')) :
    group = group' ∨ ∃ front', group = front' ++ ([' ', '('] ++ group') := by
  match front with
  | [] =>
    left
    simpa using h
  | [c] =>
    -- The second character would be a bracket and a blank at once.
    exfalso
    simp at h
  | c :: d :: front' =>
    right
    simp only [List.cons_append, List.nil_append, List.cons.injEq] at h
    exact ⟨front', h.2.2⟩

/-- Texts that end with different groups are different, unless one id ends with the other behind an
opening bracket. -/
theorem roleSuffix_cases {x y group group' : String}
    (h : x ++ roleSuffix group = y ++ roleSuffix group') :
    group = group' ∨ Text.finishesWith (" (" ++ group') group = true ∨
      Text.finishesWith (" (" ++ group) group' = true := by
  have hends : ∀ {group group' : String} {front : List Char},
      group.toList = front ++ ([' ', '('] ++ group'.toList) →
        Text.finishesWith (" (" ++ group') group = true := by
    intro group group' front hfront
    refine Text.finishesWith_iff.mpr ⟨String.ofList front, ?_⟩
    rw [← String.toList_inj, hfront]
    simp
  have hchars : x.toList ++ ([' ', '('] ++ group.toList) =
      y.toList ++ ([' ', '('] ++ group'.toList) := by
    have hlist := congrArg String.toList h
    simp only [String.toList_append, toList_roleSuffix, ← List.append_assoc] at hlist
    simpa only [List.append_assoc] using List.append_cancel_right hlist
  -- The longer one of the suffixes reaches into what stands before the other.
  rcases List.append_eq_append_iff.mp hchars with ⟨front, -, hfront⟩ | ⟨front, -, hfront⟩
  · rcases bracket_cases hfront with heq | ⟨front', heq⟩
    · exact Or.inl (String.toList_inj.mp heq)
    · exact Or.inr (Or.inl (hends heq))
  · rcases bracket_cases hfront with heq | ⟨front', heq⟩
    · exact Or.inl (String.toList_inj.mp heq.symm)
    · exact Or.inr (Or.inr (hends heq))

/-! ### Copies -/

namespace RoleDefinition

variable (group name : String) (r : RoleDefinition)

/-- A deployed role has the name that is made for its group. -/
theorem deployed_name : (r.deployed true group name).name = uniqueRoleName group name := by
  simp only [deployed, Deployment.role, if_true, Deployment.uniqueRole]

/-- The display name of a deployed role has the suffix of the group. -/
theorem deployed_roleName : (r.deployed true group name).properties.roleName =
    Deployment.withSuffix (roleSuffix group) r.properties.roleName := by
  simp only [deployed, Deployment.role, if_true, Deployment.uniqueRole, roleSuffix]

end RoleDefinition

/-- The copy of a role definition on a group. -/
def Registry.role? (r : Registry) (id name : String) : Option RoleDefinition :=
  (r.get? id).bind fun g => g.roleDefinitions.get? name

namespace History

/-- The group `id` was added with success, and `r` is its copy of the role definition `name`. -/
structure HoldsRole (t : History) (id name : String) (r : RoleDefinition) : Prop where
  added : id ∈ t.added
  copy : t.hierarchy.groups.role? id name = some r

variable {uniqueRoles : Bool} {calls : List (σ × Call)} {id id' name name' : String}
  {r r' : RoleDefinition}

/-- The copy was made of an answer of the source. -/
theorem HoldsRole.exists_original (h : (after src uniqueRoles calls).HoldsRole id name r) :
    ∃ r₀, (src.roleDefinition name).Answers r₀ ∧ r = r₀.deployed uniqueRoles id name := by
  obtain ⟨g, hg, hr⟩ := Option.bind_eq_some_iff.mp h.copy
  have hdeployed := isDeployed_after uniqueRoles calls h.added
  obtain ⟨r₀, hr₀, heq⟩ := hdeployed.exists_roleDefinition hg hr
  rw [uniqueRoles_after] at heq
  exact ⟨r₀, hr₀, heq⟩

/-- The name of a role at a group is made of the id and its name. -/
theorem HoldsRole.name_eq (h : (after src true calls).HoldsRole id name r) :
    r.name = Digest.nameUuid (id ++ name) := by
  obtain ⟨r₀, -, rfl⟩ := h.exists_original
  exact r₀.deployed_name id name

/-- A copy is held if there is one. -/
theorem exists_holdsRole {t : History} (hadded : id ∈ t.added)
    (hcopy : (t.hierarchy.groups.role? id name).isSome = true) : ∃ r, t.HoldsRole id name r := by
  obtain ⟨r, hr⟩ := Option.isSome_iff_exists.mp hcopy
  exact ⟨r, hadded, hr⟩

end History

namespace Sample

/-- A catalog of role definitions with their role names, and of archetypes that list them. -/
def roleCatalog (roles : List (String × String)) (lists : List (String × List String)) : Catalog :=
  { Catalog.empty with
    roleDefinitions := .ofList (roles.map fun e => (e.1, role e.2))
    archetypes := .ofList (lists.map fun e => (e.1, ⟨e.1, {}, {}, {}, .ofList e.2⟩)) }

/-- A root and a group below it, each with the archetype of its own name, where roles get names of
their own. -/
def rootAndChild (c : Catalog) (root child : String) : History :=
  .after c.source true
    [(false, .add ⟨root, root, .external "tenant", "westeurope", false, [root]⟩),
     (false, .add ⟨child, child, .group root, "westeurope", false, [child]⟩)]

/-- One role definition for two groups. -/
def operators : Catalog :=
  roleCatalog [("ops", "Operators")] [("root", ["ops"]), ("leaf", ["ops"])]

/-- Two role definitions, whose names behind those of their groups are one text. -/
def joined : Catalog :=
  roleCatalog [("bc", "First"), ("c", "Second")] [("a", ["bc"]), ("ab", ["c"])]

/-- Role names that meet on the root `east`, and one that meets another on the group below it. -/
def hub : Catalog :=
  roleCatalog [("ops", "Ops"), ("ops-east", "Ops (east)"), ("ops-hub", "Ops (hub")]
    [("east", ["ops", "ops-east", "ops-hub"]), ("hub (east", ["ops"])]

end Sample

namespace History

variable {uniqueRoles : Bool} {calls : List (σ × Call)} {id id' name name' : String}
  {r r' : RoleDefinition}

/-- Both groups hold a copy of the one role definition. -/
theorem exists_holdsRole_operators :
    ∃ r r', (Sample.rootAndChild Sample.operators "root" "leaf").HoldsRole "root" "ops" r ∧
      (Sample.rootAndChild Sample.operators "root" "leaf").HoldsRole "leaf" "ops" r' := by
  obtain ⟨r, hr⟩ : ∃ r, (Sample.rootAndChild Sample.operators "root" "leaf").HoldsRole
      "root" "ops" r := exists_holdsRole (by decide +kernel) (by decide +kernel)
  obtain ⟨r', hr'⟩ : ∃ r', (Sample.rootAndChild Sample.operators "root" "leaf").HoldsRole
      "leaf" "ops" r' := exists_holdsRole (by decide +kernel) (by decide +kernel)
  exact ⟨r, r', hr, hr'⟩

/-! ### Names -/

/-- Take two copies of role definitions, where roles get names of their own, and suppose that the
digest tells their two texts apart if they are different. The copies have the same name just when
the ids of their groups, followed by the names of the assets, are the same texts. So the names are
different for two assets on one group, and for one asset on two groups. -/
theorem name_eq_iff (h : (after src true calls).HoldsRole id name r)
    (h' : (after src true calls).HoldsRole id' name' r')
    (hdigest : Digest.nameUuid (id ++ name) = Digest.nameUuid (id' ++ name') →
      id ++ name = id' ++ name') :
    (r.name = r'.name ↔ id ++ name = id' ++ name') ∧
    (id = id' ∧ name ≠ name' ∨ id ≠ id' ∧ name = name' → r.name ≠ r'.name) := by
  have hiff : r.name = r'.name ↔ id ++ name = id' ++ name' := by
    rw [h.name_eq, h'.name_eq]
    exact ⟨hdigest, congrArg Digest.nameUuid⟩
  refine ⟨hiff, fun hother heq => ?_⟩
  have hchars := congrArg String.toList (hiff.mp heq)
  rw [String.toList_append, String.toList_append] at hchars
  -- One of the two parts is the same in both texts, so the other one is too.
  rcases hother with ⟨rfl, hne⟩ | ⟨hne, rfl⟩
  · exact hne (String.toList_inj.mp (List.append_cancel_left hchars))
  · exact hne (String.toList_inj.mp (List.append_cancel_right hchars))

/-- Two groups have different names for their copies of one role definition. -/
theorem name_eq_iff_operators :
    ∃ r r', (Sample.rootAndChild Sample.operators "root" "leaf").HoldsRole "root" "ops" r ∧
      (Sample.rootAndChild Sample.operators "root" "leaf").HoldsRole "leaf" "ops" r' ∧
      (Digest.nameUuid ("root" ++ "ops") = Digest.nameUuid ("leaf" ++ "ops") →
        "root" ++ "ops" = "leaf" ++ "ops") ∧
      r.name ≠ r'.name := by
  obtain ⟨r, r', hr, hr'⟩ := exists_holdsRole_operators
  have hdigest : Digest.nameUuid ("root" ++ "ops") = Digest.nameUuid ("leaf" ++ "ops") →
      "root" ++ "ops" = "leaf" ++ "ops" := by decide +kernel
  have hgroups : "root" ≠ "leaf" := by decide
  exact ⟨r, r', hr, hr', hdigest, (name_eq_iff hr hr' hdigest).2 (Or.inr ⟨hgroups, rfl⟩)⟩

/-- Two groups hold copies of different role definitions under the same name. -/
theorem name_of_joined :
    ∃ r r', (Sample.rootAndChild Sample.joined "a" "ab").HoldsRole "a" "bc" r ∧
      (Sample.rootAndChild Sample.joined "a" "ab").HoldsRole "ab" "c" r' ∧
      "a" ≠ "ab" ∧ "bc" ≠ "c" ∧ r.name = r'.name := by
  obtain ⟨r, hr⟩ : ∃ r, (Sample.rootAndChild Sample.joined "a" "ab").HoldsRole "a" "bc" r :=
    exists_holdsRole (by decide +kernel) (by decide +kernel)
  obtain ⟨r', hr'⟩ : ∃ r', (Sample.rootAndChild Sample.joined "a" "ab").HoldsRole "ab" "c" r' :=
    exists_holdsRole (by decide +kernel) (by decide +kernel)
  have hjoined : "a" ++ "bc" = "ab" ++ "c" := by decide
  refine ⟨r, r', hr, hr', by decide, by decide, ?_⟩
  rw [hr.name_eq, hr'.name_eq, hjoined]

/-! ### Role names -/

/-- The display name of a role at a group is the one of the source, with the suffix of the group. -/
theorem HoldsRole.roleName_eq (hsrc : src.Consistent)
    (h : (after src true calls).HoldsRole id name r) {r₀ : RoleDefinition}
    (hr₀ : (src.roleDefinition name).Answers r₀) :
    r.properties.roleName =
      Deployment.withSuffix (roleSuffix id) r₀.properties.roleName := by
  obtain ⟨r₁, hr₁, rfl⟩ := h.exists_original
  obtain rfl := (hsrc.roleDefinition name).eq_of_answers hr₀ hr₁
  exact r₀.deployed_roleName id name

/-- Take two copies of role definitions, where roles get names of their own, and a source whose
answers agree with each other. On one group the copies have the same role name just when their
originals have, or when one original has that of the other with the id of the group at the end. On
different groups their role names differ, when neither id ends with an opening bracket and the
other id. -/
theorem roleName_eq_iff (hsrc : src.Consistent)
    (h : (after src true calls).HoldsRole id name r)
    (h' : (after src true calls).HoldsRole id' name' r') {r₀ r₀' : RoleDefinition}
    (hr₀ : (src.roleDefinition name).Answers r₀)
    (hr₀' : (src.roleDefinition name').Answers r₀') :
    (id = id' → (r.properties.roleName = r'.properties.roleName ↔
      r₀.properties.roleName = r₀'.properties.roleName ∨
        Text.Gains (roleSuffix id) r₀.properties.roleName r₀'.properties.roleName ∨
        Text.Gains (roleSuffix id) r₀'.properties.roleName r₀.properties.roleName)) ∧
    (id ≠ id' → Text.finishesWith (" (" ++ id') id = false →
      Text.finishesWith (" (" ++ id) id' = false →
        r.properties.roleName ≠ r'.properties.roleName) := by
  rw [h.roleName_eq hsrc hr₀, h'.roleName_eq hsrc hr₀']
  constructor
  · rintro rfl
    exact Deployment.withSuffix_eq_iff
  · intro hne hid hid' heq
    obtain ⟨front, hfront⟩ :=
      Deployment.exists_withSuffix (roleSuffix id) r₀.properties.roleName
    obtain ⟨front', hfront'⟩ :=
      Deployment.exists_withSuffix (roleSuffix id') r₀'.properties.roleName
    rw [hfront, hfront'] at heq
    -- Names with two suffixes are the same only if one id ends with a bracket and the other id.
    rcases roleSuffix_cases heq with hsame | hends | hends
    · exact hne hsame
    · simp [hid] at hends
    · simp [hid'] at hends

/-- Two groups with copies of one role definition have different role names for them. -/
theorem roleName_eq_iff_operators :
    Sample.operators.source.Consistent ∧
    ∃ r r', (Sample.rootAndChild Sample.operators "root" "leaf").HoldsRole "root" "ops" r ∧
      (Sample.rootAndChild Sample.operators "root" "leaf").HoldsRole "leaf" "ops" r' ∧
      (Sample.operators.source.roleDefinition "ops").Answers (Sample.role "Operators") ∧
      r.properties.roleName ≠ r'.properties.roleName := by
  have hsrc : Sample.operators.source.Consistent :=
    Sample.operators.source_answersAs.steady.consistent
  obtain ⟨r, r', hr, hr'⟩ := exists_holdsRole_operators
  have hanswer : (Sample.operators.source.roleDefinition "ops").Answers (Sample.role "Operators") :=
    ⟨false, rfl⟩
  have hnames := (roleName_eq_iff hsrc hr hr' hanswer hanswer).2
  exact ⟨hsrc, r, r', hr, hr', hanswer, hnames (by decide) (by decide) (by decide)⟩

/-- On the root, `Ops` is given the end that `Ops (east)` has already. On the group below it, `Ops`
is given the id `hub (east`, and on the root `Ops (hub` is given the id `east`, which is the same
text again. -/
theorem roleName_of_hub :
    (∃ r r', (Sample.rootAndChild Sample.hub "east" "hub (east").HoldsRole "east" "ops" r ∧
      (Sample.rootAndChild Sample.hub "east" "hub (east").HoldsRole "east" "ops-east" r' ∧
      (Sample.hub.source.roleDefinition "ops").Answers (Sample.role "Ops") ∧
      (Sample.hub.source.roleDefinition "ops-east").Answers (Sample.role "Ops (east)") ∧
      r.properties.roleName = r'.properties.roleName) ∧
    ∃ r r', (Sample.rootAndChild Sample.hub "east" "hub (east").HoldsRole "east" "ops-hub" r ∧
      (Sample.rootAndChild Sample.hub "east" "hub (east").HoldsRole "hub (east" "ops" r' ∧
      "east" ≠ "hub (east" ∧ r.properties.roleName = r'.properties.roleName := by
  have hsrc : Sample.hub.source.Consistent := Sample.hub.source_answersAs.steady.consistent
  have hops : (Sample.hub.source.roleDefinition "ops").Answers (Sample.role "Ops") := ⟨false, rfl⟩
  have heast : (Sample.hub.source.roleDefinition "ops-east").Answers (Sample.role "Ops (east)") :=
    ⟨false, rfl⟩
  have hhub : (Sample.hub.source.roleDefinition "ops-hub").Answers (Sample.role "Ops (hub") :=
    ⟨false, rfl⟩
  constructor
  · obtain ⟨r, hr⟩ : ∃ r, (Sample.rootAndChild Sample.hub "east" "hub (east").HoldsRole
        "east" "ops" r := exists_holdsRole (by decide +kernel) (by decide +kernel)
    obtain ⟨r', hr'⟩ : ∃ r', (Sample.rootAndChild Sample.hub "east" "hub (east").HoldsRole
        "east" "ops-east" r' := exists_holdsRole (by decide +kernel) (by decide +kernel)
    refine ⟨r, r', hr, hr', hops, heast, ?_⟩
    -- On one group, the one name has the suffix by itself, and the other one is given it.
    rw [hr.roleName_eq hsrc hops, hr'.roleName_eq hsrc heast]
    decide
  · obtain ⟨r, hr⟩ : ∃ r, (Sample.rootAndChild Sample.hub "east" "hub (east").HoldsRole
        "east" "ops-hub" r := exists_holdsRole (by decide +kernel) (by decide +kernel)
    obtain ⟨r', hr'⟩ : ∃ r', (Sample.rootAndChild Sample.hub "east" "hub (east").HoldsRole
        "hub (east" "ops" r' := exists_holdsRole (by decide +kernel) (by decide +kernel)
    refine ⟨r, r', hr, hr', by decide, ?_⟩
    -- On two groups, the one id ends with a bracket and the other id.
    rw [hr.roleName_eq hsrc hhub, hr'.roleName_eq hsrc hops]
    decide

end History

end Governance
