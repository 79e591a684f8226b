import Governance.Hierarchy.Growth
import Governance.Proofs.Order.Map
import Governance.Proofs.Query

/-!
# `Governance.Proofs.Hierarchy.Assets`: the assets of a prepared group

`Hierarchy.prepare` makes the group that a request asks for, before it is linked.
`prepare_ensures` says all that an answer of it tells: the level fits the tree, every copy is
an answer of the source (`AssetCopies.Original`), and each assignment of a set passed the
check of the members (`MembersFit`). Nothing here depends on the registry except the level.

`Query.assets` is the part of `prepare` that asks the source. Over a steady source its
outcome does not depend on the state (`assets_steady`), so two hierarchies that ask for the
same group get the same copies.
-/

set_option autoImplicit false

namespace Governance

variable {σ : Type} {src : AssetSource σ} {I : σ → Prop}

/-- A member of a set names a definition that the source has, and passes only parameters that
this definition declares. -/
def MemberFits (src : AssetSource σ) (m : SetMember) : Prop :=
  ∃ name p, m.definitionName = .ok name ∧
    (src.policyDefinition name m.definitionVersion).Answers p ∧
    ∀ parameter ∈ m.parameters.keys, (p.parameter? parameter).isSome = true

/-- An assignment refers to a definition or a set definition. The source has the set in the
version that the assignment names, and its members fit. -/
def MembersFit (src : AssetSource σ) (a : PolicyAssignment) : Prop :=
  ∃ target, a.referencedDefinition = .ok target ∧
    ∀ set, target = .setDefinition set →
      ∃ p, (src.policySetDefinition set a.properties.definitionVersion).Answers p ∧
        ∀ m ∈ p.properties.members, MemberFits src m

/-- Every copy is an answer of the source to a look-up of its name, and each assignment
passed its check. Definitions and set definitions are looked up without a version. -/
structure AssetCopies.Original (src : AssetSource σ) (c : AssetCopies) : Prop where
  policyDefinition : ∀ {name p}, c.policyDefinitions.get? name = some p →
    (src.policyDefinition name none).Answers p
  policySetDefinition : ∀ {name p}, c.policySetDefinitions.get? name = some p →
    (src.policySetDefinition name none).Answers p
  policyAssignment : ∀ {name a}, c.policyAssignments.get? name = some a →
    (src.policyAssignment name).Answers a ∧ MembersFit src a
  roleDefinition : ∀ {name r}, c.roleDefinitions.get? name = some r →
    (src.roleDefinition name).Answers r

namespace Query

/-! ### Single look-ups -/

/-- The target of an assignment is what it refers to. -/
theorem target_ensures (group name : String) (a : PolicyAssignment) :
    Ensures I (target group name a : Query σ _) (fun t => a.referencedDefinition = .ok t)
      fun _ => True := by
  unfold target
  cases a.referencedDefinition with
  | ok t => exact .pure rfl
  | error e => exact .throw trivial

/-- The name of a member is that of the definition it refers to. -/
theorem memberName_ensures (group set : String) (m : SetMember) :
    Ensures I (memberName group set m : Query σ _) (fun name => m.definitionName = .ok name)
      fun _ => True := by
  unfold memberName
  cases m.definitionName with
  | ok name => exact .pure rfl
  | error e => exact .throw trivial

/-- What is required was an answer of the source. -/
theorem require_ensures {α : Type} {l : LookUp σ α} (hI : l.Keeps I) (error : HierarchyError) :
    Ensures I (require error l) l.Answers fun _ => True :=
  .require hI (fun s _ h => ⟨s, h⟩) (fun _ _ => trivial) fun _ _ _ => trivial

/-! ### The check of the members -/

/-- A member that passes the check fits its definition. -/
theorem checkMember_ensures (hI : src.Keeps I) (group archetype assignment set : String)
    (m : SetMember) :
    Ensures I (checkMember src group archetype assignment set m) (fun _ => MemberFits src m)
      fun _ => True := by
  refine (memberName_ensures group set m).bind fun name hname => ?_
  refine (require_ensures (hI.policyDefinition _ _) _).bind fun p hp => ?_
  split
  · exact .throw trivial
  · rename_i hfind
    refine .pure ⟨name, p, hname, hp, fun parameter hpar => ?_⟩
    have hnone := List.find?_eq_none.mp hfind parameter hpar
    simpa [Option.isSome_iff_ne_none] using hnone

/-- An assignment that passes the check has fitting members, if it refers to a set. -/
theorem checkMembers_ensures (hI : src.Keeps I) (group archetype : String)
    (a : PolicyAssignment) :
    Ensures I (checkMembers src group archetype a) (fun _ => MembersFit src a)
      fun _ => True := by
  refine (target_ensures group a.name a).bind fun t ht => ?_
  cases t with
  | definition name => exact .pure ⟨_, ht, by simp⟩
  | setDefinition set =>
    refine (require_ensures (hI.policySetDefinition _ _) _).bind fun p hp => ?_
    -- The members are checked one by one, and each one passed.
    refine (Ensures.forM fun m _ =>
      checkMember_ensures hI group archetype a.name set m).mono (fun _ hall => ?_)
      fun _ he => he
    refine ⟨_, ht, fun set' hset => ?_⟩
    cases hset
    exact ⟨p, hp, hall⟩

/-- The copy of an assignment is an answer of the source that passed the check. -/
theorem assignmentCopy_ensures (hI : src.Keeps I) (group name archetype : String) :
    Ensures I (assignmentCopy src group name archetype)
      (fun a => (src.policyAssignment name).Answers a ∧ MembersFit src a) fun _ => True := by
  refine (require_ensures (hI.policyAssignment _) _).bind fun a ha => ?_
  refine (checkMembers_ensures hI group archetype a).bind fun _ hfit => ?_
  exact .pure ⟨ha, hfit⟩

/-! ### All copies -/

/-- What is collected under a name was given for this name. -/
theorem collect_ensures {α : Type} {f : String → String → Query σ α} {P : String → α → Prop}
    {err : HierarchyError → Prop} (h : ∀ name archetype, Ensures I (f name archetype) (P name) err)
    (names : OrderedMap String String) :
    Ensures I (collect f names) (fun m => ∀ {name a}, m.get? name = some a → P name a) err := by
  refine (Ensures.mapM_mem (P := fun _ b => P b.1 b.2) fun e _ => ?_).bind fun found hfound => ?_
  · exact (h e.1 e.2).bind fun a ha => .pure ha
  · refine .pure fun {name a} hget => ?_
    obtain ⟨_, _, hP⟩ := hfound _ (OrderedMap.mem_of_get?_ofList hget)
    exact hP

/-- All copies are answers of the source. -/
theorem copies_ensures (hI : src.Keeps I) (group : String) (n : NamedAssets) :
    Ensures I (copies src group n) (AssetCopies.Original src) fun _ => True := by
  -- The four kinds are collected one after another, the assignments first.
  refine (collect_ensures (assignmentCopy_ensures hI group) _).bind fun _ ha => ?_
  refine (collect_ensures (fun name _ =>
    require_ensures (hI.policyDefinition name none) _) _).bind fun _ hd => ?_
  refine (collect_ensures (fun name _ =>
    require_ensures (hI.policySetDefinition name none) _) _).bind fun _ hs => ?_
  refine (collect_ensures (fun name _ =>
    require_ensures (hI.roleDefinition name) _) _).bind fun _ hr => ?_
  exact .pure ⟨hd, hs, ha, hr⟩

/-- The archetypes of a request are looked up without a change of the source. -/
theorem named_ensures (hI : src.Keeps I) (group : String) (archetypes : List String)
    (n : NamedAssets) :
    Ensures I (named src group n archetypes) (fun _ => True) fun _ => True := by
  induction archetypes generalizing n with
  | nil => exact .pure trivial
  | cons archetype rest ih =>
    exact (require_ensures (hI.archetype archetype) _).bind fun a _ => ih (n.absorb a)

/-- The copies of the assets that the archetypes of a request name. -/
def assets (src : AssetSource σ) (req : GroupRequest) : Query σ AssetCopies := do
  copies src req.id (← named src req.id .empty req.archetypes)

/-- The copies for a request are answers of the source. -/
theorem assets_ensures (hI : src.Keeps I) (req : GroupRequest) :
    Ensures I (assets src req) (AssetCopies.Original src) fun _ => True :=
  (named_ensures hI req.id req.archetypes .empty).bind fun n _ => copies_ensures hI req.id n

end Query

namespace Hierarchy

/-- A request is first held against the tree, and only then does the source answer. -/
theorem prepare_eq (src : AssetSource σ) (r : Registry) (req : GroupRequest) :
    prepare src r req = do
      let level ← MonadExcept.ofExcept (level? r req.id req.parent)
      let c ← Query.assets src req
      return newGroup req level c := by
  simp only [prepare, Query.assets, bind_assoc]

/-- A prepared group fits the tree, and its copies are as the source gives them. -/
theorem prepare_of_assets {ok : AssetCopies → Prop} {req : GroupRequest}
    (h : Query.Ensures I (Query.assets src req) ok fun _ => True) (r : Registry) :
    Query.Ensures I (prepare src r req)
      (fun g => ∃ level c, level? r req.id req.parent = .ok level ∧ ok c ∧ g = newGroup req level c)
      fun _ => True := by
  rw [prepare_eq]
  refine (Query.Ensures.ofExcept (fun _ h => h) fun _ _ => trivial).bind fun level hlevel => ?_
  refine h.bind fun c hc => ?_
  exact .pure ⟨level, c, hlevel, hc, rfl⟩

/-- A prepared group fits the tree and has copies of answers of the source. -/
theorem prepare_ensures (hI : src.Keeps I) (r : Registry) (req : GroupRequest) :
    Query.Ensures I (prepare src r req)
      (fun g => ∃ level c, level? r req.id req.parent = .ok level ∧ c.Original src ∧
        g = newGroup req level c)
      fun _ => True :=
  prepare_of_assets (Query.assets_ensures hI req) r

end Hierarchy

/-! ### Steady sources -/

namespace Query

/-- The target of an assignment is found without the source. -/
theorem target_steady (group name : String) (a : PolicyAssignment) :
    Steady (target group name a : Query σ _) := by
  unfold target
  cases a.referencedDefinition with
  | ok t => exact .pure t
  | error e => exact .throw _

/-- The name of a member is found without the source. -/
theorem memberName_steady (group set : String) (m : SetMember) :
    Steady (memberName group set m : Query σ _) := by
  unfold memberName
  cases m.definitionName with
  | ok name => exact .pure name
  | error e => exact .throw _

/-- A steady source checks a member in every state alike. -/
theorem checkMember_steady (h : src.Steady) (group archetype assignment set : String)
    (m : SetMember) : Steady (checkMember src group archetype assignment set m) := by
  refine (memberName_steady group set m).bind fun name => ?_
  refine (Steady.require (h.policyDefinition _ _) _).bind fun p => ?_
  split
  · exact .throw _
  · exact .pure _

/-- A steady source gives the copy of an assignment in every state alike. -/
theorem assignmentCopy_steady (h : src.Steady) (group name archetype : String) :
    Steady (assignmentCopy src group name archetype) := by
  refine (Steady.require (h.policyAssignment _) _).bind fun a => ?_
  refine Steady.bind ?_ fun _ => .pure a
  refine (target_steady group a.name a).bind fun t => ?_
  cases t with
  | definition name => exact .pure _
  | setDefinition set =>
    refine (Steady.require (h.policySetDefinition _ _) _).bind fun p => ?_
    exact .forM (fun m => checkMember_steady h group archetype a.name set m) _

/-- What is steady for each name is steady for all of them. -/
theorem collect_steady {α : Type} {f : String → String → Query σ α}
    (h : ∀ name archetype, Steady (f name archetype)) (names : OrderedMap String String) :
    Steady (collect f names) := by
  refine Steady.bind ?_ fun _ => .pure _
  exact .mapM (fun (e : String × String) => (h e.1 e.2).bind fun _ => .pure _) _

/-- The copies that a steady source gives for a request do not depend on the state. -/
theorem assets_steady (h : src.Steady) (req : GroupRequest) : Steady (assets src req) := by
  refine Steady.bind ?_ fun n => ?_
  -- The names grow from one archetype to the next, so they are arbitrary at the start.
  · generalize NamedAssets.empty = n
    induction req.archetypes generalizing n with
    | nil => exact .pure n
    | cons archetype rest ih =>
      exact (Steady.require (h.archetype archetype) _).bind fun a => ih (n.absorb a)
  · refine (collect_steady (assignmentCopy_steady h req.id) _).bind fun _ => ?_
    refine (collect_steady (fun name _ => .require (h.policyDefinition name none) _) _).bind
      fun _ => ?_
    refine (collect_steady (fun name _ => .require (h.policySetDefinition name none) _) _).bind
      fun _ => ?_
    refine (collect_steady (fun name _ => .require (h.roleDefinition name) _) _).bind
      fun _ => .pure _

end Query

end Governance
