import Governance.Hierarchy.Derivation
import Governance.Hierarchy.Edit
import Governance.Proofs.Hierarchy.Assets
import Governance.Proofs.Hierarchy.Deployment

/-!
# `Governance.Proofs.Hierarchy.History`: what a run of calls can do

The model of a run is a list of calls, each with the state of the source at its start
(`History.after`). The source is arbitrary. It may fail at any look-up of a call, and it may
give the signal to stop at any time. So the runs include every call that fails, and every
call that is stopped before its end.

A `History` also lists the groups whose addition succeeded. A group whose assets could not
be deployed is registered too, but it is not listed.

`History.invariant` is the induction over runs, and `History.invariant_requested` is the same
where it matters what the calls ask for (`Call.Requests`). They leave two cases:

* `History.settle`: one group is added, and the source has its assets. The group fits the
  tree. `get?_settle` gives every look-up after it.
* An edit: the registry changes, but not its frame (`Registry.frame`). Derivations, defaults
  and modifications are of this kind (`derive_frame`, `applyDefault_frame`,
  `modifyAssignment_frame`).
-/

set_option autoImplicit false

namespace Governance

variable {σ : Type}

/-! ### What no edit changes -/

/-- The part of an assignment that no edit changes. -/
def PolicyAssignment.frame (a : PolicyAssignment) : PolicyAssignment :=
  { a with
    identity := none
    properties := { a.properties with
      parameters := {}
      enforcementMode := none
      notScopes := []
      nonComplianceMessages := [] } }

/-- The part of a group that no edit changes. -/
def Group.frame (g : Group) : Group :=
  { g with
    policyAssignments := g.policyAssignments.map fun _ a => a.frame
    grants := {} }

/-- The part of a registry that no edit changes. -/
def Registry.frame (r : Registry) : Registry := r.map fun _ g => g.frame

/-- The part of a hierarchy that no edit changes. -/
def Hierarchy.frame (h : Hierarchy) : Hierarchy := { h with groups := h.groups.frame }

/-- A change of one value leaves what `f` makes of a map as it is, when it leaves what `f`
makes of that value. -/
theorem map_modify {κ α β : Type} [Ord κ] [Std.TransOrd κ] [Std.LawfulEqOrd κ] [DecidableEq κ]
    {m : OrderedMap κ α} {k : κ} {f : α → α} {g : α → β}
    (h : ∀ v, m.get? k = some v → g (f v) = g v) :
    ((m.modify k f).map fun _ v => g v) = m.map fun _ v => g v := by
  -- Maps are the same if every look-up gives the same, and only the one under `k` could differ.
  refine OrderedMap.ext_get? fun k' => ?_
  rw [OrderedMap.get?_map, OrderedMap.get?_map, OrderedMap.get?_modify]
  split
  · rename_i hk
    subst hk
    cases hv : m.get? k' with
    | none => rfl
    | some v => exact congrArg some (h v hv)
  · rfl

/-- A change that keeps the frame of an assignment keeps that of its group. -/
theorem Group.frame_modifyAssignment {g : Group} {name : String}
    {f : PolicyAssignment → PolicyAssignment}
    (h : ∀ a, g.policyAssignments.get? name = some a → (f a).frame = a.frame) :
    (g.modifyAssignment name f).frame = g.frame := by
  unfold modifyAssignment frame
  dsimp only
  rw [map_modify h]

/-- The frame has the shape. -/
theorem Hierarchy.shape_of_frame {h h' : Hierarchy} (heq : h'.frame = h.frame) :
    h'.groups.shape = h.groups.shape := by
  have hshape : ∀ h : Hierarchy, h.frame.groups.shape = h.groups.shape := fun h =>
    OrderedMap.map_map h.groups (fun _ g => g.frame) fun _ g => g.shape
  rw [← hshape h', heq, hshape h]

/-- Hierarchies with one frame have groups of one frame under the same ids. -/
theorem Hierarchy.exists_of_frame {h h' : Hierarchy} (heq : h'.frame = h.frame) {id : String}
    {g' : Group} (hg : h'.groups.get? id = some g') :
    ∃ g, h.groups.get? id = some g ∧ g.frame = g'.frame :=
  OrderedMap.exists_of_map_eq (congrArg Hierarchy.groups heq) hg

/-- Groups with one frame have assignments of one frame under the same names. -/
theorem Group.exists_of_frame {g g' : Group} (heq : g'.frame = g.frame) {name : String}
    {a' : PolicyAssignment} (ha : g'.policyAssignments.get? name = some a') :
    ∃ a, g.policyAssignments.get? name = some a ∧ a.frame = a'.frame :=
  OrderedMap.exists_of_map_eq (congrArg Group.policyAssignments heq) ha

/-- The frame of an assignment has its reference and its version. -/
theorem PolicyAssignment.reference_of_frame {a a' : PolicyAssignment} (heq : a'.frame = a.frame) :
    a'.properties.policyDefinitionId = a.properties.policyDefinitionId ∧
      a'.properties.definitionVersion = a.properties.definitionVersion := by
  have hreference : a'.frame.properties.policyDefinitionId =
      a.frame.properties.policyDefinitionId := by rw [heq]
  have hversion : a'.frame.properties.definitionVersion =
      a.frame.properties.definitionVersion := by rw [heq]
  exact ⟨hreference, hversion⟩

/-- The assignment with one value in each of the parameters. -/
def PolicyAssignment.filled (a : PolicyAssignment) (parameters : List String) (v : Json) :
    PolicyAssignment :=
  parameters.foldl (fun a parameter => a.setParameter parameter v) a

/-- What one parameter does not change, many do not change. -/
theorem PolicyAssignment.filled_keeps {α : Type} {view : PolicyAssignment → α} {v : Json}
    (h : ∀ a parameter, view (PolicyAssignment.setParameter a parameter v) = view a)
    (parameters : List String) (a : PolicyAssignment) : view (a.filled parameters v) = view a := by
  induction parameters generalizing a with
  | nil => rfl
  | cons parameter rest ih => exact (ih (a.setParameter parameter v)).trans (h a parameter)

namespace Hierarchy

variable (src : AssetSource σ)

/-! ### Single calls -/

/-- A derivation asks all queries first and then replaces the grants. -/
theorem derive_run (h : Hierarchy) (s : σ) :
    derive src h s = match (Query.deriveAll src h.groups).run s with
      | (.error e, s') => ((.error e, h), s')
      | (.ok found, s') =>
        ((.ok (reportOf found), { h with groups := withGrants h.groups found }), s') := by
  unfold derive
  simp only [bind, StateT.bind]
  rcases (Query.deriveAll src h.groups).run s with ⟨e | found, s'⟩ <;> rfl

/-- A default is written once all of its sites are found. -/
theorem applyDefault_run (h : Hierarchy) (name : String) (v : Json) (s : σ) :
    applyDefault src h name v s = match (Query.allDefaultSites src h.groups name).run s with
      | (.error e, s') => ((.error e, h), s')
      | (.ok sites, s') => ((.ok (sites.foldl (fun n site => n + site.parameters.size) 0),
          { h with groups := sites.foldl (fillSite v) h.groups }), s') := by
  unfold applyDefault
  simp only [bind, StateT.bind]
  rcases (Query.allDefaultSites src h.groups name).run s with ⟨e | sites, s'⟩ <;> rfl

/-- A change is made once the changed assignment is found. -/
theorem modifyAssignment_run (h : Hierarchy) (group name : String) (c : AssignmentChange) (s : σ) :
    modifyAssignment src h group name c s =
      match (changed src h.groups group name c).run s with
      | (.error e, s') => ((.error e, h), s')
      | (.ok a, s') => ((.ok a, { h with
          groups := h.groups.modify group fun g => g.modifyAssignment name fun _ => a }), s') := by
  unfold modifyAssignment
  simp only [bind, StateT.bind]
  rcases (changed src h.groups group name c).run s with ⟨e | a, s'⟩ <;> rfl

/-- A group is settled once it is prepared. -/
theorem add_run (h : Hierarchy) (req : GroupRequest) (s : σ) :
    add src h req s = match (prepare src h.groups req).run s with
      | (.error e, s') => ((.error e, h), s')
      | (.ok g, s') => (h.settle g, s') := by
  unfold add
  simp only [bind, StateT.bind]
  rcases (prepare src h.groups req).run s with ⟨e | g, s'⟩ <;> rfl

/-- The first place is added, and the others from the state that this leaves. -/
theorem addAll_cons_run (architecture location : String) (p : Position) (parent : Parent)
    (rest : List (Position × Parent)) (h : Hierarchy) (s : σ) :
    addAll src architecture location ((p, parent) :: rest) h s =
      if src.stopped s then ((.error .cancelled, h), s)
      else match add src h (requestFor location p parent) s with
        | ((.ok _, h'), s') => addAll src architecture location rest h' s'
        | ((.error e, h'), s') => ((.error (.architecture architecture p.id e), h'), s') := by
  have hget : (get : StateM σ σ) s = (s, s) := rfl
  simp only [addAll, bind, StateT.bind, hget]
  -- The signal is read before the place is added.
  cases src.stopped s with
  | true => rfl
  | false =>
    simp only [Bool.false_eq_true, if_false]
    unfold StateT.bind
    rcases add src h (requestFor location p parent) s with ⟨⟨e | g, h'⟩, s'⟩ <;> rfl

/-- The places of an architecture are added once it is found. -/
theorem addArchitecture_run (h : Hierarchy) (name externalParent location : String) (s : σ) :
    addArchitecture src h name externalParent location s =
      match (Query.require (.architectureNotFound name) (src.architecture name)).run s with
      | (.error e, s') => ((.error e, h), s')
      | (.ok a, s') =>
        addAll src name location (placementsOf (.external externalParent) a.roots) h s' := by
  unfold addArchitecture
  simp only [bind, StateT.bind]
  rcases (Query.require (.architectureNotFound name) (src.architecture name)).run s with
    ⟨e | a, s'⟩ <;> rfl

/-- Adding a group changes nothing, or the group fits the tree and the source has its
assets. -/
theorem add_cases (h : Hierarchy) (req : GroupRequest) (s : σ) :
    (∃ e, (add src h req s).1 = (.error e, h)) ∨
      ∃ level c, level? h.groups req.id req.parent = .ok level ∧ c.Original src ∧
        (add src h req s).1 = h.settle (newGroup req level c) := by
  rw [add_run]
  rcases hrun : (prepare src h.groups req).run s with ⟨e | g, s'⟩
  · exact Or.inl ⟨e, rfl⟩
  · obtain ⟨⟨level, c, hlevel, hc, rfl⟩, -⟩ :=
      (prepare_ensures src.keeps_true h.groups req).of_ok trivial hrun
    exact Or.inr ⟨level, c, hlevel, hc, rfl⟩

/-! ### Edits keep the frame -/

/-- Other grants keep the frame of every group. -/
theorem withGrants_frame (r : Registry) (found : List (String × Findings)) :
    (withGrants r found).frame = r.frame := by
  unfold withGrants Registry.frame
  rw [OrderedMap.map_map]
  refine OrderedMap.map_congr fun id g _ => ?_
  split <;> rfl

/-- A derivation keeps the frame. -/
theorem derive_frame (h : Hierarchy) (s : σ) :
    (derive src h s).1.2.frame = h.frame := by
  rw [derive_run]
  rcases (Query.deriveAll src h.groups).run s with ⟨e | found, s'⟩
  · rfl
  · exact congrArg (Hierarchy.mk · _) (withGrants_frame h.groups found)

/-- A site that is filled keeps the frame. -/
theorem fillSite_frame (v : Json) (r : Registry) (site : DefaultSite) :
    (fillSite v r site).frame = r.frame :=
  map_modify fun _ _ => Group.frame_modifyAssignment fun a _ =>
    PolicyAssignment.filled_keeps (fun _ _ => rfl) site.parameters.toList a

/-- A default keeps the frame. -/
theorem applyDefault_frame (h : Hierarchy) (name : String) (v : Json) (s : σ) :
    (applyDefault src h name v s).1.2.frame = h.frame := by
  rw [applyDefault_run]
  rcases (Query.allDefaultSites src h.groups name).run s with ⟨e | sites, s'⟩
  · rfl
  · dsimp only
    induction sites generalizing h with
    | nil => rfl
    | cons site rest ih =>
      have hsite := congrArg (Hierarchy.mk · h.uniqueRoles) (fillSite_frame v h.groups site)
      exact (ih { h with groups := fillSite v h.groups site }).trans hsite

/-- The copy of an assignment is the one that the group holds. -/
theorem assignmentCopy?_eq_ok {r : Registry} {group name : String} {a : PolicyAssignment} :
    assignmentCopy? r group name = .ok a ↔
      ∃ g, r.get? group = some g ∧ g.policyAssignments.get? name = some a := by
  unfold assignmentCopy?
  cases r.get? group with
  | none => simp
  | some g => cases ha : g.policyAssignments.get? name <;> simp [ha]

/-- Without a copy, the group is missing or the assignment is. -/
theorem error_of_assignmentCopy? {r : Registry} {group name : String} {e : HierarchyError}
    (h : assignmentCopy? r group name = .error e) :
    e = .managementGroupNotFound group ∨ e = .policyAssignmentNotFound group name := by
  unfold assignmentCopy? at h
  split at h
  · exact .inl (Except.error.inj h).symm
  · split at h
    · exact .inr (Except.error.inj h).symm
    · cases h

/-- The changed copy is a change of the copy that the group holds. -/
theorem changed_ensures {I : σ → Prop} {err : HierarchyError → Prop} {r : Registry}
    {group name : String} {c : AssignmentChange}
    (hcopy : ∀ e, assignmentCopy? r group name = .error e → err e)
    (hcheck : ∀ a, assignmentCopy? r group name = .ok a →
      Query.Ensures I (Query.checkDeclared src group name a c.parameters.keys)
        (fun _ => True) err) :
    Query.Ensures I (changed src r group name c)
      (fun a => ∃ a₀, assignmentCopy? r group name = .ok a₀ ∧ a = a₀.change c) err := by
  refine (Query.Ensures.ofExcept (fun _ h => h) hcopy).bind fun a₀ ha₀ => ?_
  split
  · exact (hcheck a₀ ha₀).bind_any fun _ => .pure ⟨a₀, ha₀, rfl⟩
  · exact .pure ⟨a₀, ha₀, rfl⟩

/-- A change of an assignment keeps the frame. -/
theorem modifyAssignment_frame (h : Hierarchy) (group name : String) (c : AssignmentChange)
    (s : σ) : (modifyAssignment src h group name c s).1.2.frame = h.frame := by
  rw [modifyAssignment_run]
  rcases hrun : (changed src h.groups group name c).run s with ⟨e | a, s'⟩
  · rfl
  · obtain ⟨⟨a₀, ha₀, rfl⟩, -⟩ :=
      (changed_ensures src (fun _ _ => trivial) fun _ _ => .any _).of_ok trivial hrun
    refine congrArg (Hierarchy.mk · _) (map_modify fun g hg => ?_)
    refine Group.frame_modifyAssignment fun a₁ ha₁ => ?_
    -- The new value is a change of the copy that is replaced.
    obtain rfl := Except.ok.inj (ha₀.symm.trans (assignmentCopy?_eq_ok.mpr ⟨g, hg, ha₁⟩))
    rfl

/-! ### One group more -/

/-- Every look-up after a group was linked. The group is under its id, its parent lists it as
a child, and nothing else changes. -/
theorem get?_link (r : Registry) (g : Group) (id : String) :
    (link r g).get? id =
      if id = g.id then some g
      else if g.parent = .group id then (r.get? id).map (noteChild g)
      else r.get? id := by
  unfold link
  cases g.parent with
  | external p => simp [OrderedMap.get?_insert]
  | group p =>
    simp only [OrderedMap.get?_insert, OrderedMap.get?_modify, Std.LawfulEqCmp.compare_eq_iff_eq,
      Parent.group.injEq, eq_comm (a := p)]

/-- Every look-up after a prepared group was settled. -/
theorem get?_settle (h : Hierarchy) (g : Group) (id : String) :
    (h.settle g).2.groups.get? id =
      if id = g.id then some (g.deploy (context (link h.groups g) h.uniqueRoles g.id)).1
      else (link h.groups g).get? id := by
  have hid : (g.deploy (context (link h.groups g) h.uniqueRoles g.id)).1.id = g.id :=
    congrArg Shape.id (g.shape_deploy _)
  unfold settle
  simp only [OrderedMap.get?_insert, Std.LawfulEqCmp.compare_eq_iff_eq, hid]

/-- A property of all groups is kept by one more group that has it once it is deployed, if
it does not depend on children. -/
theorem forall_settle {P : Group → Prop} {h : Hierarchy} {g : Group}
    (hold : ∀ id g₀, h.groups.get? id = some g₀ → P g₀) (hchild : ∀ g₀, P g₀ → P (noteChild g g₀))
    (hnew : P (g.deploy (context (link h.groups g) h.uniqueRoles g.id)).1) {id : String}
    {g' : Group} (hg' : (h.settle g).2.groups.get? id = some g') : P g' := by
  rw [get?_settle] at hg'
  split at hg'
  · cases hg'
    exact hnew
  · -- Any other group was there before, with one more child at most.
    rename_i hid
    rw [get?_link, if_neg hid] at hg'
    split at hg'
    · obtain ⟨g₀, hg₀, rfl⟩ := Option.map_eq_some_iff.mp hg'
      exact hchild g₀ (hold id g₀ hg₀)
    · exact hold id g' hg'

/-- Deploying a group that was linked keeps the shape of the registry. -/
theorem shape_settle (h : Hierarchy) (g : Group) :
    (h.settle g).2.groups.shape = (link h.groups g).shape := by
  refine OrderedMap.ext_get? fun id => ?_
  unfold Registry.shape
  rw [OrderedMap.get?_map, OrderedMap.get?_map, get?_settle, get?_link]
  by_cases hg : id = g.id
  · simp [hg, Group.shape_deploy]
  · simp [hg]

end Hierarchy

/-! ### Runs -/

/-- A call on a hierarchy. -/
inductive Call where
  | add (req : GroupRequest)
  | addArchitecture (name externalParent location : String)
  | derive
  | applyDefault (name : String) (v : Json)
  | modifyAssignment (group name : String) (c : AssignmentChange)

/-- The requests for the places of an architecture, each before those below it. -/
def Architecture.requests (a : Architecture) (externalParent location : String) :
    List GroupRequest :=
  (Hierarchy.placementsOf (.external externalParent) a.roots).map fun p =>
    Hierarchy.requestFor location p.1 p.2

/-- A hierarchy with the ids of the groups whose addition succeeded, the earliest first. -/
structure History where
  hierarchy : Hierarchy
  added : List String

namespace Hierarchy

/-- The ids of the places that `addAll` adds with success. -/
def addedAll (src : AssetSource σ) (location : String) :
    List (Position × Parent) → Hierarchy → σ → List String
  | [], _, _ => []
  | (p, parent) :: rest, h, s =>
    if src.stopped s then []
    else
      match add src h (requestFor location p parent) s with
      | ((.ok g, h'), s') => g.id :: addedAll src location rest h' s'
      | ((.error _, _), _) => []

/-- The ids of the groups that `addArchitecture` adds with success. -/
def addedArchitecture (src : AssetSource σ) (h : Hierarchy)
    (name externalParent location : String) (s : σ) : List String :=
  match (Query.require (.architectureNotFound name) (src.architecture name)).run s with
  | (.ok a, s') => addedAll src location (placementsOf (.external externalParent) a.roots) h s'
  | (.error _, _) => []

end Hierarchy

namespace Call

variable (src : AssetSource σ) (h : Hierarchy) (s : σ)

/-- The hierarchy after a call. -/
def after : Call → Hierarchy
  | .add req => (h.add src req s).1.2
  | .addArchitecture name externalParent location =>
    (h.addArchitecture src name externalParent location s).1.2
  | .derive => (h.derive src s).1.2
  | .applyDefault name v => (h.applyDefault src name v s).1.2
  | .modifyAssignment group name c => (h.modifyAssignment src group name c s).1.2

/-- The ids of the groups that a call adds with success. -/
def added : Call → List String
  | .add req =>
    match (h.add src req s).1.1 with
    | .ok g => [g.id]
    | .error _ => []
  | .addArchitecture name externalParent location =>
    h.addedArchitecture src name externalParent location s
  | _ => []

/-- The call can ask for this group: by itself, or for a place of an architecture that the
source answers. -/
def Requests (src : AssetSource σ) : Call → GroupRequest → Prop
  | .add req, r => r = req
  | .addArchitecture name externalParent location, r =>
    ∃ a, (src.architecture name).Answers a ∧ r ∈ a.requests externalParent location
  | _, _ => False

end Call

namespace History

/-- No group yet. -/
def start (uniqueRoles : Bool) : History := ⟨.empty uniqueRoles, []⟩

/-- The history after one more call. The state of the source is that at the start of the
call. -/
def step (src : AssetSource σ) (t : History) (c : σ × Call) : History :=
  ⟨c.2.after src t.hierarchy c.1, t.added ++ c.2.added src t.hierarchy c.1⟩

/-- The history of a list of calls on a hierarchy that starts without groups. -/
def after (src : AssetSource σ) (uniqueRoles : Bool) (calls : List (σ × Call)) : History :=
  calls.foldl (step src) (start uniqueRoles)

/-- A small run: a root that holds a definition, and a group below it that assigns it. -/
def holderAbove : List (Bool × Call) :=
  [(false, .add ⟨"root", "Root", .external "tenant", "westeurope", false, ["holder"]⟩),
   (false, .add ⟨"leaf", "Leaf", .group "root", "westeurope", false, ["user"]⟩)]

/-- A run of one call: a root with a set definition, its definition and its assignment. -/
def suiteRoot : List (Bool × Call) :=
  [(false, .add ⟨"root", "Root", .external "tenant", "westeurope", false, ["owner"]⟩)]

/-- The history after a prepared group was settled. -/
def settle (t : History) (g : Group) : History where
  hierarchy := (t.hierarchy.settle g).2
  added := t.added ++
    match (t.hierarchy.settle g).1 with
    | .ok g => [g.id]
    | .error _ => []

section

variable {src : AssetSource σ} {P : History → Prop}

/-- What every settled group preserves is preserved by an addition. -/
theorem invariant_add {req : GroupRequest}
    (settle : ∀ t level c, P t →
      Hierarchy.level? t.hierarchy.groups req.id req.parent = .ok level → c.Original src →
      P (t.settle (Hierarchy.newGroup req level c)))
    {t : History} (h : P t) (s : σ) : P (t.step src (s, .add req)) := by
  unfold step Call.after Call.added
  dsimp only
  obtain ⟨e, he⟩ | ⟨level, c, hlevel, hc, he⟩ := t.hierarchy.add_cases src req s
  · rw [he]
    simpa using h
  · rw [he]
    exact settle t level c h hlevel hc

/-- The places of an architecture are added one by one. -/
theorem invariant_addAll (architecture location : String) (places : List (Position × Parent))
    (add : ∀ p ∈ places, ∀ t s, P t →
      P (t.step src (s, .add (Hierarchy.requestFor location p.1 p.2))))
    {t : History} (h : P t) (s : σ) :
    P ⟨(Hierarchy.addAll src architecture location places t.hierarchy s).1.2,
      t.added ++ Hierarchy.addedAll src location places t.hierarchy s⟩ := by
  induction places generalizing t s with
  | nil =>
    rw [Hierarchy.addedAll, List.append_nil]
    exact h
  | cons place rest ih =>
    have hadd := add place (by simp) t s h
    have hrest := fun p hp => add p (List.mem_cons_of_mem _ hp)
    obtain ⟨p, parent⟩ := place
    -- Stopped before this place, or after its failure, the walk leaves what it has by then.
    unfold step Call.after Call.added at hadd
    rw [Hierarchy.addedAll, Hierarchy.addAll_cons_run]
    rcases hrun : t.hierarchy.add src (Hierarchy.requestFor location p parent) s with
      ⟨⟨e | g, h'⟩, s'⟩ <;> simp only [hrun] at hadd ⊢
    · rw [List.append_nil] at hadd
      split
      · simpa using h
      · simpa using hadd
    · split
      · simpa using h
      · simpa using ih hrest hadd s'

/-- What holds of the hierarchy without groups, and is kept by each prepared group that a call
requests and that fits the tree, and by each edit, holds after every run. -/
theorem invariant_requested {uniqueRoles : Bool} {calls : List (σ × Call)}
    (start : P (start uniqueRoles))
    (settle : ∀ t req level c, (∃ call ∈ calls, call.2.Requests src req) → P t →
      Hierarchy.level? t.hierarchy.groups req.id req.parent = .ok level → c.Original src →
      P (t.settle (Hierarchy.newGroup req level c)))
    (edit : ∀ t h, P t → h.frame = t.hierarchy.frame → P { t with hierarchy := h }) :
    P (after src uniqueRoles calls) := by
  -- One case for each call; a look-up of an architecture may fail before any addition.
  have hstep : ∀ c ∈ calls, ∀ t, P t → P (step src t c) := by
    rintro ⟨s, call⟩ hcall t h
    have hadd : ∀ req, call.Requests src req → ∀ t s, P t → P (t.step src (s, .add req)) :=
      fun req hreq t s h =>
        invariant_add (fun t level c => settle t req level c ⟨_, hcall, hreq⟩) h s
    cases call with
    | add req => exact hadd req rfl t s h
    | addArchitecture name externalParent location =>
      unfold step Call.after Call.added Hierarchy.addedArchitecture
      dsimp only
      rw [Hierarchy.addArchitecture_run, Query.require_run]
      rcases hfound : src.architecture name s with ⟨e | _ | a, s'⟩
      · simpa using h
      · simpa using h
      · refine invariant_addAll name location _
          (fun p hp => hadd _ ⟨a, ⟨s, by rw [hfound]⟩, ?_⟩) h s'
        exact List.mem_map_of_mem (f := fun p => Hierarchy.requestFor location p.1 p.2) hp
    | derive =>
      simpa [step, Call.after, Call.added] using edit t _ h (t.hierarchy.derive_frame src s)
    | applyDefault name v =>
      simpa [step, Call.after, Call.added] using
        edit t _ h (t.hierarchy.applyDefault_frame src name v s)
    | modifyAssignment group name c =>
      simpa [step, Call.after, Call.added] using
        edit t _ h (t.hierarchy.modifyAssignment_frame src group name c s)
  clear settle
  unfold after
  generalize History.start uniqueRoles = t at start
  induction calls generalizing t with
  | nil => exact start
  | cons c rest ih =>
    exact ih (fun c' hc' => hstep c' (List.mem_cons_of_mem _ hc')) _ (hstep c (by simp) t start)

/-- What is kept by each prepared group that fits the tree, whatever it was requested by, and
by each edit, holds after every run. -/
theorem invariant {uniqueRoles : Bool} (start : P (start uniqueRoles))
    (settle : ∀ t req level c, P t →
      Hierarchy.level? t.hierarchy.groups req.id req.parent = .ok level → c.Original src →
      P (t.settle (Hierarchy.newGroup req level c)))
    (edit : ∀ t h, P t → h.frame = t.hierarchy.frame → P { t with hierarchy := h })
    (calls : List (σ × Call)) : P (after src uniqueRoles calls) :=
  invariant_requested start (fun t req level c _ => settle t req level c) edit

end

end History

end Governance
