import Governance.Proofs.Hierarchy.History

/-!
# `Governance.Proofs.Hierarchy.Stopping`: where the addition of an architecture stops

An architecture is added by a walk over its trees. At each place the walk looks for the signal
to stop, adds the place, and goes on with the trees below it (`addTree`, `addTrees`). It
leaves the trees at the first signal and at the first failure.

The walk is compared with plain additions. `addEach` adds one request after another and lists
what each came to. It looks for no signal and stops at no failure. `StopsAt` says of an outcome
that it is that of the first `k` additions: the hierarchy and the source are as these leave
them, there was no signal before any of them, and `Ending` tells why there is no further one.

* `addTrees_eq_addAll`: the walk over trees is the walk over the list of their places, each
  before those below it.
* `addArchitecture_stopsAt`: for every architecture, every hierarchy and every source, there is
  such a `k`. The addition succeeds just when each of the plain additions does and there is no
  signal before any of them. A signal during the last one comes too late.
-/

set_option autoImplicit false

namespace Governance.Hierarchy

variable {σ : Type}

/-! ### The walk over trees -/

mutual

/-- Adds the place of a tree, and then the trees below it. -/
def addTree (src : AssetSource σ) (architecture location : String) (parent : Parent) :
    ArchitectureTree → Hierarchy → StateM σ (Except HierarchyError Unit × Hierarchy)
  | .node p children, h => do
    if src.stopped (← get) then return (.error .cancelled, h)
    else
      let (result, h) ← add src h (requestFor location p parent)
      match result with
      | .ok _ => addTrees src architecture location (.group p.id) children h
      | .error e => return (.error (.architecture architecture p.id e), h)

/-- Adds one tree after another until one of them is not added whole. -/
def addTrees (src : AssetSource σ) (architecture location : String) (parent : Parent) :
    List ArchitectureTree → Hierarchy → StateM σ (Except HierarchyError Unit × Hierarchy)
  | [], h => pure (.ok (), h)
  | t :: rest, h => do
    let (result, h) ← addTree src architecture location parent t h
    match result with
    | .ok _ => addTrees src architecture location parent rest h
    | .error e => return (.error e, h)

end

/-- Places in two parts are added part by part. -/
theorem addAll_append_run (src : AssetSource σ) (architecture location : String)
    (l l' : List (Position × Parent)) (h : Hierarchy) (s : σ) :
    addAll src architecture location (l ++ l') h s =
      match addAll src architecture location l h s with
      | ((.ok _, h'), s') => addAll src architecture location l' h' s'
      | ((.error e, h'), s') => ((.error e, h'), s') := by
  -- A failure among the first places ends the walk, and else it goes on to the others.
  induction l generalizing h s with
  | nil => rfl
  | cons place rest ih =>
    obtain ⟨p, parent⟩ := place
    rw [List.cons_append, addAll_cons_run, addAll_cons_run]
    split
    · rfl
    · rcases add src h (requestFor location p parent) s with ⟨⟨e | g, h'⟩, s'⟩
      · rfl
      · exact ih h' s'

/-- The place of a tree is added first, and then what is below it. -/
theorem addTree_node_run (src : AssetSource σ) (architecture location : String) (parent : Parent)
    (p : Position) (children : List ArchitectureTree) (h : Hierarchy) (s : σ) :
    addTree src architecture location parent (.node p children) h s =
      if src.stopped s then ((.error .cancelled, h), s)
      else match add src h (requestFor location p parent) s with
        | ((.ok _, h'), s') => addTrees src architecture location (.group p.id) children h' s'
        | ((.error e, h'), s') => ((.error (.architecture architecture p.id e), h'), s') := by
  have hget : (get : StateM σ σ) s = (s, s) := rfl
  simp only [addTree, bind, StateT.bind, hget]
  -- The signal is read before the place is added.
  cases src.stopped s with
  | true => rfl
  | false =>
    simp only [Bool.false_eq_true, if_false]
    unfold StateT.bind
    rcases add src h (requestFor location p parent) s with ⟨⟨e | g, h'⟩, s'⟩ <;> rfl

/-- The first tree is added, and then the others. -/
theorem addTrees_cons_run (src : AssetSource σ) (architecture location : String) (parent : Parent)
    (t : ArchitectureTree) (rest : List ArchitectureTree) (h : Hierarchy) (s : σ) :
    addTrees src architecture location parent (t :: rest) h s =
      match addTree src architecture location parent t h s with
      | ((.ok _, h'), s') => addTrees src architecture location parent rest h' s'
      | ((.error e, h'), s') => ((.error e, h'), s') := by
  simp only [addTrees, bind, StateT.bind]
  rcases addTree src architecture location parent t h s with ⟨⟨e | g, h'⟩, s'⟩ <;> rfl

mutual

/-- The walk over a tree is the walk over the list of its places. -/
theorem addTree_eq_addAll (src : AssetSource σ) (architecture location : String)
    (parent : Parent) (t : ArchitectureTree) (h : Hierarchy) (s : σ) :
    addTree src architecture location parent t h s =
      addAll src architecture location (placements parent t) h s := by
  match t with
  | .node p children =>
    rw [addTree_node_run, placements, addAll_cons_run]
    split
    · rfl
    · rcases add src h (requestFor location p parent) s with ⟨⟨e | g, h'⟩, s'⟩
      · rfl
      · exact addTrees_eq_addAll src architecture location (.group p.id) children h' s'

/-- The walk over trees is the walk over the list of their places. -/
theorem addTrees_eq_addAll (src : AssetSource σ) (architecture location : String)
    (parent : Parent) (ts : List ArchitectureTree) (h : Hierarchy) (s : σ) :
    addTrees src architecture location parent ts h s =
      addAll src architecture location (placementsOf parent ts) h s := by
  match ts with
  | [] => rfl
  | t :: rest =>
    rw [addTrees_cons_run, placementsOf, addAll_append_run,
      addTree_eq_addAll src architecture location parent t h s]
    rcases addAll src architecture location (placements parent t) h s with ⟨⟨e | _, h'⟩, s'⟩
    · rfl
    · exact addTrees_eq_addAll src architecture location parent rest h' s'

end

mutual

/-- The places of a tree, without what each hangs below. -/
theorem fst_placements (parent : Parent) (t : ArchitectureTree) :
    (placements parent t).map Prod.fst = t.positions := by
  match t with
  | .node p children =>
    rw [placements, List.map_cons, fst_placementsOf (.group p.id) children,
      ArchitectureTree.positions]

/-- The places of trees, without what each hangs below. -/
theorem fst_placementsOf (parent : Parent) (ts : List ArchitectureTree) :
    (placementsOf parent ts).map Prod.fst = ArchitectureTree.positionsOf ts := by
  match ts with
  | [] => rfl
  | t :: rest =>
    rw [placementsOf, List.map_append, fst_placements parent t, fst_placementsOf parent rest,
      ArchitectureTree.positionsOf]

end

/-! ### Plain additions -/

/-- Adds one request after another, whatever each of them comes to. -/
def addEach (src : AssetSource σ) :
    List GroupRequest → Hierarchy → StateM σ (List (Except HierarchyError Group) × Hierarchy)
  | [], h => pure ([], h)
  | req :: rest, h => do
    let (result, h) ← add src h req
    let (results, h) ← addEach src rest h
    return (result :: results, h)

/-- Without requests, nothing is added. -/
theorem addEach_nil_run (src : AssetSource σ) (h : Hierarchy) (s : σ) :
    addEach src [] h s = (([], h), s) :=
  rfl

/-- The first request is added, and then the others, whatever became of it. -/
theorem addEach_cons_run (src : AssetSource σ) (req : GroupRequest) (rest : List GroupRequest)
    (h : Hierarchy) (s : σ) :
    addEach src (req :: rest) h s =
      (((add src h req s).1.1 :: (addEach src rest (add src h req s).1.2 (add src h req s).2).1.1,
        (addEach src rest (add src h req s).1.2 (add src h req s).2).1.2),
       (addEach src rest (add src h req s).1.2 (add src h req s).2).2) :=
  rfl

/-- The first results are those of the first requests. -/
theorem results_take (src : AssetSource σ) (reqs : List GroupRequest) (k : Nat) (h : Hierarchy)
    (s : σ) :
    (addEach src (reqs.take k) h s).1.1 = (addEach src reqs h s).1.1.take k := by
  induction reqs generalizing k h s with
  | nil => rw [List.take_nil, List.take_of_length_le (Nat.zero_le k)]
  | cons req rest ih =>
    cases k with
    | zero => rfl
    | succ k =>
      rw [List.take_succ_cons, addEach_cons_run, addEach_cons_run, List.take_succ_cons, ih]

/-! ### Where the walk stops -/

/-- Why a walk over requests is over after `k` additions with these results, in the state `s`
of the source, and with what outcome.

- `done`: there are no more requests, and all additions succeeded;
- `cancelled`: there are more, all additions succeeded, and there is the signal to stop;
- `failed`: the last addition failed, and all before it succeeded. -/
inductive Ending (src : AssetSource σ) (architecture : String) (reqs : List GroupRequest) (s : σ) :
    Nat → List (Except HierarchyError Group) → Except HierarchyError Unit → Prop where
  | done {results : List (Except HierarchyError Group)}
      (hall : ∀ result ∈ results, result.isOk = true) :
      Ending src architecture reqs s reqs.length results (.ok ())
  | cancelled {k : Nat} {results : List (Except HierarchyError Group)} (hk : k < reqs.length)
      (hall : ∀ result ∈ results, result.isOk = true) (hstop : src.stopped s = true) :
      Ending src architecture reqs s k results (.error .cancelled)
  | failed {k : Nat} {req : GroupRequest} {e : HierarchyError}
      {earlier : List (Except HierarchyError Group)} (hreq : reqs[k]? = some req)
      (hall : ∀ result ∈ earlier, result.isOk = true) :
      Ending src architecture reqs s (k + 1) (earlier ++ [.error e])
        (.error (.architecture architecture req.id e))

/-- The outcome `x` of a walk over requests is that of the first `k` additions.

- `le`: there are so many of them;
- `unfired`: there was no signal to stop before any of the `k`;
- `hierarchy`, `state`: hierarchy and source are as the `k` additions leave them;
- `ending`: there is a reason to go no further. -/
structure StopsAt (src : AssetSource σ) (architecture : String) (reqs : List GroupRequest)
    (h : Hierarchy) (s : σ) (k : Nat) (x : (Except HierarchyError Unit × Hierarchy) × σ) :
    Prop where
  le : k ≤ reqs.length
  unfired : ∀ j < k, src.stopped (addEach src (reqs.take j) h s).2 = false
  hierarchy : x.1.2 = (addEach src (reqs.take k) h s).1.2
  state : x.2 = (addEach src (reqs.take k) h s).2
  ending : Ending src architecture reqs x.2 k (addEach src (reqs.take k) h s).1.1 x.1.1

variable {src : AssetSource σ} {architecture : String} {reqs : List GroupRequest}

/-- One more request before those of a walk, which is added with success. -/
theorem Ending.cons {s : σ} {k : Nat} {results : List (Except HierarchyError Group)}
    {outcome : Except HierarchyError Unit} (hend : Ending src architecture reqs s k results outcome)
    (req : GroupRequest) (g : Group) :
    Ending src architecture (req :: reqs) s (k + 1) (.ok g :: results) outcome := by
  have hcons : ∀ {l : List (Except HierarchyError Group)}, (∀ result ∈ l, result.isOk = true) →
      ∀ result ∈ .ok g :: l, result.isOk = true := fun hall => List.forall_mem_cons.mpr ⟨rfl, hall⟩
  cases hend with
  | done hall => exact .done (hcons hall)
  | cancelled hk hall hstop => exact .cancelled (Nat.succ_lt_succ hk) (hcons hall) hstop
  | failed hreq hall =>
    rw [← List.cons_append]
    exact .failed hreq (hcons hall)

/-- A walk after one more request, which is added with success, stops one request later. -/
theorem StopsAt.cons {h h' : Hierarchy} {s s' : σ} {k : Nat}
    {x : (Except HierarchyError Unit × Hierarchy) × σ} {req : GroupRequest} {g : Group}
    (hrest : StopsAt src architecture reqs h' s' k x) (hunfired : src.stopped s = false)
    (hadd : add src h req s = ((.ok g, h'), s')) :
    StopsAt src architecture (req :: reqs) h s (k + 1) x := by
  have heach : ∀ j, addEach src ((req :: reqs).take (j + 1)) h s =
      (((.ok g :: (addEach src (reqs.take j) h' s').1.1, (addEach src (reqs.take j) h' s').1.2)),
        (addEach src (reqs.take j) h' s').2) := by
    intro j
    rw [List.take_succ_cons, addEach_cons_run, hadd]
  -- Its first `j + 1` additions are this one and the first `j` of the others.
  refine ⟨Nat.succ_le_succ hrest.le, fun j hj => ?_, ?_, ?_, ?_⟩
  · cases j with
    | zero => exact hunfired
    | succ j =>
      rw [heach]
      exact hrest.unfired j (Nat.lt_of_succ_lt_succ hj)
  · rw [heach]
    exact hrest.hierarchy
  · rw [heach]
    exact hrest.state
  · rw [heach]
    exact hrest.ending.cons req g

/-- The walk over places stops after some of the additions. -/
theorem addAll_stopsAt (src : AssetSource σ) (architecture location : String)
    (places : List (Position × Parent)) (h : Hierarchy) (s : σ) :
    ∃ k, StopsAt src architecture (places.map fun p => requestFor location p.1 p.2) h s k
      (addAll src architecture location places h s) := by
  induction places generalizing h s with
  | nil => exact ⟨0, Nat.le_refl 0, by simp, rfl, rfl, .done (by simp [addEach_nil_run])⟩
  | cons place rest ih =>
    obtain ⟨p, parent⟩ := place
    rw [addAll_cons_run, List.map_cons]
    cases hstop : src.stopped s with
    | true =>
      -- There is no addition, and this place is still to come.
      exact ⟨0, Nat.zero_le _, by simp, rfl, rfl,
        .cancelled (by simp) (by simp [addEach_nil_run]) hstop⟩
    | false =>
      rcases hadd : add src h (requestFor location p parent) s with ⟨⟨e | g, h'⟩, s'⟩
      · -- The only addition is the one that fails.
        have heach : ∀ reqs : List GroupRequest,
            addEach src ((requestFor location p parent :: reqs).take 1) h s =
              (([.error e], h'), s') := by
          intro reqs
          rw [List.take_succ_cons, List.take_zero, addEach_cons_run, hadd]
          rfl
        refine ⟨1, by simp, fun j hj => ?_, ?_, ?_, ?_⟩
        · obtain rfl := Nat.lt_one_iff.mp hj
          exact hstop
        · rw [heach]
          rfl
        · rw [heach]
          rfl
        · rw [heach]
          show Ending src architecture _ s' (0 + 1) ([] ++ [.error e]) _
          exact .failed List.getElem?_cons_zero (by simp)
      · obtain ⟨k, hk⟩ := ih h' s'
        exact ⟨k + 1, hk.cons hstop hadd⟩

/-- A walk succeeds when all additions do and there is no signal before any of them. -/
theorem StopsAt.ok_iff {h : Hierarchy} {s : σ} {k : Nat}
    {x : (Except HierarchyError Unit × Hierarchy) × σ}
    (hstops : StopsAt src architecture reqs h s k x) :
    x.1.1 = .ok () ↔
      (∀ j < reqs.length, src.stopped (addEach src (reqs.take j) h s).2 = false) ∧
        ∀ result ∈ (addEach src reqs h s).1.1, result.isOk = true := by
  obtain ⟨⟨outcome, h'⟩, s'⟩ := x
  obtain ⟨hle, hunfired, -, hstate, hend⟩ := hstops
  dsimp only at hstate hend ⊢
  generalize hresults : (addEach src (reqs.take k) h s).1.1 = results at hend
  constructor
  · rintro rfl
    cases hend with
    | done hall =>
      rw [List.take_length] at hresults
      exact ⟨hunfired, hresults ▸ hall⟩
  · rintro ⟨hquiet, hall⟩
    cases hend with
    | done => rfl
    | cancelled hk _ hstop =>
      rw [hstate, hquiet _ hk] at hstop
      cases hstop
    | @failed j req e earlier hreq _ =>
      -- The failure of the last addition is among the results of all.
      rw [results_take] at hresults
      have hmem : .error e ∈ (addEach src reqs h s).1.1 :=
        List.mem_of_mem_take (hresults ▸ List.mem_append_right earlier (List.mem_singleton_self _))
      cases hall _ hmem

/-! ### Architectures -/

/-- There is one request for each position, in the same order. -/
theorem forall₂_requests (a : Architecture) (place location : String) :
    List.Forall₂ (fun req p => ∃ parent, req = requestFor location p parent)
      (a.requests place location) a.positions := by
  rw [Architecture.positions, ← fst_placementsOf (.external place) a.roots, Architecture.requests,
    List.forall₂_map_left_iff, List.forall₂_map_right_iff, List.forall₂_same]
  exact fun p _ => ⟨p.2, rfl⟩

/-- When the architecture is found, its addition is that of the first `k` of its positions, one
after another. It succeeds just when all positions can be added so and there is no signal to
stop before any of them. When the architecture is not found, nothing is added. -/
theorem addArchitecture_stopsAt (src : AssetSource σ) (h : Hierarchy)
    (name place location : String) (s : σ) :
    let x := addArchitecture src h name place location s
    match src.architecture name s with
    | (.error e, s') => x = ((.error (.catalog e), h), s')
    | (.ok none, s') => x = ((.error (.architectureNotFound name), h), s')
    | (.ok (some a), s') =>
      let reqs := a.requests place location
      List.Forall₂ (fun req p => ∃ parent, req = requestFor location p parent) reqs a.positions ∧
      x = addTrees src name location (.external place) a.roots h s' ∧
      (∃ k, StopsAt src name reqs h s' k x) ∧
      (x.1.1 = .ok () ↔
        (∀ j < reqs.length, src.stopped (addEach src (reqs.take j) h s').2 = false) ∧
          ∀ result ∈ (addEach src reqs h s').1.1, result.isOk = true) := by
  intro x
  have hx : x = _ := addArchitecture_run src h name place location s
  rw [Query.require_run] at hx
  rcases hfound : src.architecture name s with ⟨e | _ | a, s'⟩ <;> rw [hfound] at hx
  · exact hx
  · exact hx
  -- The architecture is found, so the walk is that over the list of its places.
  · obtain ⟨k, hk⟩ := addAll_stopsAt src name location (placementsOf (.external place) a.roots) h s'
    have hwalk : addAll src name location (placementsOf (.external place) a.roots) h s' = x :=
      hx.symm
    rw [hwalk] at hk
    exact ⟨forall₂_requests a place location,
      hx.trans (addTrees_eq_addAll src name location (.external place) a.roots h s').symm,
      ⟨k, hk⟩, hk.ok_iff⟩

/-! The look-up of an archetype is the signal to stop. The first place asks for `holder`, and it
is added whole. The last one asks for `user`, and there is no place behind it. -/

example :
    let x := addArchitecture (Sample.lineCatalog.watchedSource ⟨[], ["archetype/holder"]⟩)
      (.empty false) "line" "tenant" "westeurope" false
    (x.1.1.isOk, x.1.2.groups.keys) = (false, ["root"]) := by
  decide +kernel

example :
    let x := addArchitecture (Sample.lineCatalog.watchedSource ⟨[], ["archetype/user"]⟩)
      (.empty false) "line" "tenant" "westeurope" false
    (x.1.1.isOk, x.1.2.groups.keys, x.2) = (true, ["leaf", "middle", "root"], true) := by
  decide +kernel

end Governance.Hierarchy
