import Governance.Order.Map

/-!
# Sets in order

A finite set is kept as the strictly ascending list of its members, so equal sets are equal values
and a walk over a set follows the order of its members.

* `contains_empty`, `contains_insert` say what each operation does to membership.
-/

set_option autoImplicit false

namespace Governance

/-- A finite set of `κ`, listed in strictly ascending order. -/
structure OrderedSet (κ : Type) [Ord κ] where
  toList : List κ
  ascending : toList.Pairwise fun a b => compare a b = .lt
  deriving DecidableEq

namespace OrderedSet

variable {κ : Type} [Ord κ]

/-- The set without members. -/
def empty : OrderedSet κ := ⟨[], .nil⟩

instance : EmptyCollection (OrderedSet κ) := ⟨empty⟩

instance : Inhabited (OrderedSet κ) := ⟨empty⟩

/-- The number of members. -/
def size (s : OrderedSet κ) : Nat := s.toList.length

/-- Whether `k` is a member. -/
def contains (s : OrderedSet κ) (k : κ) : Bool := s.toList.any fun k' => compare k k' = .eq

/-- Puts a member into its place among ascending ones. -/
def place (k : κ) : List κ → List κ
  | [] => [k]
  | k' :: rest =>
    match compare k k' with
    | .lt => k :: k' :: rest
    | .eq => k' :: rest
    | .gt => k' :: place k rest

/-- Placing brings in no other member than the one that is placed. -/
theorem mem_place {k e : κ} {l : List κ} : e ∈ place k l → e = k ∨ e ∈ l := by
  induction l with
  | nil => simp [place]
  | cons hd tl ih =>
    rw [place]
    split <;> grind

/-- Placing keeps members ascending. -/
theorem pairwise_place [Std.TransOrd κ] (k : κ) {l : List κ}
    (h : l.Pairwise fun a b => compare a b = .lt) :
    (place k l).Pairwise fun a b => compare a b = .lt := by
  induction l with
  | nil => simp [place]
  | cons hd tl ih =>
    obtain ⟨hhd, htl⟩ := List.pairwise_cons.mp h
    rw [place]
    split
    next hlt =>
      -- The new member comes to the front, before a head that is above it.
      refine List.pairwise_cons.mpr ⟨fun e he => ?_, h⟩
      rcases List.mem_cons.mp he with rfl | he
      · exact hlt
      · exact Std.TransCmp.lt_trans hlt (hhd e he)
    next => exact h
    next hgt =>
      -- The head stays in front: the new member, which is somewhere behind it, is above it.
      refine List.pairwise_cons.mpr ⟨fun e he => ?_, ih htl⟩
      rcases mem_place he with rfl | he
      · exact Std.OrientedCmp.lt_of_gt hgt
      · exact hhd e he

/-- The set with `k` as a member. -/
def insert [Std.TransOrd κ] (s : OrderedSet κ) (k : κ) : OrderedSet κ :=
  ⟨place k s.toList, pairwise_place k s.ascending⟩

/-- The set of the members of a list. -/
def ofList [Std.TransOrd κ] (l : List κ) : OrderedSet κ := l.foldl insert empty

/-- The members of either set. -/
def union [Std.TransOrd κ] (s t : OrderedSet κ) : OrderedSet κ := t.toList.foldl insert s

/-- The members of the first set that the second lacks. -/
def diff (s t : OrderedSet κ) : OrderedSet κ :=
  ⟨s.toList.filter fun k => !t.contains k, s.ascending.filter _⟩

/-- The set of the keys of a map. -/
def ofKeys {α : Type} (m : OrderedMap κ α) : OrderedSet κ :=
  ⟨m.keys, List.pairwise_map.mpr m.ascending⟩

/-! ### Membership after each operation -/

/-- The empty set has no member. -/
@[simp] theorem contains_empty (k : κ) : (empty : OrderedSet κ).contains k = false := rfl

/-- After placing, the placed member is found, and what was found before. -/
theorem any_place [Std.TransOrd κ] [Std.LawfulEqOrd κ] (k k' : κ) (l : List κ) :
    ((place k l).any fun e => compare k' e = .eq) =
      (decide (compare k' k = .eq) || l.any fun e => compare k' e = .eq) := by
  induction l with
  | nil => simp [place]
  | cons hd tl ih =>
    rw [place]
    split
    next => rfl
    next heq =>
      -- The member is there already, and being found twice is being found.
      obtain rfl := Std.LawfulEqCmp.eq_of_compare heq
      simp
    next => simp [ih, Bool.or_left_comm]

/-- After an insertion the set has the new member and those that it had. -/
theorem contains_insert [Std.TransOrd κ] [Std.LawfulEqOrd κ] (s : OrderedSet κ) (k k' : κ) :
    (s.insert k).contains k' = (decide (compare k' k = .eq) || s.contains k') :=
  any_place k k' s.toList

/-- The members are what the list of the set holds. -/
theorem contains_iff_mem [Std.TransOrd κ] [Std.LawfulEqOrd κ] {s : OrderedSet κ} {k : κ} :
    s.contains k = true ↔ k ∈ s.toList := by
  simp [contains]

end OrderedSet

end Governance
