/-!
# Maps in key order

A finite map is kept as the list of its entries, strictly ascending by key. Two maps with the
same entries are therefore the same value, and a walk over a map meets the keys in their order,
which is the order that reports, exports and error messages show.

* `get?_empty`, `get?_insert`, `get?_map` say what each operation does to look-ups.
* `get?_eq_some_iff`: a look-up finds the entries and nothing else.
-/

set_option autoImplicit false

namespace Governance

/-- A finite map from `κ` to `α` whose entries ascend strictly by key. -/
structure OrderedMap (κ : Type) [Ord κ] (α : Type) where
  entries : List (κ × α)
  ascending : entries.Pairwise fun a b => compare a.1 b.1 = .lt
  deriving DecidableEq

namespace OrderedMap

variable {κ α β : Type} [Ord κ]

/-- The map without entries. -/
def empty : OrderedMap κ α := ⟨[], .nil⟩

instance : EmptyCollection (OrderedMap κ α) := ⟨empty⟩

instance : Inhabited (OrderedMap κ α) := ⟨empty⟩

/-- The keys in ascending order. -/
def keys (m : OrderedMap κ α) : List κ := m.entries.map Prod.fst

/-- The values in the order of their keys. -/
def values (m : OrderedMap κ α) : List α := m.entries.map Prod.snd

/-- The number of entries. -/
def size (m : OrderedMap κ α) : Nat := m.entries.length

/-- True of the map without entries. -/
def isEmpty (m : OrderedMap κ α) : Bool := m.entries.isEmpty

/-- The value stored under `k` in a list of entries. -/
def find (k : κ) : List (κ × α) → Option α
  | [] => none
  | (k', v) :: rest => if compare k k' = .eq then some v else find k rest

/-- The value stored under `k`. -/
def get? (m : OrderedMap κ α) (k : κ) : Option α := find k m.entries

/-- Whether `k` is a key. -/
def contains (m : OrderedMap κ α) (k : κ) : Bool := (m.get? k).isSome

/-- Puts an entry into its place among ascending entries, over an entry of the same key. -/
def place (k : κ) (v : α) : List (κ × α) → List (κ × α)
  | [] => [(k, v)]
  | (k', v') :: rest =>
    match compare k k' with
    | .lt => (k, v) :: (k', v') :: rest
    | .eq => (k, v) :: rest
    | .gt => (k', v') :: place k v rest

/-- Placing brings in no other entry than the one that is placed. -/
theorem mem_place {k : κ} {v : α} {l : List (κ × α)} {e : κ × α} :
    e ∈ place k v l → e = (k, v) ∨ e ∈ l := by
  induction l with
  | nil => simp [place]
  | cons hd tl ih =>
    obtain ⟨k', v'⟩ := hd
    rw [place]
    split <;> grind

/-- Placing keeps entries ascending. -/
theorem pairwise_place [Std.TransOrd κ] [Std.LawfulEqOrd κ] (k : κ) (v : α) {l : List (κ × α)}
    (h : l.Pairwise fun a b => compare a.1 b.1 = .lt) :
    (place k v l).Pairwise fun a b => compare a.1 b.1 = .lt := by
  induction l with
  | nil => simp [place]
  | cons hd tl ih =>
    obtain ⟨k', v'⟩ := hd
    obtain ⟨hhd, htl⟩ := List.pairwise_cons.mp h
    rw [place]
    split
    next hlt =>
      -- The new entry comes to the front, before a head that is above it.
      refine List.pairwise_cons.mpr ⟨fun e he => ?_, h⟩
      rcases List.mem_cons.mp he with rfl | he
      · exact hlt
      · exact Std.TransCmp.lt_trans hlt (hhd e he)
    next heq =>
      -- The new entry takes the place of the head, and their keys are equal.
      obtain rfl := Std.LawfulEqCmp.eq_of_compare heq
      exact List.pairwise_cons.mpr ⟨hhd, htl⟩
    next hgt =>
      -- The head stays in front: the new entry, which is somewhere behind it, is above it.
      refine List.pairwise_cons.mpr ⟨fun e he => ?_, ih htl⟩
      rcases mem_place he with rfl | he
      · exact Std.OrientedCmp.lt_of_gt hgt
      · exact hhd e he

/-- Looking up after placing. -/
theorem find_place [Std.TransOrd κ] [Std.LawfulEqOrd κ] (k k' : κ) (v : α) (l : List (κ × α)) :
    find k' (place k v l) = if compare k' k = .eq then some v else find k' l := by
  induction l with
  | nil => simp [place, find]
  | cons hd tl ih =>
    obtain ⟨k'', v''⟩ := hd
    rw [place]
    split
    next => simp [find]
    next heq =>
      obtain rfl := Std.LawfulEqCmp.eq_of_compare heq
      by_cases h : compare k' k = .eq <;> simp [find, h]
    next hgt =>
      -- The entry of the head is looked up before the new one, and their keys differ.
      by_cases h : compare k' k'' = .eq
      · obtain rfl := Std.LawfulEqCmp.eq_of_compare h
        have hne : ¬ compare k' k = .eq := by
          intro he
          obtain rfl := Std.LawfulEqCmp.eq_of_compare he
          simp at hgt
        simp [find, hne]
      · by_cases h' : compare k' k = .eq <;> simp [find, h, ih, h']

/-- The map with `v` stored under `k`, in place of what was there. -/
def insert [Std.TransOrd κ] [Std.LawfulEqOrd κ] (m : OrderedMap κ α) (k : κ) (v : α) :
    OrderedMap κ α :=
  ⟨place k v m.entries, pairwise_place k v m.ascending⟩

/-- Stores a list of pairs from the left, so the last of several values of one key stays. -/
def ofList [Std.TransOrd κ] [Std.LawfulEqOrd κ] (l : List (κ × α)) : OrderedMap κ α :=
  l.foldl (fun m e => m.insert e.1 e.2) empty

/-- Lays the entries of the second map over the first. -/
def override [Std.TransOrd κ] [Std.LawfulEqOrd κ] (m n : OrderedMap κ α) : OrderedMap κ α :=
  n.entries.foldl (fun m e => m.insert e.1 e.2) m

/-- Stores `v` under `k` unless something is stored there. -/
def insertNew [Std.TransOrd κ] [Std.LawfulEqOrd κ] (m : OrderedMap κ α) (k : κ) (v : α) :
    OrderedMap κ α :=
  if m.contains k then m else m.insert k v

/-- Applies `f` to every value; the keys stay. -/
def map (m : OrderedMap κ α) (f : κ → α → β) : OrderedMap κ β :=
  ⟨m.entries.map fun e => (e.1, f e.1 e.2), List.pairwise_map.mpr m.ascending⟩

/-- Keeps the entries whose value `f` maps to `some`. -/
def filterMap (m : OrderedMap κ α) (f : κ → α → Option β) : OrderedMap κ β :=
  ⟨m.entries.filterMap fun e => (f e.1 e.2).map (e.1, ·), by
    refine List.pairwise_filterMap.mpr (m.ascending.imp fun {a b} hab c hc d hd => ?_)
    cases hfa : f a.1 a.2 <;> cases hfb : f b.1 b.2 <;> simp_all
    obtain rfl := hc
    obtain rfl := hd
    exact hab⟩

/-- Applies `f` to the value under `k`, if there is one. -/
def modify (m : OrderedMap κ α) (k : κ) (f : α → α) : OrderedMap κ α :=
  m.map fun k' v => if compare k k' = .eq then f v else v

/-! ### Changing values until a change fails -/

/-- Changes items from the left until a change reports a failure; what it made of that item stays,
and the items after it are as before. -/
def changeUntil {ε : Type} (f : α → α × Option ε) : List α → List α × Option ε
  | [] => ([], none)
  | a :: rest =>
    match f a with
    | (a', some e) => (a' :: rest, some e)
    | (a', none) =>
      let (rest', e) := changeUntil f rest
      (a' :: rest', e)

/-- Changes the value of an entry. -/
def changeEntry {ε : Type} (f : κ → α → α × Option ε) (e : κ × α) : (κ × α) × Option ε :=
  let (v, failure) := f e.1 e.2
  ((e.1, v), failure)

omit [Ord κ] in
/-- The keys stay. -/
theorem keys_changeUntil {ε : Type} (f : κ → α → α × Option ε) (l : List (κ × α)) :
    (changeUntil (changeEntry f) l).1.map Prod.fst = l.map Prod.fst := by
  induction l with
  | nil => rfl
  | cons e rest ih =>
    rw [changeUntil]
    split
    next a' _ h =>
      -- A failure changes the value of its own entry at most.
      simp only [changeEntry, Prod.mk.injEq] at h
      simp [← h.1]
    next a' h =>
      simp only [changeEntry, Prod.mk.injEq] at h
      simp [← h.1, ih]

/-- Changes the values in key order until a change reports a failure. -/
def mapUntil {ε : Type} (m : OrderedMap κ α) (f : κ → α → α × Option ε) :
    OrderedMap κ α × Option ε :=
  (⟨(changeUntil (changeEntry f) m.entries).1, by
      have h : (m.entries.map Prod.fst).Pairwise fun a b => compare a b = .lt :=
        List.pairwise_map.mpr m.ascending
      rw [← keys_changeUntil f m.entries] at h
      exact List.pairwise_map.mp h⟩,
   (changeUntil (changeEntry f) m.entries).2)

/-! ### Look-ups after each operation -/

/-- The empty map has nothing under a key. -/
@[simp] theorem get?_empty (k : κ) : (empty : OrderedMap κ α).get? k = none := rfl

/-- After an insertion there is the new value under its key, and what there was under the others. -/
theorem get?_insert [Std.TransOrd κ] [Std.LawfulEqOrd κ] (m : OrderedMap κ α) (k k' : κ) (v : α) :
    (m.insert k v).get? k' = if compare k' k = .eq then some v else m.get? k' :=
  find_place k k' v m.entries

/-- Looking up among changed values is changing what is found. -/
theorem find_map (f : κ → α → β) (k : κ) (l : List (κ × α)) [Std.LawfulEqOrd κ] :
    find k (l.map fun e => (e.1, f e.1 e.2)) = (find k l).map (f k) := by
  induction l with
  | nil => rfl
  | cons hd tl ih =>
    obtain ⟨k', v⟩ := hd
    by_cases h : compare k k' = .eq
    · obtain rfl := Std.LawfulEqCmp.eq_of_compare h
      simp [find]
    · simpa [find, h] using ih

/-- A map of changed values has the changed value under each key. -/
theorem get?_map [Std.LawfulEqOrd κ] (m : OrderedMap κ α) (f : κ → α → β) (k : κ) :
    (m.map f).get? k = (m.get? k).map (f k) :=
  find_map f k m.entries

/-- Changing values keeps the keys. -/
theorem keys_map (m : OrderedMap κ α) (f : κ → α → β) : (m.map f).keys = m.keys := by
  simp [keys, map, Function.comp_def]

/-! ### Entries and look-ups -/

/-- Among ascending entries, a key finds the value of its entry. -/
theorem find_eq_some_iff [Std.TransOrd κ] [Std.LawfulEqOrd κ] {k : κ} {v : α} {l : List (κ × α)}
    (h : l.Pairwise fun a b => compare a.1 b.1 = .lt) : find k l = some v ↔ (k, v) ∈ l := by
  induction l with
  | nil => simp [find]
  | cons hd tl ih =>
    obtain ⟨k', v'⟩ := hd
    obtain ⟨hhd, htl⟩ := List.pairwise_cons.mp h
    by_cases hk : compare k k' = .eq
    · obtain rfl := Std.LawfulEqCmp.eq_of_compare hk
      -- The keys behind the head are above it, so the entry is the head or is missing.
      have hne : (k, v) ∉ tl := fun hm => by
        have hbelow := hhd _ hm
        simp at hbelow
      simp [find, hne, eq_comm]
    · have hne : k ≠ k' := by
        rintro rfl
        exact hk Std.ReflCmp.compare_self
      simp [find, hk, ih htl, hne]

/-- A key has a value in a map exactly if they are an entry of it. -/
theorem get?_eq_some_iff [Std.TransOrd κ] [Std.LawfulEqOrd κ] {m : OrderedMap κ α} {k : κ} {v : α} :
    m.get? k = some v ↔ (k, v) ∈ m.entries :=
  find_eq_some_iff m.ascending

end OrderedMap

end Governance
