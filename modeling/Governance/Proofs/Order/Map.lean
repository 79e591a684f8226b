import Governance.Order.Set
import Mathlib.Data.List.Nodup

/-!
# `Governance.Proofs.Order.Map`: look-ups in maps

`Governance.Order.Map` says what `insert` and `map` do to look-ups. The operations that an
edit or a deployment is made of follow here:

* `get?_modify`: one value changes, and every other look-up stays; `modify_congr`: the change
  depends on what it makes of this value.
* `mapUntil_eq_map` / `mapUntil_failure`: a walk that meets no failure is a `map`, and the
  failure of a walk is that of the first entry that fails.
* `get?_mapUntil`: after a walk that failed, each value is the changed one or the old one.
* `mapUntil_again`: a walk over its own result does nothing more.
* `mem_of_get?_ofList`: a map built from pairs holds only these pairs, under all of their keys
  (`contains_ofList`).
* `find?_entries_eq_some_iff`: a search by key finds the least key that passes.
* `get?_override`: a map laid over another one is found first, so a map is built again from
  its entries (`ofList_entries`).

A list that ascends by key is determined by its members (`eq_of_ascending`). So a map is
determined by its look-ups (`ext_get?`), a set by its members (`OrderedSet.ext_contains`), and the
keys of a map by the look-ups that succeed (`mem_keys`, `keys_eq_of_contains`).
-/

set_option autoImplicit false

namespace Governance.OrderedMap

variable {κ α β ε : Type}

section Ascending

/-! ### Lists that ascend by key -/

variable [Ord κ] [Std.LawfulEqOrd κ]

/-- No key stands twice in a list that ascends by key. -/
theorem nodup_of_ascending {key : α → κ} {l : List α}
    (h : l.Pairwise fun a b => compare (key a) (key b) = .lt) : (l.map key).Nodup := by
  refine List.pairwise_map.mpr (h.imp fun {a b} hab he => ?_)
  rw [he] at hab
  simp at hab

/-- A list that ascends by key is determined by its members. -/
theorem eq_of_ascending [Std.TransOrd κ] (key : α → κ) {l l' : List α}
    (h : l.Pairwise fun a b => compare (key a) (key b) = .lt)
    (h' : l'.Pairwise fun a b => compare (key a) (key b) = .lt) (hmem : ∀ a, a ∈ l ↔ a ∈ l') :
    l = l' := by
  have hnodup : l.Nodup := List.Nodup.of_map key (nodup_of_ascending h)
  have hnodup' : l'.Nodup := List.Nodup.of_map key (nodup_of_ascending h')
  have hperm : l.Perm l' := (List.perm_ext_iff_of_nodup hnodup hnodup').mpr hmem
  refine hperm.eq_of_pairwise (fun a b _ _ hab hba => ?_) h h'
  -- Of two members in both orders, each would be below itself.
  have haa := Std.TransCmp.lt_trans hab hba
  simp at haa

end Ascending

section Walk

/-! ### Walks over lists that stop at a failure -/

/-- A list is changed throughout when no change fails. -/
theorem changeUntil_eq_map {f : α → α × Option ε} {l : List α}
    (h : (changeUntil f l).2 = none) :
    (changeUntil f l).1 = l.map (fun a => (f a).1) ∧ ∀ a ∈ l, (f a).2 = none := by
  induction l with
  | nil => simp [changeUntil]
  | cons a rest ih =>
    rw [changeUntil] at h ⊢
    split at h
    · simp at h
    · rename_i a' ha
      obtain ⟨hmap, hall⟩ := ih h
      simpa [ha, hmap] using hall

/-- The failure of a walk is that of the first item that fails. -/
theorem changeUntil_failure (f : α → α × Option ε) (l : List α) :
    (changeUntil f l).2 = l.findSome? fun a => (f a).2 := by
  induction l with
  | nil => rfl
  | cons a rest ih =>
    rw [changeUntil, List.findSome?_cons]
    split <;> rename_i ha <;> simp [ha, ih]

/-- After a walk each item is as it was or as its change made it. -/
theorem mem_changeUntil {f : α → α × Option ε} {l : List α} {b : α}
    (h : b ∈ (changeUntil f l).1) : ∃ a ∈ l, b = a ∨ b = (f a).1 := by
  -- The change goes on to the rest unless the first item fails, and then the rest stays as it is.
  induction l with
  | nil => simp [changeUntil] at h
  | cons a rest ih =>
    rw [changeUntil] at h
    split at h <;> rename_i ha
    · rcases List.mem_cons.mp h with rfl | hb
      · exact ⟨a, by simp, Or.inr (by rw [ha])⟩
      · exact ⟨b, List.mem_cons_of_mem _ hb, Or.inl rfl⟩
    · rcases List.mem_cons.mp h with rfl | hb
      · exact ⟨a, by simp, Or.inr (by rw [ha])⟩
      · obtain ⟨c, hc, hbc⟩ := ih hb
        exact ⟨c, List.mem_cons_of_mem _ hc, hbc⟩

/-- A walk over its own result changes nothing and fails as before, when to change an item again is
to change it once. -/
theorem changeUntil_again {f : α → α × Option ε} {l : List α} (h : ∀ a ∈ l, f (f a).1 = f a) :
    changeUntil f (changeUntil f l).1 = changeUntil f l := by
  induction l with
  | nil => rfl
  | cons a rest ih =>
    have hhead : f (f a).1 = f a := h a (by simp)
    have htail := ih fun b hb => h b (List.mem_cons_of_mem _ hb)
    rcases hfa : f a with ⟨a', _ | e⟩
    · rw [hfa] at hhead
      simp only [changeUntil, hfa, hhead, htail]
    · -- The first walk ended here, and the second one ends at the same item.
      rw [hfa] at hhead
      simp only [changeUntil, hfa, hhead]

end Walk

section Keys

/-! ### Keys -/

variable [Ord κ]

/-- A key is there if there is something under it. -/
theorem contains_eq_true {m : OrderedMap κ α} {k : κ} :
    m.contains k = true ↔ ∃ v, m.get? k = some v :=
  Option.isSome_iff_exists

/-- A key is not there if there is nothing under it. -/
theorem contains_eq_false {m : OrderedMap κ α} {k : κ} :
    m.contains k = false ↔ m.get? k = none := by
  simp [contains]

/-- A key that is there is not one that is not there. -/
theorem ne_of_get? {m : OrderedMap κ α} {k k' : κ} {v : α} (h : m.get? k = some v)
    (h' : m.contains k' = false) : k ≠ k' := by
  rintro rfl
  rw [contains_eq_false, h] at h'
  simp at h'

/-- There are as many keys as entries. -/
@[simp] theorem length_keys (m : OrderedMap κ α) : m.keys.length = m.size :=
  List.length_map _

/-- A walk keeps the keys. -/
theorem keys_mapUntil (m : OrderedMap κ α) (f : κ → α → α × Option ε) :
    (m.mapUntil f).1.keys = m.keys :=
  keys_changeUntil f m.entries

/-- The failure of a walk over a map is that of the first entry that fails. -/
theorem mapUntil_failure (m : OrderedMap κ α) (f : κ → α → α × Option ε) :
    (m.mapUntil f).2 = m.entries.findSome? fun e => (f e.1 e.2).2 :=
  changeUntil_failure (changeEntry f) m.entries

/-- A walk over a map without a failure changes every value. -/
theorem mapUntil_eq_map {m : OrderedMap κ α} {f : κ → α → α × Option ε}
    (h : (m.mapUntil f).2 = none) : (m.mapUntil f).1 = m.map fun k v => (f k v).1 := by
  obtain ⟨hmap, -⟩ := changeUntil_eq_map h
  obtain ⟨l, hl⟩ := m
  simpa only [mapUntil, map, mk.injEq, changeEntry] using hmap

variable [Std.LawfulEqOrd κ]

/-- A change of the values keeps the keys. -/
theorem contains_map (m : OrderedMap κ α) (f : κ → α → β) (k : κ) :
    (m.map f).contains k = m.contains k := by
  simp [contains, get?_map]

/-- Maps that are made equal by changes have values under the same keys. -/
theorem exists_of_map_eq {γ : Type} {m : OrderedMap κ α} {n : OrderedMap κ β} {f : α → γ}
    {g : β → γ} (h : (m.map fun _ v => f v) = n.map fun _ v => g v) {k : κ} {v : α}
    (hk : m.get? k = some v) : ∃ w, n.get? k = some w ∧ g w = f v := by
  have hget : (m.map fun _ v => f v).get? k = (n.map fun _ v => g v).get? k := by rw [h]
  rw [get?_map, get?_map, hk, Option.map_some] at hget
  exact Option.map_eq_some_iff.mp hget.symm

/-- Modifying a value keeps every other look-up. -/
theorem get?_modify [DecidableEq κ] (m : OrderedMap κ α) (k k' : κ) (f : α → α) :
    (m.modify k f).get? k' = if k' = k then (m.get? k').map f else m.get? k' := by
  rw [modify, get?_map]
  by_cases h : k' = k
  · subst h
    simp
  · have hc : ¬ compare k k' = .eq := fun hc => h (Std.LawfulEqCmp.eq_of_compare hc).symm
    simp [h, hc]

end Keys

section Entries

variable [Ord κ] [Std.TransOrd κ] [Std.LawfulEqOrd κ]

/-! ### Entries -/

/-- The keys are those under which there is something. -/
theorem mem_keys {m : OrderedMap κ α} {k : κ} : k ∈ m.keys ↔ ∃ v, m.get? k = some v := by
  simp [keys, get?_eq_some_iff]

omit [Std.TransOrd κ] in
/-- No key stands twice. -/
theorem nodup_keys (m : OrderedMap κ α) : m.keys.Nodup := nodup_of_ascending m.ascending

/-- A map is determined by its look-ups. -/
theorem ext_get? {m n : OrderedMap κ α} (h : ∀ k, m.get? k = n.get? k) : m = n := by
  have hentries : m.entries = n.entries :=
    eq_of_ascending Prod.fst m.ascending n.ascending fun (k, v) => by
      rw [← get?_eq_some_iff, ← get?_eq_some_iff, h k]
  cases m
  cases n
  cases hentries
  rfl

/-- The keys in front of an entry are those below its key. -/
theorem mem_keys_before {m : OrderedMap κ α} {before after : List (κ × α)} {k k' : κ} {v : α}
    (h : m.entries = before ++ (k, v) :: after) :
    k' ∈ before.map Prod.fst ↔ k' ∈ m.keys ∧ compare k' k = .lt := by
  have hascending := m.ascending
  rw [h, List.pairwise_append, List.pairwise_cons] at hascending
  obtain ⟨-, ⟨hafter, -⟩, hbefore⟩ := hascending
  rw [keys, h, List.map_append, List.mem_append]
  constructor
  · intro hk
    refine ⟨Or.inl hk, ?_⟩
    obtain ⟨e, he, rfl⟩ := List.mem_map.mp hk
    exact hbefore e he (k, v) (by simp)
  · rintro ⟨hk, hlt⟩
    refine hk.resolve_right fun hk => ?_
    -- No key from `k` on is below `k`.
    obtain ⟨e, he, rfl⟩ := List.mem_map.mp hk
    rcases List.mem_cons.mp he with rfl | he
    · simp at hlt
    · have hbelow := Std.TransCmp.lt_trans hlt (hafter e he)
      simp at hbelow

/-- The first entry that a test of the keys picks is the one of the least key that passes it. -/
theorem find?_entries_eq_some_iff {m : OrderedMap κ α} {f : κ → Bool} {k : κ} {v : α} :
    (m.entries.find? fun e => f e.1) = some (k, v) ↔
      m.get? k = some v ∧ f k = true ∧
        ∀ k', m.contains k' = true → f k' = true → compare k' k ≠ .lt := by
  rw [List.find?_eq_some_iff_append]
  constructor
  · rintro ⟨hf, before, after, hentries, hbefore⟩
    refine ⟨get?_eq_some_iff.mpr (by simp [hentries]), hf, fun k' hk' hf' hlt => ?_⟩
    have hkeys : k' ∈ before.map Prod.fst :=
      (mem_keys_before hentries).mpr ⟨mem_keys.mpr (contains_eq_true.mp hk'), hlt⟩
    obtain ⟨e, he, rfl⟩ := List.mem_map.mp hkeys
    simpa [hf'] using hbefore e he
  · rintro ⟨hget, hf, hleast⟩
    obtain ⟨before, after, hentries⟩ := List.append_of_mem (get?_eq_some_iff.mp hget)
    refine ⟨hf, before, after, hentries, fun e he => ?_⟩
    -- An entry in front has a lower key, so it does not pass.
    obtain ⟨hkeys, hlt⟩ := (mem_keys_before hentries).mp (List.mem_map.mpr ⟨e, he, rfl⟩)
    have hkey : m.contains e.1 = true := contains_eq_true.mpr (mem_keys.mp hkeys)
    by_cases hfe : f e.1 = true
    · exact absurd hlt (hleast e.1 hkey hfe)
    · simpa using hfe

/-- A value stands under some key. -/
theorem mem_values {m : OrderedMap κ α} {v : α} : v ∈ m.values ↔ ∃ k, m.get? k = some v := by
  simp [values, get?_eq_some_iff]

/-- The entries find what a look-up finds. -/
theorem lookup_entries [DecidableEq κ] (m : OrderedMap κ α) (k : κ) :
    m.entries.lookup k = m.get? k := by
  rw [get?]
  induction m.entries with
  | nil => rfl
  | cons e rest ih =>
    obtain ⟨k', v⟩ := e
    rw [List.lookup_cons, find, ih]
    by_cases hk : k = k'
    · simp [hk]
    · have hne : ¬ compare k k' = .eq := fun hc => hk (Std.LawfulEqCmp.eq_of_compare hc)
      simp [beq_eq_false_iff_ne.mpr hk, hne]

/-- Maps with the same keys contain the same. -/
theorem contains_eq_of_keys {m : OrderedMap κ α} {n : OrderedMap κ β} (h : m.keys = n.keys)
    (k : κ) : m.contains k = n.contains k := by
  rw [Bool.eq_iff_iff, contains_eq_true, contains_eq_true, ← mem_keys, ← mem_keys, h]

/-- What was put in is found. -/
@[simp] theorem get?_insert_self (m : OrderedMap κ α) (k : κ) (v : α) :
    (m.insert k v).get? k = some v := by
  rw [get?_insert, if_pos Std.ReflCmp.compare_self]

/-- Under other keys nothing changes. -/
theorem get?_insert_of_ne (m : OrderedMap κ α) {k k' : κ} (v : α) (h : k' ≠ k) :
    (m.insert k v).get? k' = m.get? k' := by
  rw [get?_insert, if_neg fun hc => h (Std.LawfulEqCmp.eq_of_compare hc)]

/-- Two changes of the values are one. -/
theorem map_map {γ : Type} (m : OrderedMap κ α) (f : κ → α → β) (g : κ → β → γ) :
    (m.map f).map g = m.map fun k v => g k (f k v) :=
  ext_get? fun k => by simp only [get?_map, Option.map_map]; rfl

/-- Two functions that agree on the entries make the same map. -/
theorem map_congr {m : OrderedMap κ α} {f g : κ → α → β}
    (h : ∀ k v, m.get? k = some v → f k v = g k v) : m.map f = m.map g := by
  refine ext_get? fun k => ?_
  rw [get?_map, get?_map]
  cases hk : m.get? k with
  | none => rfl
  | some v => exact congrArg some (h k v hk)

/-- A change of one value depends on what it makes of the value that is there. -/
theorem modify_congr [DecidableEq κ] {m : OrderedMap κ α} {k : κ} {f f' : α → α}
    (h : ∀ v, m.get? k = some v → f v = f' v) : m.modify k f = m.modify k f' := by
  refine ext_get? fun k' => ?_
  rw [get?_modify, get?_modify]
  split
  · rename_i hk
    subst hk
    cases hv : m.get? k' with
    | none => rfl
    | some v => exact congrArg some (h v hv)
  · rfl

/-- No change fails in a walk over a map without a failure. -/
theorem mapUntil_none {m : OrderedMap κ α} {f : κ → α → α × Option ε}
    (h : (m.mapUntil f).2 = none) {k : κ} {v : α} (hk : m.get? k = some v) :
    (f k v).2 = none :=
  (changeUntil_eq_map h).2 (k, v) (get?_eq_some_iff.mp hk)

/-- After a walk each value is as it was or as its change made it. -/
theorem get?_mapUntil {m : OrderedMap κ α} {f : κ → α → α × Option ε} {k : κ} {v' : α}
    (h : (m.mapUntil f).1.get? k = some v') :
    ∃ v, m.get? k = some v ∧ (v' = v ∨ v' = (f k v).1) := by
  obtain ⟨⟨k', v⟩, hkv, hcases⟩ := mem_changeUntil (get?_eq_some_iff.mp h)
  simp only [changeEntry, Prod.mk.injEq] at hcases
  rcases hcases with ⟨rfl, rfl⟩ | ⟨rfl, rfl⟩
  · exact ⟨v', get?_eq_some_iff.mpr hkv, Or.inl rfl⟩
  · exact ⟨v, get?_eq_some_iff.mpr hkv, Or.inr rfl⟩

/-- A walk over its own result changes nothing and fails as before, when to change a value again is
to change it once. -/
theorem mapUntil_again {m : OrderedMap κ α} {f : κ → α → α × Option ε}
    (h : ∀ k v, m.get? k = some v → f k (f k v).1 = f k v) :
    (m.mapUntil f).1.mapUntil f = m.mapUntil f := by
  have hentries : changeUntil (changeEntry f) (changeUntil (changeEntry f) m.entries).1 =
      changeUntil (changeEntry f) m.entries := by
    refine changeUntil_again fun e he => ?_
    simp only [changeEntry, h e.1 e.2 (get?_eq_some_iff.mpr he)]
  unfold mapUntil
  simp only [hentries]

/-- A map built from pairs holds only these pairs. -/
theorem mem_of_get?_ofList {l : List (κ × α)} {k : κ} {v : α}
    (h : (ofList l).get? k = some v) : (k, v) ∈ l := by
  -- The pairs are inserted one by one, so the claim is about any map at the start.
  suffices hfold : ∀ m : OrderedMap κ α,
      (l.foldl (fun m e => m.insert e.1 e.2) m).get? k = some v →
        m.get? k = some v ∨ (k, v) ∈ l by
    simpa using hfold _ h
  clear h
  induction l with
  | nil => exact fun m hm => Or.inl hm
  | cons e l ih =>
    intro m hm
    rcases ih _ hm with hk | hk
    · by_cases hke : k = e.1
      · subst hke
        rw [get?_insert_self] at hk
        cases hk
        exact Or.inr (by simp)
      · rw [get?_insert_of_ne _ _ hke] at hk
        exact Or.inl hk
    · exact Or.inr (List.mem_cons_of_mem _ hk)

/-- The keys are the old ones and the one that was put in. -/
theorem contains_insert (m : OrderedMap κ α) (k k' : κ) (v : α) :
    (m.insert k v).contains k' = true ↔ k' = k ∨ m.contains k' = true := by
  by_cases hk : k' = k
  · simp [hk, contains]
  · simp only [contains, get?_insert_of_ne m v hk, hk, false_or]

/-- To store a value only where there is none adds the same key. -/
theorem contains_insertNew (m : OrderedMap κ α) (k k' : κ) (v : α) :
    (m.insertNew k v).contains k' = true ↔ k' = k ∨ m.contains k' = true := by
  unfold insertNew
  split
  · rename_i hk
    exact ⟨Or.inr, fun h => h.elim (fun heq => heq ▸ hk) fun h => h⟩
  · exact contains_insert m k k' v

omit [Std.TransOrd κ] [Std.LawfulEqOrd κ] in
/-- Entries that are stored one after another add their keys. -/
theorem contains_foldl {γ : Type} {add : OrderedMap κ α → γ → OrderedMap κ α} {key : γ → κ}
    (hadd : ∀ m c k, (add m c).contains k = true ↔ k = key c ∨ m.contains k = true) (l : List γ)
    (m : OrderedMap κ α) (k : κ) :
    (l.foldl add m).contains k = true ↔ k ∈ l.map key ∨ m.contains k = true := by
  induction l generalizing m with
  | nil => simp
  | cons c rest ih =>
    rw [List.foldl_cons, ih, hadd, List.map_cons, List.mem_cons]
    exact or_left_comm.trans or_assoc.symm

/-- A map built from pairs has their keys. -/
theorem contains_ofList {l : List (κ × α)} {k : κ} :
    (ofList l).contains k = true ↔ k ∈ l.map Prod.fst := by
  have hempty : ¬ (empty : OrderedMap κ α).contains k = true := by simp [contains]
  exact (contains_foldl (fun m e k' => contains_insert m e.1 k' e.2) l empty k).trans
    (or_iff_left hempty)

/-- A map laid over another one is found first. -/
theorem get?_override (m n : OrderedMap κ α) (k : κ) :
    (m.override n).get? k = (n.get? k).or (m.get? k) := by
  -- The entries ascend, so none of them is inserted over another.
  suffices hfold : ∀ (l : List (κ × α)) (m : OrderedMap κ α),
      l.Pairwise (fun a b => compare a.1 b.1 = .lt) →
        (l.foldl (fun m e => m.insert e.1 e.2) m).get? k = (find k l).or (m.get? k) by
    exact hfold n.entries m n.ascending
  intro l
  induction l with
  | nil => exact fun m _ => rfl
  | cons e rest ih =>
    obtain ⟨k', v⟩ := e
    intro m hl
    obtain ⟨hhd, htl⟩ := List.pairwise_cons.mp hl
    rw [List.foldl_cons, ih _ htl, get?_insert, find]
    by_cases hk : compare k k' = .eq
    · obtain rfl := Std.LawfulEqCmp.eq_of_compare hk
      have hnone : find k rest = none := by
        refine Option.eq_none_iff_forall_ne_some.mpr fun w hw => ?_
        have hbelow := hhd _ ((find_eq_some_iff htl).mp hw)
        simp at hbelow
      simp [hnone]
    · simp [hk]

/-- A map is built again from its entries. -/
theorem ofList_entries (m : OrderedMap κ α) : ofList m.entries = m := by
  have hoverride : ofList m.entries = empty.override m := rfl
  refine ext_get? fun k => ?_
  rw [hoverride, get?_override, get?_empty, Option.or_none]

end Entries

end Governance.OrderedMap

namespace Governance.OrderedSet

variable {κ : Type} [Ord κ] [Std.TransOrd κ] [Std.LawfulEqOrd κ]

/-- Members that are inserted one by one come to those of the set at the start. -/
theorem contains_foldl_insert (l : List κ) (s : OrderedSet κ) (k : κ) :
    (l.foldl insert s).contains k = true ↔ k ∈ l ∨ s.contains k = true := by
  induction l generalizing s with
  | nil => simp
  | cons a rest ih =>
    rw [List.foldl_cons, ih, contains_insert]
    simp [or_left_comm, or_assoc]

/-- The members of a list are those of its set. -/
theorem contains_ofList {l : List κ} {k : κ} : (ofList l).contains k = true ↔ k ∈ l := by
  simp [ofList, contains_foldl_insert]

/-- The members of a union are those of the two sets. -/
theorem contains_union (s t : OrderedSet κ) (k : κ) :
    (s.union t).contains k = true ↔ s.contains k = true ∨ t.contains k = true := by
  rw [union, contains_foldl_insert, ← contains_iff_mem, or_comm]

omit [Std.TransOrd κ] in
/-- No member stands twice. -/
theorem nodup_toList (s : OrderedSet κ) : s.toList.Nodup :=
  List.map_id s.toList ▸ OrderedMap.nodup_of_ascending s.ascending

/-- A set is determined by its members. -/
theorem ext_contains {s t : OrderedSet κ} (h : ∀ k, s.contains k = true ↔ t.contains k = true) :
    s = t := by
  have hmembers : s.toList = t.toList :=
    OrderedMap.eq_of_ascending id s.ascending t.ascending fun k => by
      rw [← contains_iff_mem, ← contains_iff_mem, h k]
  cases s
  cases t
  cases hmembers
  rfl

/-- A set is built again from its members. -/
theorem ofList_toList (s : OrderedSet κ) : ofList s.toList = s :=
  ext_contains fun _ => by rw [contains_ofList, contains_iff_mem]

end Governance.OrderedSet

namespace Governance.OrderedMap

variable {κ α β : Type} [Ord κ] [Std.TransOrd κ] [Std.LawfulEqOrd κ]

/-- Maps with values under the same keys list these keys alike. -/
theorem keys_eq_of_contains {m : OrderedMap κ α} {n : OrderedMap κ β}
    (h : ∀ k, m.contains k = true ↔ n.contains k = true) : m.keys = n.keys := by
  have hkeys : OrderedSet.ofKeys m = OrderedSet.ofKeys n := OrderedSet.ext_contains fun k => by
    rw [OrderedSet.contains_iff_mem, OrderedSet.contains_iff_mem]
    change k ∈ m.keys ↔ k ∈ n.keys
    rw [mem_keys, mem_keys, ← contains_eq_true, h, contains_eq_true]
  exact congrArg OrderedSet.toList hkeys

end Governance.OrderedMap
