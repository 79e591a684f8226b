import Governance.Proofs.Text.Cells
import Governance.Version

/-!
# `Governance.Proofs.Version`: how far versions are in order

`Version.compare` compares two parts as numbers if both are numbers, and as texts otherwise. The
comparison turns round when the two versions are exchanged (`compare_swap`). But it goes through a
third version only where the two ways to compare agree. They disagree in a `Clash`: two numbers
that a text stands between, while as numbers they are the other way round. So `9` is below `10`,
`10` is below `1a`, and `1a` is below `9` (`compare_goes_round`).

`trans_iff_not_clash` is the main result. Three versions `u`, `v` and `w`, where `u` is not above
`v` and `v` is not above `w`, fail to be in order exactly if they have a clash at the first place
where their parts are not all equal (`ClashAtFirst`). The argument is about three parts
(`eq_or_clash`), which are read as numbers or not. The list of parts follows by induction.

Numbers alone do not clash, so versions of numbers (`IsNumeric`) are in order (`trans_of_numeric`).
-/

set_option autoImplicit false

namespace Governance.Version

/-! ### The other way round -/

/-- Two parts compare the other way round when they are exchanged. -/
theorem comparePart_swap (a b : String) : comparePart b a = (comparePart a b).swap := by
  have htext : Ord.compare b a = (Ord.compare a b).swap := Std.OrientedCmp.eq_swap
  unfold comparePart
  cases Decimal.readUnsigned64 a.toList with
  | none => cases Decimal.readUnsigned64 b.toList <;> exact htext
  | some m =>
    cases Decimal.readUnsigned64 b.toList with
    | none => exact htext
    | some n =>
      have hnumber : Ord.compare n m = (Ord.compare m n).swap := Std.OrientedCmp.eq_swap
      exact hnumber

/-- Two lists of parts compare the other way round. -/
theorem compareParts_swap (as bs : List String) :
    compareParts bs as = (compareParts as bs).swap := by
  induction as generalizing bs with
  | nil => cases bs <;> rfl
  | cons a as ih =>
    cases bs with
    | nil => rfl
    | cons b bs => rw [compareParts, compareParts, Ordering.swap_then, comparePart_swap a b, ih]

/-- Versions compared the other way round. -/
theorem compare_swap (v w : Option String) : compare w v = (compare v w).swap := by
  cases v <;> cases w <;> first | rfl | exact compareParts_swap _ _

instance : Std.OrientedCmp compare := ⟨compare_swap _ _⟩

/-! ### Three parts -/

/-- Two numbers and a part that is none. As a text, `t` stands between `m` and `n`, but the number
`n` is not above the number `m`. -/
structure Clash (m t n : String) : Prop where
  numbers : ∃ k l, Decimal.readUnsigned64 m.toList = some k ∧
    Decimal.readUnsigned64 n.toList = some l ∧ l ≤ k
  text : Decimal.readUnsigned64 t.toList = none
  below : Ord.compare m t = .lt
  above : Ord.compare t n = .lt

/-- Three parts clash, whichever of them stands in the middle. -/
def Clashing (x y z : String) : Prop := Clash x y z ∨ Clash y z x ∨ Clash z x y

/-- Two numbers compare as numbers. -/
theorem comparePart_numbers {a b : String} {m n : Nat}
    (ha : Decimal.readUnsigned64 a.toList = some m)
    (hb : Decimal.readUnsigned64 b.toList = some n) : comparePart a b = Ord.compare m n := by
  rw [comparePart, ha, hb]

/-- Any other two parts compare as texts. -/
theorem comparePart_texts {a b : String} (h : Decimal.readUnsigned64 a.toList = none ∨
    Decimal.readUnsigned64 b.toList = none) : comparePart a b = Ord.compare a b := by
  unfold comparePart
  rcases h with h | h <;> rw [h]
  split <;> trivial

/-- In an order, three things that go round are equal. -/
theorem eq_of_round {α : Type} [Ord α] [Std.TransOrd α] {a b c : α}
    (hab : Ord.compare a b ≠ .gt) (hbc : Ord.compare b c ≠ .gt) (hca : Ord.compare c a ≠ .gt) :
    Ord.compare a b = .eq ∧ Ord.compare b c = .eq ∧ Ord.compare c a = .eq := by
  replace hab := Ordering.isLE_iff_ne_gt.mpr hab
  replace hbc := Ordering.isLE_iff_ne_gt.mpr hbc
  replace hca := Ordering.isLE_iff_ne_gt.mpr hca
  exact ⟨Std.OrientedCmp.isLE_antisymm hab (Std.TransCmp.isLE_trans hbc hca),
    Std.OrientedCmp.isLE_antisymm hbc (Std.TransCmp.isLE_trans hca hab),
    Std.OrientedCmp.isLE_antisymm hca (Std.TransCmp.isLE_trans hab hbc)⟩

/-- A number and a part that is none are different texts. -/
theorem compare_ne_eq {a b : String} (h : Decimal.readUnsigned64 a.toList ≠
    Decimal.readUnsigned64 b.toList) : Ord.compare a b ≠ .eq :=
  fun heq => h (congrArg (Decimal.readUnsigned64 ·.toList) (Std.LawfulEqCmp.eq_of_compare heq))

section Round

variable {x y z : String} (hxy : comparePart x y ≠ .gt) (hyz : comparePart y z ≠ .gt)
  (hzx : comparePart z x ≠ .gt)

include hxy hyz hzx

/-- Parts that go round clash if the one in the middle is the only one that is no number. -/
theorem clash_of_round {k l : Nat} (hx : Decimal.readUnsigned64 x.toList = some k)
    (hy : Decimal.readUnsigned64 y.toList = none)
    (hz : Decimal.readUnsigned64 z.toList = some l) : Clash x y z := by
  rw [comparePart_texts (Or.inr hy)] at hxy
  rw [comparePart_texts (Or.inl hy)] at hyz
  rw [comparePart_numbers hz hx, Nat.compare_ne_gt] at hzx
  have hxy' : Ord.compare x y ≠ .eq := compare_ne_eq (by simp [hx, hy])
  have hyz' : Ord.compare y z ≠ .eq := compare_ne_eq (by simp [hy, hz])
  refine ⟨⟨k, l, hx, hz, hzx⟩, hy, ?_, ?_⟩
  · cases h : Ord.compare x y <;> simp_all
  · cases h : Ord.compare y z <;> simp_all

/-- Parts that go round and are all compared as texts are equal to each other. -/
theorem eq_of_texts
    (htexts : (Decimal.readUnsigned64 x.toList = none ∨ Decimal.readUnsigned64 y.toList = none) ∧
      (Decimal.readUnsigned64 y.toList = none ∨ Decimal.readUnsigned64 z.toList = none) ∧
      (Decimal.readUnsigned64 z.toList = none ∨ Decimal.readUnsigned64 x.toList = none)) :
    comparePart x y = .eq ∧ comparePart y z = .eq ∧ comparePart z x = .eq := by
  obtain ⟨txy, tyz, tzx⟩ := htexts
  rw [comparePart_texts txy] at hxy ⊢
  rw [comparePart_texts tyz] at hyz ⊢
  rw [comparePart_texts tzx] at hzx ⊢
  exact eq_of_round hxy hyz hzx

/-- Parts that go round are equal to each other, or they clash. -/
theorem eq_or_clash :
    (comparePart x y = .eq ∧ comparePart y z = .eq ∧ comparePart z x = .eq) ∨
      Clashing x y z := by
  -- Three numbers are in order. So are three parts of which two are texts, because each of the
  -- comparisons meets one of these. What is left is one text and two numbers.
  cases hx : Decimal.readUnsigned64 x.toList with
  | none =>
    cases hy : Decimal.readUnsigned64 y.toList with
    | none => exact Or.inl (eq_of_texts hxy hyz hzx (by simp [hx, hy]))
    | some l =>
      cases hz : Decimal.readUnsigned64 z.toList with
      | none => exact Or.inl (eq_of_texts hxy hyz hzx (by simp [hx, hz]))
      | some m => exact Or.inr (Or.inr (Or.inr (clash_of_round hzx hxy hyz hz hx hy)))
  | some k =>
    cases hy : Decimal.readUnsigned64 y.toList with
    | none =>
      cases hz : Decimal.readUnsigned64 z.toList with
      | none => exact Or.inl (eq_of_texts hxy hyz hzx (by simp [hy, hz]))
      | some m => exact Or.inr (Or.inl (clash_of_round hxy hyz hzx hx hy hz))
    | some l =>
      cases hz : Decimal.readUnsigned64 z.toList with
      | none => exact Or.inr (Or.inr (Or.inl (clash_of_round hyz hzx hxy hy hz hx)))
      | some m =>
        rw [comparePart_numbers hx hy] at hxy ⊢
        rw [comparePart_numbers hy hz] at hyz ⊢
        rw [comparePart_numbers hz hx] at hzx ⊢
        exact Or.inl (eq_of_round hxy hyz hzx)

end Round

/-- The parts of a clash go round, and the two comparisons with the text are not equal. -/
theorem Clash.round {m t n : String} (h : Clash m t n) :
    comparePart m t = .lt ∧ comparePart t n = .lt ∧ comparePart n m ≠ .gt := by
  obtain ⟨⟨k, l, hm, hn, hle⟩, htext, hbelow, habove⟩ := h
  rw [comparePart_texts (Or.inr htext), comparePart_texts (Or.inl htext),
    comparePart_numbers hn hm]
  exact ⟨hbelow, habove, Nat.compare_ne_gt.mpr hle⟩

/-- What is less is not greater. -/
theorem ne_gt_of_lt {o : Ordering} (h : o = .lt) : o ≠ .gt := by simp [h]

/-- Parts that clash go round: none of the three steps leads down. -/
theorem Clashing.round {x y z : String} (h : Clashing x y z) :
    comparePart x y ≠ .gt ∧ comparePart y z ≠ .gt ∧ comparePart z x ≠ .gt := by
  rcases h with h | h | h
  · obtain ⟨hxy, hyz, hzx⟩ := h.round
    exact ⟨ne_gt_of_lt hxy, ne_gt_of_lt hyz, hzx⟩
  · obtain ⟨hyz, hzx, hxy⟩ := h.round
    exact ⟨hxy, ne_gt_of_lt hyz, ne_gt_of_lt hzx⟩
  · obtain ⟨hzx, hxy, hyz⟩ := h.round
    exact ⟨ne_gt_of_lt hxy, hyz, ne_gt_of_lt hzx⟩

/-! ### Three versions -/

/-- The parts of a version. -/
def parts (v : Option String) : List String := v.elim [] (Text.splitAtChar '.')

/-- Versions compare as their parts do, and no version has no parts. -/
theorem compare_eq_compareParts (v w : Option String) :
    compare v w = compareParts (parts v) (parts w) := by
  have hne : ∀ s : String, Text.splitAtChar '.' s ≠ [] := fun s => by
    simpa [Text.splitAtChar] using Text.cells_ne_nil '.' s.toList
  -- A version has at least one part, so it is above no version.
  cases v with
  | none =>
    cases w with
    | none => rfl
    | some w =>
      obtain ⟨b, bs, hw⟩ := List.exists_cons_of_ne_nil (hne w)
      change Ordering.lt = compareParts [] (Text.splitAtChar '.' w)
      rw [hw, compareParts]
  | some v =>
    cases w with
    | none =>
      obtain ⟨a, as, hv⟩ := List.exists_cons_of_ne_nil (hne v)
      change Ordering.gt = compareParts (Text.splitAtChar '.' v) []
      rw [hv, compareParts]
    | some w => rfl

/-- Three lists of parts that clash at the first place where the parts are not all equal.

Two parts that clash can be equal numbers. Then the parts after them go on in the same way: those
of the first list are not above those of the second, nor these above those of the third, and those
of the third are below those of the first. -/
inductive ClashAtFirst : List String → List String → List String → Prop
  | here {x y z : String} {as bs cs : List String} : Clashing x y z →
    (comparePart x y = .eq → compareParts as bs ≠ .gt) →
    (comparePart y z = .eq → compareParts bs cs ≠ .gt) →
    (comparePart z x = .eq → compareParts cs as = .lt) →
    ClashAtFirst (x :: as) (y :: bs) (z :: cs)
  | later {x y z : String} {as bs cs : List String} : comparePart x y = .eq →
    comparePart y z = .eq → comparePart z x = .eq → ClashAtFirst as bs cs →
    ClashAtFirst (x :: as) (y :: bs) (z :: cs)

/-- A comparison in two steps is not greater just if the first step is not, nor the second one where
the first is equal. -/
theorem then_ne_gt_iff {o o' : Ordering} : o.then o' ≠ .gt ↔ o ≠ .gt ∧ (o = .eq → o' ≠ .gt) := by
  cases o <;> simp [Ordering.then]

/-- A comparison in two steps is less just if the first step is not greater, and the second one is
less where the first is equal. -/
theorem then_eq_lt_iff {o o' : Ordering} : o.then o' = .lt ↔ o ≠ .gt ∧ (o = .eq → o' = .lt) := by
  cases o <;> simp [Ordering.then]

/-- Lists of parts go round, not all equal, exactly if they have a clash. -/
theorem clashAtFirst_iff {as bs cs : List String} : ClashAtFirst as bs cs ↔
    compareParts as bs ≠ .gt ∧ compareParts bs cs ≠ .gt ∧ compareParts cs as = .lt := by
  constructor
  · intro h
    induction h with
    | here hclash hab hbc hca =>
      obtain ⟨hxy, hyz, hzx⟩ := hclash.round
      rw [compareParts, compareParts, compareParts, then_ne_gt_iff, then_ne_gt_iff, then_eq_lt_iff]
      exact ⟨⟨hxy, hab⟩, ⟨hyz, hbc⟩, hzx, hca⟩
    | later hxy hyz hzx _ ih =>
      rw [compareParts, compareParts, compareParts, hxy, hyz, hzx]
      exact ih
  · rintro ⟨hab, hbc, hca⟩
    induction as generalizing bs cs with
    | nil => cases cs <;> simp [compareParts] at hca
    | cons x as ih =>
      cases bs with
      | nil => simp [compareParts] at hab
      | cons y bs =>
        cases cs with
        | nil => simp [compareParts] at hbc
        | cons z cs =>
          rw [compareParts, then_ne_gt_iff] at hab hbc
          rw [compareParts, then_eq_lt_iff] at hca
          -- The first parts are either all equal, and the later ones decide, or they clash.
          rcases eq_or_clash hab.1 hbc.1 hca.1 with ⟨hxy, hyz, hzx⟩ | hclash
          · exact .later hxy hyz hzx (ih (hab.2 hxy) (hbc.2 hyz) (hca.2 hzx))
          · exact .here hclash hab.2 hbc.2 hca.2

/-- Versions go round, not all equal, exactly if they have a clash. -/
theorem clash_iff {u v w : Option String} : ClashAtFirst (parts u) (parts v) (parts w) ↔
    compare u v ≠ .gt ∧ compare v w ≠ .gt ∧ compare u w = .gt := by
  have hwu : compare w u = .lt ↔ compare u w = .gt := by
    rw [compare_swap u w, Ordering.swap_eq_lt]
  rw [clashAtFirst_iff, ← hwu, compare_eq_compareParts, compare_eq_compareParts,
    compare_eq_compareParts]

/-! ### Versions of numbers -/

/-- A part of decimal digits that is below 2 ^ 64. -/
structure IsDecimal (part : String) : Prop where
  ne_empty : part ≠ ""
  digits : ∀ c ∈ part.toList, c.isDigit = true
  small : Decimal.ofDigits part.toList < 1 <<< 64

/-- A version whose parts are all decimal. No version is one, too. -/
def IsNumeric (v : Option String) : Prop := ∀ part ∈ parts v, IsDecimal part

/-- A decimal part is read as a number. -/
theorem IsDecimal.reads {part : String} (h : IsDecimal part) :
    Decimal.readUnsigned64 part.toList ≠ none := by
  have hread : Decimal.readDigits part.toList = some (Decimal.ofDigits part.toList) := by
    have hne : part.toList ≠ [] := fun hnil => h.ne_empty (String.toList_inj.mp hnil)
    simp [Decimal.readDigits, hne, List.all_eq_true.mpr h.digits]
  have hplus : ∀ rest, part.toList ≠ '+' :: rest := by
    intro rest heq
    exact absurd (h.digits '+' (heq ▸ List.mem_cons_self)) (by decide)
  have hsmall : Decimal.inUnsigned64 (Decimal.ofDigits part.toList) = true :=
    decide_eq_true h.small
  -- There is no sign, and the number is small enough.
  unfold Decimal.readUnsigned64
  split
  · exact absurd ‹_› (hplus _)
  · simp [hread, hsmall]

/-- Three numbers do not clash. -/
theorem not_clashing {x y z : String} (hx : Decimal.readUnsigned64 x.toList ≠ none)
    (hy : Decimal.readUnsigned64 y.toList ≠ none) (hz : Decimal.readUnsigned64 z.toList ≠ none) :
    ¬ Clashing x y z := by
  rintro (h | h | h)
  · exact hy h.text
  · exact hz h.text
  · exact hx h.text

/-- Lists of decimal parts do not clash. -/
theorem not_clashAtFirst {as bs cs : List String} (ha : ∀ p ∈ as, IsDecimal p)
    (hb : ∀ p ∈ bs, IsDecimal p) (hc : ∀ p ∈ cs, IsDecimal p) : ¬ ClashAtFirst as bs cs := by
  intro h
  induction h with
  | here hclash =>
    exact not_clashing (ha _ List.mem_cons_self).reads (hb _ List.mem_cons_self).reads
      (hc _ List.mem_cons_self).reads hclash
  | later _ _ _ _ ih =>
    exact ih (fun p hp => ha p (List.mem_cons_of_mem _ hp))
      (fun p hp => hb p (List.mem_cons_of_mem _ hp)) fun p hp => hc p (List.mem_cons_of_mem _ hp)

/-- Versions of numbers are in order. -/
theorem trans_of_numeric {u v w : Option String} (hu : IsNumeric u) (hv : IsNumeric v)
    (hw : IsNumeric w) (huv : compare u v ≠ .gt) (hvw : compare v w ≠ .gt) :
    compare u w ≠ .gt :=
  fun huw => not_clashAtFirst hu hv hw (clash_iff.mpr ⟨huv, hvw, huw⟩)

/-! ### The order -/

/-- Versions compared the other way round give the reverse. A version that is not above a second
one, which is not above a third one, is not above the third one, unless the three have a clash; and
whenever they have one, it is. -/
theorem trans_iff_not_clash (u v w : Option String) :
    compare v u = (compare u v).swap ∧
    ((compare u v ≠ .gt → compare v w ≠ .gt → compare u w ≠ .gt) ↔
      ¬ ClashAtFirst (parts u) (parts v) (parts w)) := by
  refine ⟨compare_swap u v, ?_⟩
  rw [clash_iff]
  constructor
  · rintro htrans ⟨huv, hvw, huw⟩
    exact htrans huv hvw huw
  · intro hno huv hvw huw
    exact hno ⟨huv, hvw, huw⟩

/-- A text between two numbers: each of the three versions is above another one. -/
theorem compare_goes_round :
    compare (some "9") (some "10") = .lt ∧ compare (some "10") (some "1a") = .lt ∧
      compare (some "9") (some "1a") = .gt := by
  decide

end Governance.Version
