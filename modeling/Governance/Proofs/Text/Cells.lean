import Governance.Text.Search

/-!
# `Governance.Proofs.Text.Cells`: texts that are cut at a character

A text is cut into cells and joined again. `Text.joinCells_cells` says that nothing is lost.
This module has the other direction:

* `cells_append`, `splitAtChar_append`: a separator in the middle cuts a text in two.
* `notMem_of_mem_cells`: no cell has the separator in it.
* `splitAtChar_injective`: a text is known by its parts.
* `splitAtChar_eq_iff`: the parts of a text are the texts without the separator that it joins.
-/

set_option autoImplicit false

namespace Governance.Text

/-- Without the separator there is one cell. -/
theorem cells_of_notMem {sep : Char} {l : List Char} (h : sep ∉ l) : cells sep l = [l] := by
  induction l with
  | nil => rfl
  | cons c rest ih =>
    have hc := List.ne_of_not_mem_cons h
    rw [cells, if_neg hc.symm, ih (List.not_mem_of_not_mem_cons h)]

/-- A separator in the middle cuts a text in two. -/
theorem cells_append (sep : Char) (l rest : List Char) :
    cells sep (l ++ sep :: rest) = cells sep l ++ cells sep rest := by
  induction l with
  | nil => simp [cells]
  | cons c more ih =>
    rw [List.cons_append, cells, cells, ih]
    split
    · rfl
    · obtain ⟨cell, cells', hcells⟩ := List.exists_cons_of_ne_nil (cells_ne_nil sep more)
      rw [hcells]
      rfl

/-- No cell has the separator in it. -/
theorem notMem_of_mem_cells {sep : Char} {l cell : List Char} (h : cell ∈ cells sep l) :
    sep ∉ cell := by
  -- A separator begins a new cell, and any other character is put in front of the first cell.
  induction l generalizing cell with
  | nil =>
    rw [cells, List.mem_singleton] at h
    simp [h]
  | cons c rest ih =>
    rw [cells] at h
    split at h
    · rcases List.mem_cons.mp h with rfl | h
      · simp
      · exact ih h
    · rename_i hc
      split at h
      · rename_i hnil
        exact absurd hnil (cells_ne_nil sep rest)
      · rename_i first more hcells
        rcases List.mem_cons.mp h with rfl | h
        · have hfirst : sep ∉ first := ih (by simp [hcells])
          exact List.not_mem_cons_of_ne_of_not_mem (Ne.symm hc) hfirst
        · exact ih (by simp [hcells, h])

/-- A text without the separator is one part. -/
theorem splitAtChar_of_notMem {sep : Char} {s : String} (h : sep ∉ s.toList) :
    splitAtChar sep s = [s] := by
  simp [splitAtChar, cells_of_notMem h]

/-- A separator in the middle cuts a text in two parts. -/
theorem splitAtChar_append {sep : Char} {t : String} (ht : t.toList = [sep]) (s s' : String) :
    splitAtChar sep (s ++ t ++ s') = splitAtChar sep s ++ splitAtChar sep s' := by
  have hlist : (s ++ t ++ s').toList = s.toList ++ sep :: s'.toList := by
    simp [String.toList_append, ht]
  rw [splitAtChar, hlist, cells_append, List.map_append]
  rfl

/-- A text is known by its parts. -/
theorem splitAtChar_injective (sep : Char) : Function.Injective (splitAtChar sep) := by
  intro s s' h
  have hcells : cells sep s.toList = cells sep s'.toList :=
    (List.map_inj_right fun _ _ => String.ofList_inj.mp).mp h
  rw [← String.toList_inj, ← joinCells_cells sep s.toList, hcells, joinCells_cells]

/-- Cells without the separator are found again. -/
theorem cells_joinCells {sep : Char} {l : List (List Char)} (hne : l ≠ [])
    (h : ∀ cell ∈ l, sep ∉ cell) : cells sep (joinCells sep l) = l := by
  induction l with
  | nil => exact absurd rfl hne
  | cons cell more ih =>
    have hcell : cells sep cell = [cell] := cells_of_notMem (h cell List.mem_cons_self)
    cases more with
    | nil => exact hcell
    | cons next rest =>
      have hrest := ih (List.cons_ne_nil _ _) fun c hc => h c (List.mem_cons_of_mem _ hc)
      change cells sep (cell ++ sep :: joinCells sep (next :: rest)) = _
      rw [cells_append, hcell, hrest, List.singleton_append]

/-- To join cells is to put the separator between them. -/
theorem joinCells_eq_intercalate (sep : Char) (l : List (List Char)) :
    joinCells sep l = [sep].intercalate l := by
  induction l with
  | nil => rfl
  | cons cell more ih =>
    cases more with
    | nil => simp [joinCells]
    | cons next rest =>
      change cell ++ sep :: joinCells sep (next :: rest) = _
      rw [ih, List.intercalate_cons_cons, List.append_assoc, List.singleton_append]

/-- A text is cut into the texts without the separator that it joins. -/
theorem splitAtChar_eq_iff {sep : Char} {t s : String} {l : List String} (ht : t.toList = [sep]) :
    splitAtChar sep s = l ↔ l ≠ [] ∧ (∀ x ∈ l, sep ∉ x.toList) ∧ s = t.intercalate l := by
  have hjoin : (t.intercalate l).toList = joinCells sep (l.map String.toList) := by
    rw [String.toList_intercalate, ht, joinCells_eq_intercalate]
  -- Splitting gives parts that join to the text, and such parts are found again.
  constructor
  · rintro rfl
    refine ⟨by simpa [splitAtChar] using cells_ne_nil sep _, fun x hx => ?_, ?_⟩
    · obtain ⟨cell, hcell, rfl⟩ := List.mem_map.mp hx
      rw [String.toList_ofList]
      exact notMem_of_mem_cells hcell
    · have hcells : (splitAtChar sep s).map String.toList = cells sep s.toList := by
        simp [splitAtChar]
      rw [← String.toList_inj, hjoin, hcells, joinCells_cells]
  · rintro ⟨hne, hsep, rfl⟩
    have hcells : cells sep (joinCells sep (l.map String.toList)) = l.map String.toList :=
      cells_joinCells (by simpa using hne) (by simpa using hsep)
    rw [splitAtChar, hjoin, hcells]
    simp

end Governance.Text
