import Governance.Catalog.Library
import Mathlib.Data.List.Dedup
import Mathlib.Data.List.Forall2

/-!
# `Governance.Proofs.Catalog.Listing`: the order in which directories are listed

A system lists the entries of a directory in any order. `FileTree.Reordered` relates two trees that
differ in such orders, in any directory at any level. The files of such trees are the same up to
their order (`filesFrom_perm`).

A library is read in the order of the paths. Two files with one path could still change places, but
there are none, because a directory has no two entries with one name (`FileTree.NamesDistinct`,
`nodup_filesFrom`). So `sortedFiles` gives one list for both trees, and all that is made of it is
the same: the catalog, or the error with the path that it names (`Library.load_reordered`).
-/

set_option autoImplicit false

namespace Governance

namespace FileTree

/-- The trees differ in the orders in which directories list their entries. -/
inductive Reordered : FileTree → FileTree → Prop
  | file (content : FileContent) : Reordered (.file content) (.file content)
  | nil : Reordered (.directory []) (.directory [])
  | cons (name : String) {t t' : FileTree} {entries entries' : Listing} :
      Reordered t t' → Reordered (.directory entries) (.directory entries') →
      Reordered (.directory ((name, t) :: entries)) (.directory ((name, t') :: entries'))
  | swap (e e' : String × FileTree) (entries : Listing) :
      Reordered (.directory (e :: e' :: entries)) (.directory (e' :: e :: entries))
  | trans {t t' t'' : FileTree} : Reordered t t' → Reordered t' t'' → Reordered t t''

/-- No directory in the tree has two entries with one name. -/
inductive NamesDistinct : FileTree → Prop
  | file (content : FileContent) : NamesDistinct (.file content)
  | nil : NamesDistinct (.directory [])
  | cons {name : String} {t : FileTree} {entries : Listing} :
      name ∉ entries.map Prod.fst → NamesDistinct t → NamesDistinct (.directory entries) →
      NamesDistinct (.directory ((name, t) :: entries))

mutual

/-- A tree can stay as it is. -/
protected theorem Reordered.refl : ∀ t : FileTree, Reordered t t
  | .file content => .file content
  | .directory entries => .refl_directory entries

/-- A directory can stay as it is listed. -/
theorem Reordered.refl_directory : ∀ entries : Listing,
    Reordered (.directory entries) (.directory entries)
  | [] => .nil
  | (name, t) :: rest => .cons name (.refl t) (.refl_directory rest)

end

/-- The entries of one directory in another order. -/
theorem Reordered.of_perm {entries entries' : Listing} (h : entries.Perm entries') :
    Reordered (.directory entries) (.directory entries') := by
  induction h with
  | nil => exact .nil
  | cons e _ ih => exact .cons e.1 (.refl e.2) ih
  | swap e e' l => exact .swap e' e l
  | trans _ _ ih ih' => exact ih.trans ih'

/-! ### The files of a tree -/

/-- Trees that differ in the orders of listings have the same files. -/
theorem filesFrom_perm {t t' : FileTree} (h : Reordered t t') (above : Path.Place) :
    (filesFrom above t).Perm (filesFrom above t') := by
  -- The names above a directory are those above its files, so they change on the way down.
  induction h generalizing above with
  | file content => exact .refl _
  | nil => exact .refl _
  | cons name _ _ ih ih' => exact (ih (above ++ [name])).append (ih' above)
  | swap e e' entries =>
    simp only [filesFrom, filesOf]
    exact List.perm_append_comm_assoc ..
  | trans _ _ ih ih' => exact (ih above).trans (ih' above)

mutual

/-- The place of a file is below what the tree is below. -/
theorem prefix_of_mem_filesFrom : ∀ {t : FileTree} {above : Path.Place}
    {f : Path.Place × FileContent}, f ∈ filesFrom above t → above <+: f.1
  | .file content, above, f, h => by
    obtain rfl := List.mem_singleton.mp h
    exact List.prefix_rfl
  | .directory _, above, f, h => by
    obtain ⟨name, -, hprefix⟩ := prefix_of_mem_filesOf h
    exact (List.prefix_append above [name]).trans hprefix

/-- The place of a file in a directory starts with the name of an entry. -/
theorem prefix_of_mem_filesOf : ∀ {entries : Listing} {above : Path.Place}
    {f : Path.Place × FileContent}, f ∈ filesOf above entries →
    ∃ name ∈ entries.map Prod.fst, above ++ [name] <+: f.1
  | [], _, _, h => nomatch h
  | (name, t) :: rest, above, f, h => by
    rcases List.mem_append.mp h with h | h
    · exact ⟨name, by simp, prefix_of_mem_filesFrom h⟩
    · obtain ⟨name', hname', hprefix⟩ := prefix_of_mem_filesOf h
      exact ⟨name', List.mem_cons_of_mem _ hname', hprefix⟩

end

/-- No two files have one place. -/
theorem nodup_filesFrom {t : FileTree} (h : NamesDistinct t) (above : Path.Place) :
    ((filesFrom above t).map Prod.fst).Nodup := by
  induction h generalizing above with
  | file content => exact List.nodup_singleton _
  | nil => exact List.nodup_nil
  | @cons name t entries hname _ _ ih ih' =>
    simp only [filesFrom, filesOf, List.map_append]
    refine (ih (above ++ [name])).append (ih' above) ?_
    -- A place of both kinds starts with the name of this entry and with that of another one.
    rintro place hfirst hrest
    obtain ⟨f, hf, rfl⟩ := List.mem_map.mp hfirst
    obtain ⟨f', hf', heq⟩ := List.mem_map.mp hrest
    obtain ⟨name', hname', hprefix'⟩ := prefix_of_mem_filesOf hf'
    have hprefix := prefix_of_mem_filesFrom hf
    rw [heq] at hprefix'
    have hsame := List.prefix_of_prefix_length_le hprefix hprefix' (by simp)
    have hnames : name = name' := by simpa using hsame
    exact hname (hnames ▸ hname')

/-! ### The order of paths -/

/-- Coming first is transitive. -/
theorem comesFirst_trans (a b c : Path.Place × FileContent) (hab : comesFirst a b = true)
    (hbc : comesFirst b c = true) : comesFirst a c = true := by
  simp only [comesFirst, bne_iff_ne, ne_eq, ← Ordering.isLE_iff_ne_gt] at hab hbc ⊢
  exact Std.TransCmp.isLE_trans hab hbc

/-- Of two files one comes first. -/
theorem comesFirst_total (a b : Path.Place × FileContent) :
    (comesFirst a b || comesFirst b a) = true := by
  have hswap : compare a.1 b.1 = (compare b.1 a.1).swap := Std.OrientedCmp.eq_swap
  rw [comesFirst, comesFirst, hswap]
  cases compare b.1 a.1 <;> rfl

/-- Each of two files comes no later than the other one if they have one place. -/
theorem place_eq_of_comesFirst {a b : Path.Place × FileContent} (hab : comesFirst a b = true)
    (hba : comesFirst b a = true) : a.1 = b.1 := by
  have hswap : compare b.1 a.1 = (compare a.1 b.1).swap := Std.OrientedCmp.eq_swap
  rw [comesFirst, hswap] at hba
  have heq : compare a.1 b.1 = .eq := by
    cases hcompare : compare a.1 b.1 <;> simp [comesFirst, hcompare] at hab hba ⊢
  exact Std.LawfulEqCmp.eq_of_compare heq

/-- Files in different places have one order. -/
theorem mergeSort_eq_of_perm {l l' : List (Path.Place × FileContent)} (hperm : l.Perm l')
    (hnodup : (l.map Prod.fst).Nodup) : l.mergeSort comesFirst = l'.mergeSort comesFirst := by
  have hsorted := List.pairwise_mergeSort comesFirst_trans comesFirst_total
  have hsame := (List.mergeSort_perm l comesFirst).trans
    (hperm.trans (List.mergeSort_perm l' comesFirst).symm)
  refine hsame.eq_of_pairwise (fun a b ha hb hab hba => ?_) (hsorted l) (hsorted l')
  have hmem : a ∈ l ∧ b ∈ l := by
    rw [List.mem_mergeSort] at ha hb
    exact ⟨ha, hperm.mem_iff.mpr hb⟩
  exact List.inj_on_of_nodup_map hnodup hmem.1 hmem.2 (place_eq_of_comesFirst hab hba)

/-- The files in the order of their paths do not depend on the orders of listings. -/
theorem sortedFiles_reordered {entries entries' : Listing}
    (h : Reordered (.directory entries) (.directory entries'))
    (hnames : NamesDistinct (.directory entries)) :
    sortedFiles entries = sortedFiles entries' :=
  mergeSort_eq_of_perm (filesFrom_perm h []) (nodup_filesFrom hnames [])

end FileTree

/-- One directory of a library, listed twice. It cannot be listed either time, or the listings
differ in order, at any level. -/
inductive LibraryDirectory.Reordered : LibraryDirectory → LibraryDirectory → Prop
  | unreadable (path : String) (reason : FileError) :
      Reordered ⟨path, .error reason⟩ ⟨path, .error reason⟩
  | listed (path : String) {entries entries' : Listing} :
      FileTree.Reordered (.directory entries) (.directory entries') →
      Reordered ⟨path, .ok entries⟩ ⟨path, .ok entries'⟩

/-- No directory of the library has two entries with one name. -/
def LibraryDirectory.NamesDistinct (d : LibraryDirectory) : Prop :=
  ∀ entries, d.listing = .ok entries → FileTree.NamesDistinct (.directory entries)

namespace Library

/-- What is added from a directory does not depend on the orders of listings. -/
theorem addDirectory_reordered {d d' : LibraryDirectory} (h : d.Reordered d')
    (hnames : d.NamesDistinct) (c : Catalog) : addDirectory c d = addDirectory c d' := by
  cases h with
  | unreadable path reason => rfl
  | listed path h =>
    simp only [addDirectory, FileTree.sortedFiles_reordered h (hnames _ rfl)]

/-- A library is loaded alike in whatever orders its directories are listed: to the same catalog, or
up to the same error, which names the same path. -/
theorem load_reordered {directories directories' : List LibraryDirectory}
    (h : List.Forall₂ LibraryDirectory.Reordered directories directories')
    (hnames : ∀ d ∈ directories, d.NamesDistinct) : load directories = load directories' := by
  -- Each directory starts from the catalog that those before it left.
  have hfold : ∀ c, directories.foldlM addDirectory c = directories'.foldlM addDirectory c := by
    induction h with
    | nil => exact fun c => rfl
    | @cons d d' rest rest' hd _ ih =>
      intro c
      rw [List.foldlM_cons, List.foldlM_cons,
        addDirectory_reordered hd (hnames d List.mem_cons_self)]
      exact congrArg _ (funext (ih fun e he => hnames e (List.mem_cons_of_mem _ he)))
  rw [load, load, hfold]

end Library

namespace Sample

/-- A file without a text. -/
def blank : FileTree := .file (.ok [])

/-- A directory of two directories with such files. -/
def blanks : Listing :=
  [("a", .directory [("1.role_definition.json", blank), ("2.role_definition.json", blank)]),
   ("b", .directory [("3.role_definition.json", blank)])]

/-- The same directory, listed backwards at both levels. -/
def blanksBackwards : Listing :=
  [("b", .directory [("3.role_definition.json", blank)]),
   ("a", .directory [("2.role_definition.json", blank), ("1.role_definition.json", blank)])]

end Sample

namespace Library

/-- Both ways the file that comes first by its path is blamed. -/
theorem load_reordered_blanks :
    List.Forall₂ LibraryDirectory.Reordered [⟨"library", .ok Sample.blanks⟩]
      [⟨"library", .ok Sample.blanksBackwards⟩] ∧
    (∀ d ∈ [(⟨"library", .ok Sample.blanks⟩ : LibraryDirectory)], d.NamesDistinct) ∧
    load [⟨"library", .ok Sample.blanks⟩] = load [⟨"library", .ok Sample.blanksBackwards⟩] ∧
    load [⟨"library", .ok Sample.blanks⟩] =
      .error (.notAnEntry "library/a/1.role_definition.json" .roleDefinition) := by
  -- The directories change places, and so do the two files of the one.
  have hlevels :
      FileTree.Reordered (.directory Sample.blanks) (.directory Sample.blanksBackwards) :=
    .trans (.swap _ _ _) (.cons "b" (.refl _) (.cons "a" (.swap _ _ _) .nil))
  have hdirectories : List.Forall₂ LibraryDirectory.Reordered [⟨"library", .ok Sample.blanks⟩]
      [⟨"library", .ok Sample.blanksBackwards⟩] :=
    .cons (.listed "library" hlevels) .nil
  have hnames : ∀ d ∈ [(⟨"library", .ok Sample.blanks⟩ : LibraryDirectory)], d.NamesDistinct := by
    rintro d hd entries hentries
    obtain rfl := List.mem_singleton.mp hd
    obtain rfl := Except.ok.inj hentries
    exact .cons (by decide) (.cons (by decide) (.file _) (.cons (by decide) (.file _) .nil))
      (.cons (by decide) (.cons (by decide) (.file _) .nil) .nil)
  -- The listing has the order of the paths already, so the first blank file is the first to be
  -- loaded.
  have hsorted : FileTree.sortedFiles Sample.blanks = FileTree.filesOf [] Sample.blanks :=
    List.mergeSort_of_pairwise (by decide +kernel)
  have hkind : kindOf? "1.role_definition.json" = some .roleDefinition := by decide +kernel
  have hpath : pathOf "library" ["a", "1.role_definition.json"] =
      "library/a/1.role_definition.json" := by
    decide +kernel
  have hblank : Json.Excerpt.ofBytes? [] = none := by decide +kernel
  have hfirst : addDirectory .empty ⟨"library", .ok Sample.blanks⟩ =
      .error (.notAnEntry "library/a/1.role_definition.json" .roleDefinition) := by
    have hadd : addFile "library" .empty (["a", "1.role_definition.json"], .ok []) =
        .error (.notAnEntry "library/a/1.role_definition.json" .roleDefinition) := by
      simp only [addFile, List.getLast?, List.getLast, Option.bind_some, hkind, hpath, hblank,
        Option.bind_none]
    simp only [addDirectory, hsorted]
    exact congrArg (· >>= _) hadd
  refine ⟨hdirectories, hnames, load_reordered hdirectories hnames, ?_⟩
  simp only [load, List.foldlM_cons, hfirst]
  rfl

end Library

end Governance
