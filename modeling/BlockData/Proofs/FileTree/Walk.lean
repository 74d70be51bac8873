import BlockData.FileTree.Walk
import BlockData.Proofs.Dict
import BlockData.Proofs.Text.Bytes

/-!
# What a walk meets

A walk of a directory meets the files in it in one order, which can be told without a walk: of
two files comes first the one whose names from the top are smaller, name by name and in the order
of their bytes.  As a directory and what is in it have the names up to it in common, this is depth
first, siblings in the order of their names.

* `files` lists the files of a tree: all of them (`mem_files_iff`) and in this order
  (`pairwise_files`);
* `visits_eq_map_files` says that a walk meets these files and nothing else if it can enter all
  directories;
* `walk?_of_locate?` says that a walk from a root, which may be a link, is one of the directory
  that lies there.
-/

namespace BlockData.FileTree

/-! ## All places of a tree -/

/-- What holds of files and links, and of a directory if it holds of its entries, holds of every
tree. -/
@[elab_as_elim]
theorem induct {motive : FileTree → Prop} (file : ∀ content, motive (.file content))
    (link : ∀ target, motive (.link target))
    (directory : ∀ entries, (∀ entry ∈ entries, motive entry.2) → motive (.directory entries)) :
    ∀ tree, motive tree
  | .file content => file content
  | .link target => link target
  | .directory entries => directory entries fun (_, tree) _ => induct file link directory tree
  termination_by tree => sizeOf tree
  decreasing_by
    have := List.sizeOf_lt_of_mem ‹_›
    simp only [FileTree.directory.sizeOf_spec, Prod.mk.sizeOf_spec] at *
    omega

theorem lookup_eq_get? (entries : List (String × FileTree)) (name : String) :
    entries.lookup name = Entries.get? entries name := by
  induction entries with
  | nil => rfl
  | cons entry rest ih =>
    rw [List.lookup_cons, Entries.get?, ih]
    by_cases h : entry.1 = name
    · simp [h]
    · rw [if_neg h, beq_eq_false_iff_ne.2 (Ne.symm h)]

theorem found_iff_mem {entries : List (String × FileTree)} (h : Entries.Distinct entries)
    {name : String} {tree : FileTree} :
    entry? name (.directory entries) = some tree ↔ (name, tree) ∈ entries := by
  change entries.lookup name = some tree ↔ (name, tree) ∈ entries
  rw [lookup_eq_get?]
  exact ⟨Entries.mem_of_get?, Entries.get?_of_mem h⟩

/-- Below a directory lies what lies below its entries. -/
theorem at?_cons_eq_some_iff {tree inner : FileTree} {name : String} {rest : List String} :
    tree.at? (name :: rest) = some inner ↔
      ∃ child, tree.entry? name = some child ∧ child.at? rest = some inner := by
  rw [at?]
  cases tree.entry? name <;> simp

/-- Something holds at every place of a tree, of the names that lead there and of what is
there. -/
def Everywhere (P : List String → FileTree → Prop) (tree : FileTree) : Prop :=
  ∀ names inner, tree.at? names = some inner → P names inner

section Everywhere

variable {P : List String → FileTree → Prop}

theorem everywhere_iff_of_leaf {tree : FileTree} (h : ∀ name, tree.entry? name = none) :
    tree.Everywhere P ↔ P [] tree := by
  refine ⟨fun hall => hall [] tree rfl, ?_⟩
  rintro htree (_ | ⟨name, rest⟩) inner hinner
  · obtain rfl := Option.some.inj hinner
    exact htree
  · simp [at?_cons_eq_some_iff, h] at hinner

theorem everywhere_file_iff {content : ByteArray} :
    (file content).Everywhere P ↔ P [] (.file content) :=
  everywhere_iff_of_leaf fun _ => rfl

theorem everywhere_link_iff {target : String} :
    (link target).Everywhere P ↔ P [] (.link target) :=
  everywhere_iff_of_leaf fun _ => rfl

theorem everywhere_directory_iff {entries : List (String × FileTree)}
    (h : Entries.Distinct entries) :
    (directory entries).Everywhere P ↔
      P [] (.directory entries) ∧
        ∀ entry ∈ entries, entry.2.Everywhere fun names => P (entry.1 :: names) := by
  constructor
  · intro hall
    refine ⟨hall [] _ rfl, ?_⟩
    rintro ⟨name, child⟩ hmem names inner hinner
    exact hall _ inner (at?_cons_eq_some_iff.2 ⟨child, (found_iff_mem h).2 hmem, hinner⟩)
  · rintro ⟨htop, hentries⟩ (_ | ⟨name, rest⟩) inner hinner
    · obtain rfl := Option.some.inj hinner
      exact htop
    · rcases at?_cons_eq_some_iff.1 hinner with ⟨child, hchild, hrest⟩
      exact hentries _ ((found_iff_mem h).1 hchild) rest inner hrest

end Everywhere

/-- No name stands twice in any directory of a tree, which is so in every file system. -/
def WellNamed (tree : FileTree) : Prop :=
  tree.Everywhere fun _ inner => ∀ entries, inner = .directory entries → Entries.Distinct entries

/-- The path of names below a root. -/
def pathBelow (root : String) (names : List String) : String :=
  names.foldl join root

/-- Every directory of a tree can be entered if the tree lies at `root`. -/
def Enterable (root : String) (tree : FileTree) : Prop :=
  tree.Everywhere fun names inner =>
    ∀ entries, inner = .directory entries → isFollowable (pathBelow root names)

@[simp] theorem wellNamed_file (content : ByteArray) : (file content).WellNamed :=
  everywhere_file_iff.2 nofun

@[simp] theorem wellNamed_link (target : String) : (link target).WellNamed :=
  everywhere_link_iff.2 nofun

theorem WellNamed.distinct {entries : List (String × FileTree)}
    (h : (directory entries).WellNamed) : Entries.Distinct entries :=
  h [] _ rfl entries rfl

theorem wellNamed_directory_iff {entries : List (String × FileTree)} :
    (directory entries).WellNamed ↔
      Entries.Distinct entries ∧ ∀ entry ∈ entries, entry.2.WellNamed := by
  refine ⟨fun h => ⟨h.distinct, ((everywhere_directory_iff h.distinct).1 h).2⟩, ?_⟩
  rintro ⟨hdistinct, hentries⟩
  refine (everywhere_directory_iff hdistinct).2 ⟨?_, hentries⟩
  rintro others heq
  cases heq
  exact hdistinct

@[simp] theorem enterable_file (root : String) (content : ByteArray) :
    (file content).Enterable root :=
  everywhere_file_iff.2 nofun

@[simp] theorem enterable_link (root : String) (target : String) : (link target).Enterable root :=
  everywhere_link_iff.2 nofun

theorem enterable_directory_iff {root : String} {entries : List (String × FileTree)}
    (h : Entries.Distinct entries) :
    (directory entries).Enterable root ↔
      isFollowable root ∧ ∀ entry ∈ entries, entry.2.Enterable (join root entry.1) := by
  refine (everywhere_directory_iff h).trans (and_congr_left' ?_)
  exact ⟨fun htop => htop entries rfl, fun hpath _ _ => hpath⟩

/-! ## The files of a tree -/

/-- A file and the names that lead to it. -/
structure Placed where
  names : List String
  content : ByteArray

namespace Placed

/-- The name of a file. -/
def name (file : Placed) : String :=
  file.names.getLastD ""

/-- The same file from the directory above. -/
def below (name : String) (file : Placed) : Placed :=
  { file with names := name :: file.names }

/-- A file comes before another one: where their names part it has the smaller bytes. -/
def Before (first second : Placed) : Prop :=
  first.names.map Text.bytes < second.names.map Text.bytes

theorem before_below_iff {name : String} {first second : Placed} :
    (first.below name).Before (second.below name) ↔ first.Before second := by
  simp [Before, below]

theorem before_of_lt {name other : String} (h : name < other) (first second : Placed) :
    (first.below name).Before (second.below other) :=
  List.Lex.rel (Text.bytes_lt_iff.2 h)

theorem ne_of_before {first second : Placed} (h : first.Before second) : first ≠ second := by
  rintro rfl
  exact List.lt_irrefl _ h

theorem not_before_of_before {first second : Placed} (h : first.Before second) :
    ¬ second.Before first :=
  List.lt_asymm h

end Placed

/-- Files that are listed in order are told by which files they are. -/
theorem eq_of_pairwise_before {files others : List Placed} (h : files.Pairwise Placed.Before)
    (hothers : others.Pairwise Placed.Before) (hmem : ∀ file, file ∈ files ↔ file ∈ others) :
    files = others := by
  have hnodup : ∀ {files : List Placed}, files.Pairwise Placed.Before → files.Nodup :=
    fun h => h.imp Placed.ne_of_before
  refine List.Perm.eq_of_pairwise ?_ h hothers
    ((List.perm_ext_iff_of_nodup (hnodup h) (hnodup hothers)).2 hmem)
  intro a b _ _ hab hba
  exact absurd hba (Placed.not_before_of_before hab)

/-- Entries in the order of their names. -/
def sorted (entries : List (String × FileTree)) : List (String × FileTree) :=
  entries.mergeSort fun a b => decide (a.1 ≤ b.1)

theorem mem_sorted_iff {entries : List (String × FileTree)} {entry : String × FileTree} :
    entry ∈ sorted entries ↔ entry ∈ entries :=
  List.mem_mergeSort

theorem pairwise_sorted {entries : List (String × FileTree)} (h : Entries.Distinct entries) :
    (sorted entries).Pairwise fun a b => a.1 < b.1 := by
  have hle : (sorted entries).Pairwise fun a b => a.1 ≤ b.1 := by
    have hsorted := @List.pairwise_mergeSort _
      (fun a b : String × FileTree => decide (a.1 ≤ b.1))
      (fun a b c hab hbc => by
        simp only [decide_eq_true_eq] at *
        exact hab.trans hbc)
      (fun a b => by
        simp only [Bool.or_eq_true, decide_eq_true_eq]
        exact le_total a.1 b.1)
      entries
    exact hsorted.imp of_decide_eq_true
  have hne : (sorted entries).Pairwise fun a b => a.1 ≠ b.1 :=
    List.pairwise_map.1 (((List.mergeSort_perm entries _).map _).nodup_iff.2 h)
  exact hle.imp₂ (fun _ _ => lt_of_le_of_ne) hne

/-- It makes no difference whether entries are sorted before or after something is made of each of
them. -/
theorem flatMap_mergeSort {α : Type} (entries : List (String × FileTree))
    (g : String × FileTree → List α) :
    ((entries.map fun entry => (entry.1, g entry)).mergeSort
        fun a b => decide (a.1 ≤ b.1)).flatMap (·.2) = (sorted entries).flatMap g := by
  rw [sorted, ← List.map_mergeSort (r := fun a b => decide (a.1 ≤ b.1)) (fun _ _ _ _ => rfl),
    List.flatMap_map]

mutual

/-- The files in a tree, in the order of a walk. -/
def files : FileTree → List Placed
  | .file content => [⟨[], content⟩]
  | .link _ => []
  | .directory entries =>
    ((filesOfEntries entries).mergeSort fun a b => decide (a.1 ≤ b.1)).flatMap (·.2)

/-- The files in each entry of a directory. -/
def filesOfEntries : List (String × FileTree) → List (String × List Placed)
  | [] => []
  | (name, tree) :: rest => (name, (files tree).map (.below name)) :: filesOfEntries rest

end

theorem filesOfEntries_eq_map (entries : List (String × FileTree)) :
    filesOfEntries entries =
      entries.map fun entry => (entry.1, (files entry.2).map (.below entry.1)) := by
  induction entries with
  | nil => rfl
  | cons entry rest ih => rw [filesOfEntries, ih, List.map_cons]

theorem files_directory (entries : List (String × FileTree)) :
    files (.directory entries) =
      (sorted entries).flatMap fun entry => (files entry.2).map (.below entry.1) := by
  rw [files, filesOfEntries_eq_map]
  exact flatMap_mergeSort entries fun entry => (files entry.2).map (Placed.below entry.1)

theorem mem_files_directory_iff {entries : List (String × FileTree)} {file : Placed} :
    file ∈ files (.directory entries) ↔
      ∃ entry ∈ entries, ∃ inner ∈ entry.2.files, inner.below entry.1 = file := by
  simp only [files_directory, List.mem_flatMap, mem_sorted_iff, List.mem_map]

/-- All files of a tree are there. -/
theorem mem_files_iff (tree : FileTree) (h : tree.WellNamed) (file : Placed) :
    file ∈ tree.files ↔ tree.at? file.names = some (.file file.content) := by
  induction tree using induct generalizing file with
  | file content =>
    rcases file with ⟨_ | ⟨name, rest⟩, found⟩
    · simp [files, at?, eq_comm]
    · simp [files, at?, entry?]
  | link target =>
    rcases file with ⟨_ | ⟨name, rest⟩, found⟩
    · simp [files, at?]
    · simp [files, at?, entry?]
  | directory entries ih =>
    rcases wellNamed_directory_iff.1 h with ⟨hdistinct, hentries⟩
    rcases file with ⟨_ | ⟨name, rest⟩, found⟩
    · simp [mem_files_directory_iff, Placed.below, at?]
    · -- a file in a directory is a file in the tree under its first name
      simp only [mem_files_directory_iff, at?_cons_eq_some_iff, found_iff_mem hdistinct]
      constructor
      · rintro ⟨⟨_, child⟩, hentry, inner, hinner, heq⟩
        obtain ⟨⟨rfl, rfl⟩, rfl⟩ := by simpa [Placed.below] using heq
        exact ⟨child, hentry, (ih _ hentry (hentries _ hentry) inner).1 hinner⟩
      · rintro ⟨child, hentry, hat⟩
        exact ⟨_, hentry, ⟨rest, found⟩, (ih _ hentry (hentries _ hentry) _).2 hat, rfl⟩

/-- The files of a tree stand depth first, siblings in the order of their names. -/
theorem pairwise_files (tree : FileTree) (h : tree.WellNamed) :
    tree.files.Pairwise Placed.Before := by
  induction tree using induct with
  | file content => exact List.pairwise_singleton _ _
  | link target => exact .nil
  | directory entries ih =>
    rcases wellNamed_directory_iff.1 h with ⟨hdistinct, hentries⟩
    rw [files_directory, List.pairwise_flatMap]
    constructor
    · -- files in one entry
      intro entry hmem
      have hentry := mem_sorted_iff.1 hmem
      refine List.pairwise_map.2 ((ih entry hentry (hentries entry hentry)).imp ?_)
      exact Placed.before_below_iff.2
    · -- files in entries of different names part there
      refine (pairwise_sorted hdistinct).imp ?_
      intro first second hlt x hx y hy
      rcases List.mem_map.1 hx with ⟨x, -, rfl⟩
      rcases List.mem_map.1 hy with ⟨y, -, rfl⟩
      exact Placed.before_of_lt hlt x y

/-! ## Walks -/

/-- What a walk meets of a file in a tree that lies at `root` and is called `name`. -/
def Placed.visit (root name : String) (file : Placed) : Visit :=
  let path := pathBelow root file.names
  .file ⟨path, file.names.getLastD name, if isFollowable path then some file.content else none⟩

theorem Placed.visit_below (root name entry : String) (file : Placed) :
    (file.below entry).visit root name = file.visit (join root entry) entry := by
  rw [visit, below, List.getLastD_cons]
  rfl

theorem visitsOfEntries_eq_map (path : String) (entries : List (String × FileTree)) :
    visitsOfEntries path entries =
      entries.map fun entry => (entry.1, visits (join path entry.1) entry.1 entry.2) := by
  induction entries with
  | nil => rfl
  | cons entry rest ih => rw [visitsOfEntries, ih, List.map_cons]

theorem visits_directory {path : String} (h : isFollowable path) (name : String)
    (entries : List (String × FileTree)) :
    visits path name (.directory entries) =
      (sorted entries).flatMap fun entry => visits (join path entry.1) entry.1 entry.2 := by
  rw [visits, if_pos h, visitsOfEntries_eq_map]
  exact flatMap_mergeSort entries fun entry => visits (join path entry.1) entry.1 entry.2

/-- A walk that can enter all directories meets the files of a tree and nothing else. -/
theorem visits_eq_map_files (path name : String) {tree : FileTree} (hnamed : tree.WellNamed)
    (henter : tree.Enterable path) :
    visits path name tree = tree.files.map (Placed.visit path name) := by
  induction tree using induct generalizing path name with
  | file content => rfl
  | link target => rfl
  | directory entries ih =>
    rcases wellNamed_directory_iff.1 hnamed with ⟨hdistinct, hentries⟩
    rcases (enterable_directory_iff hdistinct).1 henter with ⟨hpath, henters⟩
    rw [visits_directory hpath, files_directory, List.map_flatMap]
    refine List.flatMap_congr fun entry hmem => ?_
    have hentry := mem_sorted_iff.1 hmem
    rw [ih entry hentry _ _ (hentries entry hentry) (henters entry hentry), List.map_map]
    exact List.map_congr_left fun file _ => (file.visit_below path name entry.1).symm

/-! ## Roots -/

/-- Following a path leads to the same place whether or not a link at its end is followed, unless
there is one. -/
theorem exists_resolve?_false {links : Nat} {top : FileTree} {here parts place : List String}
    (h : resolve? true links top here parts = some place) :
    ∃ other, resolve? false links top here parts = some other ∧
      (other = place ∨ ∃ target, top.at? other = some (.link target)) := by
  fun_induction resolve? true links top here parts with
  | case1 links here => exact ⟨here, by rw [resolve?], .inl (Option.some.inj h)⟩
  | case2 links here rest ih =>
    rw [resolve?, if_pos rfl]
    exact ih h
  -- the path leads nowhere
  | case3 | case5 | case7 | case10 => simp_all
  | case4 links here rest hhere hdot ih =>
    rw [resolve?, if_neg hdot, if_pos rfl, if_neg hhere]
    exact ih h
  | case6 here part rest hdot hdots target hlink _ links targetParts hparts ih =>
    simp only [resolve?, if_neg hdot, if_neg hdots, hlink, hparts]
    -- a link at the end is where the two part
    by_cases hrest : rest = []
    · exact ⟨here ++ [part], by simp [hrest], .inr ⟨target, hlink⟩⟩
    · simpa [hrest] using ih h
  | case8 links here part rest hdot hdots entries hdirectory ih =>
    simp only [resolve?, if_neg hdot, if_neg hdots, hdirectory]
    exact ih h
  | case9 links here part hdot hdots hlink hdirectory =>
    refine ⟨here ++ [part], ?_, .inl (Option.some.inj h)⟩
    rw [resolve?, if_neg hdot, if_neg hdots]
    split
    · next target hat => exact absurd hat (hlink target)
    · next entries hat => exact absurd hat (hdirectory entries)
    · rfl

/-- A walk from a root at which a directory lies is one of this directory. -/
theorem walk?_of_locate? {top : FileTree} {root : String} {entries : List (String × FileTree)}
    (h : top.locate? root = some (.directory entries)) :
    ∃ name, top.walk? root = some (visits root name (.directory entries)) := by
  obtain ⟨place, hplace, hentries⟩ := Option.bind_eq_some_iff.1 h
  obtain ⟨parts, hparts, hresolve⟩ := Option.bind_eq_some_iff.1 hplace
  obtain ⟨other, hother, rfl | ⟨target, hlink⟩⟩ := exists_resolve?_false hresolve
  · have hentry : top.locateEntry? root = some (.directory entries) := by
      simp [hparts, hother, hentries, locateEntry?]
    exact ⟨lastName root, by rw [walk?, hentry]⟩
  · have hentry : top.locateEntry? root = some (.link target) := by
      simp [hparts, hother, hlink, locateEntry?]
    exact ⟨"", by simp only [walk?, hentry, h]⟩

end BlockData.FileTree
