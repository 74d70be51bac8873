import BlockData.Proofs.Chain.Order
import BlockData.Proofs.Chain.RuleFile

/-!
# Chains of directories

A directory gives the chain of the rule files in it, whatever else lies there.  They are read in
the order of a walk; the first one that gives no schema is the error, and the limit is looked at
when all have been read.

* `StableSort` says which chain is made of schemas in an order, and `stableSort_limit` that it
  does not matter whether the ones beyond a limit are left out before or after sorting;
* `load_eq_ok_iff` and `load_eq_error_iff` say what comes of the files that a walk meets;
* `directories_are_loaded` puts them together.
-/

namespace BlockData.Chain

open FileTree (Placed pathBelow)

/-! ## Sorting and leaving out -/

/-- A chain has certain schemas, and those of equal version in the order in which they are
given. -/
structure StableSort (chain : Chain) (schemas : List Schema) : Prop where
  perm : chain.schemas.Perm schemas
  stable : ∀ version, chain.schemas.filter (·.version = version) =
    schemas.filter (·.version = version)

theorem stableSort_ofSchemas (schemas : List Schema) : (ofSchemas schemas).StableSort schemas :=
  ⟨perm_ofSchemas schemas, filter_ofSchemas schemas⟩

theorem version_head_le {first schema : Schema} {rest : List Schema}
    (hsorted : (first :: rest).Pairwise fun a b => a.version ≤ b.version)
    (h : schema ∈ first :: rest) : first.version ≤ schema.version := by
  rcases List.mem_cons.1 h with rfl | hrest
  · exact Version.le_refl _
  · exact List.rel_of_pairwise_cons hsorted hrest

theorem mem_iff_of_filter_version_eq {schemas others : List Schema}
    (h : ∀ version, schemas.filter (·.version = version) = others.filter (·.version = version))
    (schema : Schema) : schema ∈ schemas ↔ schema ∈ others := by
  have hversion := congrArg (schema ∈ ·) (h schema.version)
  simpa only [List.mem_filter, decide_true, and_true, eq_iff_iff] using hversion

/-- Schemas in order are told by those of each version. -/
theorem eq_of_filter_version_eq {schemas others : List Schema}
    (hsorted : schemas.Pairwise fun a b => a.version ≤ b.version)
    (hothers : others.Pairwise fun a b => a.version ≤ b.version)
    (h : ∀ version, schemas.filter (·.version = version) = others.filter (·.version = version)) :
    schemas = others := by
  induction schemas generalizing others with
  | nil =>
    refine (List.eq_nil_iff_forall_not_mem.2 fun schema hschema => ?_).symm
    exact List.not_mem_nil ((mem_iff_of_filter_version_eq h schema).2 hschema)
  | cons first rest ih =>
    have hmem := mem_iff_of_filter_version_eq h
    cases others with
    | nil => exact absurd ((hmem first).1 List.mem_cons_self) (by simp)
    | cons second rest' =>
      have hversion : first.version = second.version :=
        Version.le_antisymm
          (version_head_le hsorted ((hmem second).2 List.mem_cons_self))
          (version_head_le hothers ((hmem first).1 List.mem_cons_self))
      -- both come first among the schemas of their version
      have hheads := h first.version
      rw [List.filter_cons_of_pos (by simp), List.filter_cons_of_pos (by simp [hversion])] at hheads
      obtain rfl := (List.cons.inj hheads).1
      refine congrArg (first :: ·) (ih hsorted.tail hothers.tail fun version => ?_)
      have hversions := h version
      by_cases hfirst : first.version = version
      · simpa [hfirst] using hversions
      · simpa [hfirst] using hversions

/-- There is one chain of schemas in an order. -/
theorem StableSort.eq {chain other : Chain} {schemas : List Schema} (h : chain.StableSort schemas)
    (hother : other.StableSort schemas) : chain = other := by
  obtain ⟨first, hfirst⟩ := chain
  obtain ⟨second, hsecond⟩ := other
  obtain rfl : first = second := eq_of_filter_version_eq hfirst hsecond fun version =>
    (h.stable version).trans (hother.stable version).symm
  rfl

/-- A schema is not beyond the limit, if there is one. -/
def isWanted (limit : Option Version) (schema : Schema) : Bool :=
  limit.all (schema.version ≤ ·)

theorem schemas_limit (chain : Chain) (limit : Option Version) :
    (chain.limit limit).value.schemas = chain.schemas.filter (isWanted limit) := by
  cases limit with
  | none => exact (List.filter_eq_self.2 fun _ _ => rfl).symm
  | some version =>
    rw [value_limit_some]
    rfl

/-- It makes no difference whether schemas are left out before or after sorting. -/
theorem stableSort_limit (schemas : List Schema) (limit : Option Version) :
    ((ofSchemas schemas).limit limit).value.StableSort (schemas.filter (isWanted limit)) := by
  have hsort := stableSort_ofSchemas schemas
  constructor
  · rw [schemas_limit]
    exact hsort.perm.filter _
  · intro version
    rw [schemas_limit, List.filter_comm, hsort.stable, List.filter_comm]

/-! ## Directories -/

/-- The schema of a rule file has the version and the steps that its bytes compile to, and its
name as the label. -/
def Gives (file : Placed) (schema : Schema) : Prop :=
  ∃ compiled, Compiles file.content compiled ∧ schema.version = compiled.version ∧
    schema.actions = compiled.actions ∧ schema.label = some file.name

theorem eq_withLabel_iff {schema compiled : Schema} {label : String} :
    schema = compiled.withLabel label ↔ schema.version = compiled.version ∧
      schema.actions = compiled.actions ∧ schema.label = some label := by
  cases schema
  simp [Schema.withLabel]

theorem loadFile_eq_ok_iff_gives {root : String} {file : Placed} {schema : Schema} :
    (loadFile (opened root file)).value = .ok schema ↔ Gives file schema := by
  simp only [opened, loadFile_eq_ok_iff, eq_withLabel_iff, Gives]

section Loading

variable {root : String} {visits : List FileTree.Visit} {files : List Placed}

/-- Files are loaded one after the other. -/
theorem value_loadVisits (root : String) (files : List Placed) :
    (loadVisits root (files.map fun file => .file (opened root file))).value =
      files.mapM fun file => (loadFile (opened root file)).value := by
  induction files with
  | nil => rfl
  | cons file rest ih =>
    rw [List.map_cons, loadVisits, Logged.value_bind, Failure.mapM_cons, ← ih]
    cases (loadFile (opened root file)).value with
    | error e => rfl
    | ok schema =>
      simp only [Logged.value_bind, Except.bind]
      cases (loadVisits root (rest.map fun file => .file (opened root file))).value <;> rfl

/-- All files that loading heeds are loaded and their schemas sorted, and then the limit is looked
at. -/
theorem value_load (h : visits.filter isHeeded = files.map fun file => .file (opened root file))
    (limit : Option Version) :
    (load ⟨root, limit⟩ (some visits)).value =
      (files.mapM fun file => (loadFile (opened root file)).value).map
        fun schemas => ((ofSchemas schemas).limit limit).value := by
  simp only [load, h, Logged.value_bind, value_loadVisits]
  cases files.mapM fun file => (loadFile (opened root file)).value <;> rfl

theorem load_eq_error_iff
    (h : visits.filter isHeeded = files.map fun file => .file (opened root file))
    (limit : Option Version) (error : LoadError) :
    (load ⟨root, limit⟩ (some visits)).value = .error error ↔
      ∃ before file after, files = before ++ file :: after ∧
        (∀ other ∈ before, ∃ schema, Compiles other.content schema) ∧
        Fails (pathBelow root file.names) file.content error := by
  rw [value_load h, Failure.map_eq_error_iff, Failure.mapM_eq_error_iff]
  simp only [opened, loadFile_eq_error_iff, exists_loadFile_eq_ok_iff]

theorem exists_load_eq_error_iff
    (h : visits.filter isHeeded = files.map fun file => .file (opened root file))
    (limit : Option Version) :
    (∃ error, (load ⟨root, limit⟩ (some visits)).value = .error error) ↔
      ∃ file ∈ files, ¬ ∃ schema, Compiles file.content schema := by
  have hnot : ∀ result : Except LoadError Schema,
      (∃ error, result = .error error) ↔ ¬ ∃ schema, result = .ok schema := by
    rintro (_ | _) <;> simp
  simp only [value_load h, Failure.map_eq_error_iff, Failure.exists_error_iff, hnot, opened,
    exists_loadFile_eq_ok_iff]

theorem load_eq_ok_iff
    (h : visits.filter isHeeded = files.map fun file => .file (opened root file))
    (limit : Option Version) (chain : Chain) :
    (load ⟨root, limit⟩ (some visits)).value = .ok chain ↔
      ∃ schemas, List.Forall₂ Gives files schemas ∧
        chain.StableSort (schemas.filter (isWanted limit)) := by
  -- files are loaded one by one
  have hgives : ∀ schemas, List.Forall₂ Gives files schemas ↔
      (files.mapM fun file => (loadFile (opened root file)).value) = .ok schemas := by
    intro schemas
    rw [Failure.mapM_eq_ok_iff, ← List.forall₂_eq_eq_eq, List.forall₂_map_left_iff,
      List.forall₂_map_right_iff]
    simp only [loadFile_eq_ok_iff_gives]
  simp only [value_load h, hgives]
  cases files.mapM fun file => (loadFile (opened root file)).value with
  | error e => simp [Except.map]
  | ok schemas =>
    -- there is only one chain of these schemas
    have hsort := stableSort_limit schemas limit
    simp only [Except.map, Except.ok.injEq, exists_eq_left']
    exact ⟨fun heq => heq ▸ hsort, fun hchain => hsort.eq hchain⟩

end Loading

/-- A walk from the root of a readable directory meets its rule files and nothing else that
loading heeds. -/
theorem exists_walk?_of_lists {top : FileTree} {root : String}
    {entries : List (String × FileTree)} (hroot : top.locate? root = some (.directory entries))
    (hnamed : (FileTree.directory entries).WellNamed)
    (hreadable : Readable root (.directory entries)) {files : List Placed}
    (hfiles : ListsRuleFiles (.directory entries) files) :
    ∃ visits, top.walk? root = some visits ∧
      visits.filter isHeeded = files.map fun file => .file (opened root file) := by
  obtain ⟨name, hwalk⟩ := FileTree.walk?_of_locate? hroot
  refine ⟨_, hwalk, ?_⟩
  rw [visits_eq_map_ruleFiles hnamed hreadable, hfiles.eq_of_lists (lists_ruleFiles hnamed)]

/-- A readable directory gives the chain of the rule files in it, which are listed in the order
of a walk.  It gives none exactly if the bytes of one of them are no document that compiles,
whatever the limit, and the first of these gives the error, with its path.  Otherwise the chain is
made of the schemas of all files that are not beyond the limit, sorted by version, those of equal
version in the order of the files, and each labelled with the name of its file.  Nothing else in
the directory has any influence: another directory with the same rule files gives the same. -/
theorem directories_are_loaded {top : FileTree} {root : String}
    {entries : List (String × FileTree)} (hroot : top.locate? root = some (.directory entries))
    (hnamed : (FileTree.directory entries).WellNamed)
    (hreadable : Readable root (.directory entries)) :
    ∃ files, ListsRuleFiles (.directory entries) files ∧
      (∀ others, ListsRuleFiles (.directory entries) others → others = files) ∧
      (∀ limit,
        ((∃ error, (load ⟨root, limit⟩ (top.walk? root)).value = .error error) ↔
          ∃ file ∈ files, ¬ ∃ schema, Compiles file.content schema) ∧
        (∀ error, (load ⟨root, limit⟩ (top.walk? root)).value = .error error ↔
          ∃ before file after, files = before ++ file :: after ∧
            (∀ other ∈ before, ∃ schema, Compiles other.content schema) ∧
            Fails (pathBelow root file.names) file.content error) ∧
        (∀ chain, (load ⟨root, limit⟩ (top.walk? root)).value = .ok chain ↔
          ∃ schemas, List.Forall₂ Gives files schemas ∧
            chain.StableSort (schemas.filter (isWanted limit)))) ∧
      ∀ (other : FileTree) (others : List (String × FileTree)),
        other.locate? root = some (.directory others) →
        (FileTree.directory others).WellNamed → Readable root (.directory others) →
        ListsRuleFiles (.directory others) files →
        ∀ limit, load ⟨root, limit⟩ (other.walk? root) = load ⟨root, limit⟩ (top.walk? root) := by
  have hfiles := lists_ruleFiles hnamed
  obtain ⟨visits, hwalk, hvisits⟩ := exists_walk?_of_lists hroot hnamed hreadable hfiles
  refine ⟨_, hfiles, fun _ => hfiles.eq_of_lists, ?_, ?_⟩
  · intro limit
    rw [hwalk]
    exact ⟨exists_load_eq_error_iff hvisits limit, load_eq_error_iff hvisits limit,
      load_eq_ok_iff hvisits limit⟩
  · -- both walks meet the same files, and loading heeds nothing else
    intro other others hroot' hnamed' hreadable' hsame limit
    obtain ⟨visits', hwalk', hvisits'⟩ := exists_walk?_of_lists hroot' hnamed' hreadable' hsame
    simp only [hwalk, hwalk', load, hvisits, hvisits']

/-! ## A directory in use -/

/-- What only looks like a rule file, and one that has a short stem. -/
def innerEntries : List (String × FileTree) :=
  [("x.JSON", .file ⟨#[0xff]⟩), ("..json", .file firDocument.text.toUTF8)]

/-- Two other rule files, of which one has certain bytes, and a directory, a file and a link that
are called almost like this. -/
def ruleEntries (last : ByteArray) : List (String × FileTree) := [
  ("z.json", .file last),
  ("b.json", .file treeDocument.text.toUTF8),
  ("a.json", .directory innerEntries),
  (".json", .file ⟨#[0xff]⟩),
  ("c.json", .link "z.json")]

/-- The directory is reached by a link. -/
def linkedTree (last : ByteArray) : FileTree :=
  .directory [("rules", .link "schemas"), ("schemas", .directory (ruleEntries last))]

section Linked

variable (last : ByteArray)

theorem locate?_linkedTree :
    (linkedTree last).locate? "rules" = some (.directory (ruleEntries last)) := by
  have hrules : FileTree.pathParts? "rules" = some ["rules"] := by decide +kernel
  have hschemas : FileTree.pathParts? "schemas" = some ["schemas"] := by decide +kernel
  simp [FileTree.locate?, hrules, hschemas, FileTree.resolve?, linkedTree, FileTree.at?,
    FileTree.entry?, FileTree.linkLimit, List.lookup_cons]

theorem distinct_innerEntries : Entries.Distinct innerEntries := by decide +kernel

theorem distinct_ruleEntries : Entries.Distinct (ruleEntries last) := by
  have hnames : ["z.json", "b.json", "a.json", ".json", "c.json"].Nodup := by decide +kernel
  exact hnames

theorem wellNamed_ruleEntries : (FileTree.directory (ruleEntries last)).WellNamed := by
  have hinner : (FileTree.directory innerEntries).WellNamed :=
    FileTree.wellNamed_directory_iff.2 ⟨distinct_innerEntries, by simp [innerEntries]⟩
  exact FileTree.wellNamed_directory_iff.2
    ⟨distinct_ruleEntries last, by simp [ruleEntries, hinner]⟩

/-- The names `.json` and `x.JSON`, a directory and a link make no rule file. -/
theorem ruleFiles_ruleEntries : ruleFiles (.directory (ruleEntries last)) = [
    ⟨["a.json", "..json"], firDocument.text.toUTF8⟩,
    ⟨["b.json"], treeDocument.text.toUTF8⟩,
    ⟨["z.json"], last⟩] := by
  have hfiles : FileTree.files (.directory (ruleEntries last)) = [
      ⟨[".json"], ⟨#[0xff]⟩⟩,
      ⟨["a.json", "..json"], firDocument.text.toUTF8⟩,
      ⟨["a.json", "x.JSON"], ⟨#[0xff]⟩⟩,
      ⟨["b.json"], treeDocument.text.toUTF8⟩,
      ⟨["z.json"], last⟩] := by
    simp [ruleEntries, innerEntries, FileTree.files, FileTree.filesOfEntries, List.mergeSort,
      Placed.below]
  have hnone : isRuleFile ".json" = false ∧ isRuleFile "x.JSON" = false := by decide +kernel
  have hsome : isRuleFile "..json" ∧ isRuleFile "b.json" ∧ isRuleFile "z.json" := by
    decide +kernel
  rw [ruleFiles, hfiles]
  simp [Placed.name, hnone, hsome]

theorem readable_ruleEntries : Readable "rules" (.directory (ruleEntries last)) := by
  have hinner : (FileTree.directory innerEntries).Enterable (FileTree.join "rules" "a.json") :=
    (FileTree.enterable_directory_iff distinct_innerEntries).2
      ⟨by decide +kernel, by simp only [innerEntries, List.forall_mem_cons]; simp⟩
  have henters : (FileTree.directory (ruleEntries last)).Enterable "rules" :=
    (FileTree.enterable_directory_iff (distinct_ruleEntries last)).2
      ⟨by decide +kernel, by simp only [ruleEntries, List.forall_mem_cons]; simp [hinner]⟩
  refine ⟨henters, fun file hat hrule => ?_⟩
  have hfile := ((lists_ruleFiles (wellNamed_ruleEntries last)).mem_iff file).2 ⟨hat, hrule⟩
  rw [ruleFiles_ruleEntries] at hfile
  simp only [List.mem_cons, List.not_mem_nil, or_false] at hfile
  rcases hfile with rfl | rfl | rfl <;> dsimp only <;> decide +kernel

end Linked

/-- The schema of the document in a file. -/
def schemaIn (name : String) (document : RuleDocument) : Schema :=
  ⟨document.version, document.steps, some name⟩

theorem compiles_treeDocument : Compiles treeDocument.text.toUTF8
    ⟨treeDocument.version, treeDocument.steps, none⟩ :=
  compiles_text rfl

theorem compiles_firDocument : Compiles firDocument.text.toUTF8
    ⟨firDocument.version, firDocument.steps, none⟩ :=
  compiles_text rfl

theorem gives_schemaIn {content : ByteArray} {document : RuleDocument}
    (h : Compiles content ⟨document.version, document.steps, none⟩) (names : List String) :
    Gives ⟨names, content⟩ (schemaIn (names.getLastD "") document) :=
  ⟨_, h, rfl, rfl, rfl⟩

/-- The schemas in the order of a walk, of which the first one is the newest. -/
theorem forall₂_gives_ruleFiles :
    List.Forall₂ Gives (ruleFiles (.directory (ruleEntries treeDocument.text.toUTF8)))
      [schemaIn "..json" firDocument, schemaIn "b.json" treeDocument,
        schemaIn "z.json" treeDocument] := by
  rw [ruleFiles_ruleEntries]
  exact .cons (gives_schemaIn compiles_firDocument _)
    (.cons (gives_schemaIn compiles_treeDocument _)
      (.cons (gives_schemaIn compiles_treeDocument _) .nil))

/-- If the last one of its files is no text, the directory gives the error about it under every
limit.  If all of them compile, it gives the chain of their schemas, or of those under a limit:
the one in the inner directory, which is read first, is the newest. -/
theorem linked_directory_is_loaded :
    let defect : ByteArray := ⟨#[0xff]⟩
    let sound := treeDocument.text.toUTF8
    (∀ last ∈ [defect, sound],
      (linkedTree last).locate? "rules" = some (.directory (ruleEntries last)) ∧
      (FileTree.directory (ruleEntries last)).WellNamed ∧
      Readable "rules" (.directory (ruleEntries last))) ∧
    (∀ limit, (load ⟨"rules", limit⟩ ((linkedTree defect).walk? "rules")).value =
      .error (.unreadable "rules/z.json")) ∧
    (∃ chain, (load ⟨"rules", none⟩ ((linkedTree sound).walk? "rules")).value = .ok chain ∧
      chain.schemas = [schemaIn "b.json" treeDocument, schemaIn "z.json" treeDocument,
        schemaIn "..json" firDocument]) ∧
    ∃ chain,
      (load ⟨"rules", some ⟨1, 20, 9, 9⟩⟩ ((linkedTree sound).walk? "rules")).value = .ok chain ∧
      chain.schemas = [schemaIn "b.json" treeDocument, schemaIn "z.json" treeDocument] := by
  intro defect sound
  refine ⟨fun last _ => ⟨locate?_linkedTree last, wellNamed_ruleEntries last,
    readable_ruleEntries last⟩, ?_, ?_⟩
  · intro limit
    obtain ⟨files, -, hunique, hload, -⟩ := directories_are_loaded (locate?_linkedTree defect)
      (wellNamed_ruleEntries defect) (readable_ruleEntries defect)
    obtain rfl := hunique _ (lists_ruleFiles (wellNamed_ruleEntries defect))
    have hpath : pathBelow "rules" ["z.json"] = "rules/z.json" := by decide +kernel
    rw [(hload limit).2.1, ← hpath]
    -- the files before the last one compile
    refine ⟨[⟨_, _⟩, ⟨_, _⟩], ⟨_, _⟩, [], ruleFiles_ruleEntries defect, ?_,
      .notText (by decide +kernel)⟩
    simp only [List.forall_mem_cons]
    exact ⟨⟨_, compiles_firDocument⟩, ⟨_, compiles_treeDocument⟩, by simp⟩
  · obtain ⟨files, -, hunique, hload, -⟩ := directories_are_loaded (locate?_linkedTree sound)
      (wellNamed_ruleEntries sound) (readable_ruleEntries sound)
    obtain rfl := hunique _ (lists_ruleFiles (wellNamed_ruleEntries sound))
    have hloaded := fun limit =>
      ((hload limit).2.2 _).2 ⟨_, forall₂_gives_ruleFiles, stableSort_ofSchemas _⟩
    have hversions : ¬ firDocument.version ≤ treeDocument.version ∧
        ¬ firDocument.version ≤ ⟨1, 20, 9, 9⟩ ∧ treeDocument.version ≤ ⟨1, 20, 9, 9⟩ := by
      decide +kernel
    refine ⟨⟨_, hloaded none, ?_⟩, ⟨_, hloaded (some _), ?_⟩⟩
    · simp [ofSchemas, isWanted, List.mergeSort, inOrder, schemaIn, List.filter, hversions,
        Version.le_refl]
    · simp [ofSchemas, isWanted, List.mergeSort, inOrder, schemaIn, List.filter, hversions,
        Version.le_refl]

end BlockData.Chain
