import BlockData.Proofs.Chain.Documents
import BlockData.Proofs.FileTree.Walk
import BlockData.Proofs.Rule.Text

/-!
# Rule files

Loading heeds the rule files below a directory, which their names tell, and each of them gives a
schema unless something is wrong with its bytes.

* `ListsRuleFiles` says what the list of the rule files in a tree is, and `lists_ruleFiles` that
  `ruleFiles` is this list;
* `visits_eq_map_ruleFiles` says that a walk of a readable directory meets them and nothing else
  that loading heeds;
* `loadFile_eq_ok_iff` and `loadFile_eq_error_iff` say what becomes of the bytes of a file.
-/

namespace BlockData.Chain

open FileTree (Placed pathBelow)

/-! ## Rule files of a tree -/

/-- The name of a rule file is `.json` after a stem. -/
def IsRuleName (name : String) : Prop :=
  ∃ stem, stem ≠ "" ∧ name = stem ++ ".json"

theorem isRuleFile_iff {name : String} : isRuleFile name ↔ IsRuleName name := by
  rw [isRuleFile, Bool.and_eq_true, List.isSuffixOf_iff_suffix, decide_eq_true_iff]
  constructor
  · rintro ⟨⟨stem, hstem⟩, hne⟩
    have hname : name = String.ofList stem ++ ".json" := by
      rw [← String.toList_inj, String.toList_append, String.toList_ofList, hstem]
    refine ⟨_, ?_, hname⟩
    intro hempty
    exact hne (by simpa [hempty] using hname)
  · rintro ⟨stem, hstem, rfl⟩
    refine ⟨⟨stem.toList, by simp⟩, ?_⟩
    intro heq
    have hlist := congrArg String.toList heq
    rw [String.toList_append, List.append_left_eq_self, String.toList_eq_nil_iff] at hlist
    exact hstem hlist

/-- A tree that lies at `root` can be read: each directory in it can be entered, and each rule
file be opened. -/
structure Readable (root : String) (tree : FileTree) : Prop where
  enterable : tree.Enterable root
  openable : ∀ file : Placed, tree.at? file.names = some (.file file.content) →
    IsRuleName file.name → FileTree.isFollowable (pathBelow root file.names)

/-- Files are all the rule files in a tree, each once and in the order of a walk: depth first and
siblings in the order of the bytes of their names. -/
structure ListsRuleFiles (tree : FileTree) (files : List Placed) : Prop where
  mem_iff : ∀ file, file ∈ files ↔
    tree.at? file.names = some (.file file.content) ∧ IsRuleName file.name
  sorted : files.Pairwise Placed.Before

theorem ListsRuleFiles.eq_of_lists {tree : FileTree} {files others : List Placed}
    (h : ListsRuleFiles tree files) (hothers : ListsRuleFiles tree others) : others = files := by
  refine FileTree.eq_of_pairwise_before hothers.sorted h.sorted fun file => ?_
  rw [h.mem_iff, hothers.mem_iff]

/-- The rule files in a tree. -/
def ruleFiles (tree : FileTree) : List Placed :=
  tree.files.filter (isRuleFile ·.name)

theorem lists_ruleFiles {tree : FileTree} (h : tree.WellNamed) :
    ListsRuleFiles tree (ruleFiles tree) := by
  refine ⟨fun file => ?_, (tree.pairwise_files h).filter _⟩
  rw [ruleFiles, List.mem_filter, tree.mem_files_iff h, isRuleFile_iff]

/-- A rule file that has been opened. -/
def opened (root : String) (file : Placed) : FileTree.Found :=
  ⟨pathBelow root file.names, file.name, some file.content⟩

/-- What a walk of a readable directory meets and loading heeds are the rule files in it. -/
theorem visits_eq_map_ruleFiles {root : String} {entries : List (String × FileTree)}
    (hnamed : (FileTree.directory entries).WellNamed)
    (hreadable : Readable root (.directory entries)) (name : String) :
    (FileTree.visits root name (.directory entries)).filter isHeeded =
      (ruleFiles (.directory entries)).map fun file => .file (opened root file) := by
  -- the name of the root is that of no file
  have hname : FileTree.visits root name (.directory entries) =
      FileTree.visits root "" (.directory entries) := rfl
  rw [hname, FileTree.visits_eq_map_files root "" hnamed hreadable.enterable, ruleFiles,
    List.filter_map]
  refine List.map_congr_left fun file hfile => ?_
  obtain ⟨hmem, hrule⟩ := List.mem_filter.1 hfile
  have hat := (FileTree.mem_files_iff _ hnamed file).1 hmem
  have hopen := hreadable.openable file hat (isRuleFile_iff.1 hrule)
  simp only [Placed.visit, opened, Placed.name, if_pos hopen]

/-! ## The bytes of a file -/

/-- The bytes of a file are a text, the text is a rule document, and the document compiles to a
schema. -/
def Compiles (content : ByteArray) (schema : Schema) : Prop :=
  ∃ text document, String.fromUTF8? content = some text ∧
    RuleDocument.read? text = some document ∧ document.compile = .ok schema

/-- What is wrong with the bytes of the file at a path. -/
inductive Fails (path : String) (content : ByteArray) : LoadError → Prop where
  /-- They are no text. -/
  | notText : String.fromUTF8? content = none → Fails path content (.unreadable path)
  /-- The text is no rule document. -/
  | malformed {text : String} : String.fromUTF8? content = some text →
      RuleDocument.read? text = none → Fails path content (.schema path .malformed)
  /-- The document does not compile. -/
  | defect {text : String} {document : RuleDocument} {error : CompileError} :
      String.fromUTF8? content = some text → RuleDocument.read? text = some document →
      document.compile = .error error → Fails path content (.schema path (.defect error))

/-- The bytes of a file give a schema unless something is wrong with them. -/
theorem compiles_or_fails (path : String) (content : ByteArray) :
    (∃ schema, Compiles content schema) ∨ ∃ error, Fails path content error := by
  cases htext : String.fromUTF8? content with
  | none => exact .inr ⟨_, .notText htext⟩
  | some text =>
    cases hread : RuleDocument.read? text with
    | none => exact .inr ⟨_, .malformed htext hread⟩
    | some document =>
      cases hcompile : document.compile with
      | error e => exact .inr ⟨_, .defect htext hread hcompile⟩
      | ok schema => exact .inl ⟨schema, text, document, htext, hread, hcompile⟩

/-- The text of a document that compiles gives its schema. -/
theorem compiles_text {document : RuleDocument} {schema : Schema}
    (h : document.compile = .ok schema) : Compiles document.text.toUTF8 schema :=
  ⟨document.text, document, Text.fromUTF8?_toUTF8 _,
    RuleDocument.read?_of_presented document.presented_toJson document.spelledBy_text, h⟩

theorem value_read_of_document {text : String} {document : RuleDocument}
    (h : RuleDocument.read? text = some document) :
    (Schema.read text).value = document.compile.mapError .defect := by
  simp only [Schema.read, h, Logged.value_bind, Schema.value_ofDocument]
  cases document.compile <;> rfl

/-- The schema in a file is labelled with the name of the file. -/
theorem loadFile_of_compiles {content : ByteArray} {schema : Schema} (h : Compiles content schema)
    (path name : String) :
    (loadFile ⟨path, name, some content⟩).value = .ok (schema.withLabel name) := by
  obtain ⟨text, document, htext, hread, hcompile⟩ := h
  simp [loadFile, FileTree.Found.text?, htext, value_read_of_document hread, hcompile,
    Except.mapError]

theorem loadFile_of_fails {path : String} {content : ByteArray} {error : LoadError}
    (h : Fails path content error) (name : String) :
    (loadFile ⟨path, name, some content⟩).value = .error error := by
  cases h with
  | notText htext => simp [loadFile, FileTree.Found.text?, htext]
  | malformed htext hread => simp [loadFile, FileTree.Found.text?, htext, Schema.read, hread]
  | defect htext hread hcompile =>
    simp [loadFile, FileTree.Found.text?, htext, value_read_of_document hread, hcompile,
      Except.mapError]

theorem loadFile_eq_ok_iff {path name : String} {content : ByteArray} {schema : Schema} :
    (loadFile ⟨path, name, some content⟩).value = .ok schema ↔
      ∃ compiled, Compiles content compiled ∧ schema = compiled.withLabel name := by
  constructor
  · intro h
    rcases compiles_or_fails path content with ⟨compiled, hcompiled⟩ | ⟨error, herror⟩
    · rw [loadFile_of_compiles hcompiled, Except.ok.injEq] at h
      exact ⟨compiled, hcompiled, h.symm⟩
    · simp [loadFile_of_fails herror] at h
  · rintro ⟨compiled, hcompiled, rfl⟩
    exact loadFile_of_compiles hcompiled path name

theorem loadFile_eq_error_iff {path name : String} {content : ByteArray} {error : LoadError} :
    (loadFile ⟨path, name, some content⟩).value = .error error ↔ Fails path content error := by
  refine ⟨fun h => ?_, fun h => loadFile_of_fails h name⟩
  rcases compiles_or_fails path content with ⟨compiled, hcompiled⟩ | ⟨other, hother⟩
  · simp [loadFile_of_compiles hcompiled] at h
  · rw [loadFile_of_fails hother, Except.error.injEq] at h
    exact h ▸ hother

theorem exists_loadFile_eq_ok_iff {path name : String} {content : ByteArray} :
    (∃ schema, (loadFile ⟨path, name, some content⟩).value = .ok schema) ↔
      ∃ schema, Compiles content schema := by
  simp only [loadFile_eq_ok_iff]
  exact ⟨fun ⟨_, compiled, h, _⟩ => ⟨compiled, h⟩, fun ⟨compiled, h⟩ => ⟨_, compiled, h, rfl⟩⟩

end BlockData.Chain
