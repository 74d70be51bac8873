import BlockData.Chain.Load
import BlockData.Proofs.Schema.Lowercase
import Mathlib.Data.List.Forall2

/-!
# Chains of compiled documents

Every way to a chain, from documents or from a directory, gives one whose schemas are
compiled from rule documents, and leaving schemas out does not change that.
-/

namespace BlockData

namespace Schema

/-- Compiling with a notice gives what compiling gives. -/
@[simp] theorem value_ofDocument (document : RuleDocument) :
    (Schema.ofDocument document).value = document.compile := by
  unfold Schema.ofDocument
  cases document.compile <;> rfl

/-- A schema without a label is one that compiling gave. -/
theorem FromDocument.of_compile {document : RuleDocument} {schema : Schema}
    (h : document.compile = .ok schema) : schema.FromDocument := by
  refine ⟨document, ?_⟩
  rcases RuleDocument.compile_eq_ok_iff.1 h with ⟨-, rfl⟩
  exact h

/-- A label does not change where the steps come from. -/
theorem FromDocument.withLabel {schema : Schema} (h : schema.FromDocument) (label : String) :
    (schema.withLabel label).FromDocument :=
  h

/-- A schema is compiled from a document, whatever it is labelled. -/
def CompiledFrom (schema : Schema) (document : RuleDocument) : Prop :=
  document.compile = .ok { schema with label := none }

theorem fromDocument_of_read {text : String} {schema : Schema}
    (h : (Schema.read text).value = .ok schema) : schema.FromDocument := by
  unfold Schema.read at h
  split at h
  · simp at h
  · next document _ =>
    rw [Logged.value_bind, value_ofDocument] at h
    cases hcompile : document.compile with
    | error e => simp [hcompile] at h
    | ok compiled =>
      have heq : compiled = schema := by simpa [hcompile] using h
      exact heq ▸ .of_compile hcompile

end Schema

namespace Chain

/-- All schemas of a chain are compiled from rule documents. -/
def FromDocuments (chain : Chain) : Prop :=
  ∀ schema ∈ chain.schemas, schema.FromDocument

/-- Schemas are compiled from documents if there is a document for each of them. -/
theorem fromDocument_iff_exists_documents {schemas : List Schema} :
    (∀ schema ∈ schemas, schema.FromDocument) ↔
      ∃ documents, List.Forall₂ Schema.CompiledFrom schemas documents := by
  constructor
  · intro h
    induction schemas with
    | nil => exact ⟨[], .nil⟩
    | cons schema rest ih =>
      rcases List.forall_mem_cons.1 h with ⟨⟨document, hdocument⟩, hrest⟩
      rcases ih hrest with ⟨documents, hdocuments⟩
      exact ⟨document :: documents, .cons hdocument hdocuments⟩
  · rintro ⟨documents, h⟩
    induction h with
    | nil => simp
    | cons hdocument _ ih => exact List.forall_mem_cons.2 ⟨⟨_, hdocument⟩, ih⟩

theorem fromDocuments_ofSchemas {schemas : List Schema}
    (h : ∀ schema ∈ schemas, schema.FromDocument) : (ofSchemas schemas).FromDocuments :=
  fun schema hschema => h schema (List.mem_mergeSort.1 hschema)

theorem FromDocuments.upTo {chain : Chain} (h : chain.FromDocuments) (limit : Version) :
    (chain.upTo limit).FromDocuments :=
  fun schema hschema => h schema (List.mem_filter.1 hschema).1

theorem fromDocument_of_mem_compileAll {documents : List RuleDocument} {schemas : List Schema}
    (h : (compileAll documents).value = .ok schemas) :
    ∀ schema ∈ schemas, schema.FromDocument := by
  induction documents generalizing schemas with
  | nil =>
    obtain rfl : [] = schemas := by simpa [compileAll] using h
    simp
  | cons document rest ih =>
    rw [compileAll, Logged.value_bind, Schema.value_ofDocument] at h
    cases hfirst : document.compile with
    | error e => simp [hfirst] at h
    | ok first =>
      cases hrest : (compileAll rest).value with
      | error e => simp [hfirst, hrest] at h
      | ok others =>
        -- neither the first document nor the others have a defect
        obtain rfl : first :: others = schemas := by simpa [hfirst, hrest] using h
        exact List.forall_mem_cons.2 ⟨.of_compile hfirst, ih hrest⟩

/-- A chain of documents is compiled from them. -/
theorem fromDocuments_of_ofDocuments {documents : List RuleDocument} {chain : Chain}
    (h : (ofDocuments documents).value = .ok chain) : chain.FromDocuments := by
  unfold ofDocuments at h
  cases hall : (compileAll documents).value with
  | error e => simp [hall, Except.map] at h
  | ok schemas =>
    obtain rfl : ofSchemas schemas = chain := by simpa [hall, Except.map] using h
    exact fromDocuments_ofSchemas (fromDocument_of_mem_compileAll hall)

/-! ## Directories -/

theorem fromDocument_of_loadFile {file : FileTree.Found} {schema : Schema}
    (h : (loadFile file).value = .ok schema) : schema.FromDocument := by
  unfold loadFile at h
  split at h
  · simp at h
  · next text _ =>
    rw [Logged.value_bind] at h
    cases hread : (Schema.read text).value with
    | error e => simp [hread] at h
    | ok found =>
      obtain rfl : found.withLabel file.name = schema := by simpa [hread] using h
      exact (Schema.fromDocument_of_read hread).withLabel file.name

theorem fromDocument_of_mem_loadVisits {root : String} {visits : List FileTree.Visit}
    {schemas : List Schema} (h : (loadVisits root visits).value = .ok schemas) :
    ∀ schema ∈ schemas, schema.FromDocument := by
  induction visits generalizing schemas with
  | nil =>
    obtain rfl : [] = schemas := by simpa [loadVisits] using h
    simp
  | cons visit rest ih =>
    cases visit with
    | closed path => simp [loadVisits] at h
    | file file =>
      rw [loadVisits, Logged.value_bind] at h
      cases hfirst : (loadFile file).value with
      | error e => simp [hfirst] at h
      | ok first =>
        cases hrest : (loadVisits root rest).value with
        | error e => simp [hfirst, hrest] at h
        | ok others =>
          obtain rfl : first :: others = schemas := by simpa [hfirst, hrest] using h
          exact List.forall_mem_cons.2 ⟨fromDocument_of_loadFile hfirst, ih hrest⟩

/-- Whether schemas are left out is reported; the chain is the same either way. -/
theorem value_limit_some (chain : Chain) (version : Version) :
    (chain.limit (some version)).value = chain.upTo version := by
  simp only [Chain.limit]
  split
  · rfl
  · rfl

theorem FromDocuments.limit {chain : Chain} (h : chain.FromDocuments) (limit : Option Version) :
    (chain.limit limit).value.FromDocuments := by
  cases limit with
  | none => exact h
  | some version =>
    rw [value_limit_some]
    exact h.upTo version

/-- A limit leaves schemas out after all files have been read: it makes no difference to
whether they can be. -/
theorem value_load_some (directory : String) (limit : Version)
    (walk : Option (List FileTree.Visit)) :
    (load ⟨directory, some limit⟩ walk).value =
      (load ⟨directory, none⟩ walk).value.map (·.upTo limit) := by
  cases walk with
  | none => rfl
  | some visits =>
    simp only [load, Logged.value_bind]
    cases (loadVisits directory (visits.filter isHeeded)).value with
    | error e => rfl
    | ok schemas => exact congrArg Except.ok (value_limit_some (ofSchemas schemas) limit)

/-- A chain that is loaded from a directory is compiled from the documents there. -/
theorem fromDocuments_of_load {config : Config} {walk : Option (List FileTree.Visit)}
    {chain : Chain} (h : (load config walk).value = .ok chain) : chain.FromDocuments := by
  unfold load at h
  split at h
  · simp at h
  · next visits =>
    rw [Logged.value_bind] at h
    cases hloaded : (loadVisits config.directory (visits.filter isHeeded)).value with
    | error e => simp [hloaded] at h
    | ok schemas =>
      obtain rfl : ((ofSchemas schemas).limit config.limit).value = chain := by
        simpa [hloaded] using h
      exact (fromDocuments_ofSchemas (fromDocument_of_mem_loadVisits hloaded)).limit config.limit

end Chain

/-! ## A chain of two documents -/

/-- Logs and leaves get the kind of tree into their names. -/
def treeDocument : RuleDocument :=
  { RuleDocument.unchanged ⟨1, 20, 0, 0⟩ with
    flattenedProperties := .ofList [
      ("X:Log", ⟨"X:", "Kind", "_Log", some (.ofList [("PINE", "Fir")])⟩),
      ("x:leaves", ⟨"X:", "Kind", "_Leaves", none⟩)]
    addedProperties := .ofList [("x:LOG", .ofList [("side", ⟨none, none, some "UP"⟩)])] }

/-- Firs are called otherwise. -/
def firDocument : RuleDocument :=
  { RuleDocument.unchanged ⟨1, 21, 0, 0⟩ with
    renamedIds := .ofList [("x:fir_log", "X:Silver_Fir_Log")] }

/-- The chain of both documents. -/
def treeChain : Chain where
  schemas := [⟨treeDocument.version, treeDocument.steps, none⟩,
    ⟨firDocument.version, firDocument.steps, none⟩]
  sorted := by decide

theorem fromDocuments_treeChain : treeChain.FromDocuments :=
  Chain.fromDocument_iff_exists_documents.2
    ⟨[treeDocument, firDocument], .cons rfl (.cons rfl .nil)⟩

end BlockData
