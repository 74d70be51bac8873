import BlockData.Proofs.Chain.Documents
import BlockData.Proofs.Chain.Search
import BlockData.Proofs.Failure

/-!
# How chains are built and which schemas they apply

A chain is a stable sort of the schemas that it is made of, so that schemas with versions of
their own give the same chain in whatever order they come.  An upgrade applies the schemas
newer than its source, each once and in order, and leads to the later one of its source and
the newest version of the chain.  Documents give a chain if all of them compile.

* `perm_ofSchemas`, `filter_ofSchemas` and `ofSchemas_eq_of_perm` are about sorting;
* `upgrade_eq` is about upgrades;
* `ofDocuments_eq_ok_iff` and `ofDocuments_eq_error_iff` are about documents;
* `order_and_selection` puts them together.
-/

namespace BlockData.Chain

/-! ## Sorting -/

theorem inOrder_iff {a b : Schema} : inOrder a b ↔ a.version ≤ b.version :=
  decide_eq_true_iff

theorem inOrder_trans (a b c : Schema) (hab : inOrder a b) (hbc : inOrder b c) : inOrder a c :=
  inOrder_iff.2 (Version.le_trans (inOrder_iff.1 hab) (inOrder_iff.1 hbc))

theorem inOrder_total (a b : Schema) : inOrder a b || inOrder b a := by
  rw [Bool.or_eq_true, inOrder_iff, inOrder_iff]
  exact Version.le_total a.version b.version

/-- A chain has the schemas that it is made of. -/
theorem perm_ofSchemas (schemas : List Schema) : (ofSchemas schemas).schemas.Perm schemas :=
  List.mergeSort_perm schemas inOrder

/-- Schemas of equal version keep the order in which they are given. -/
theorem filter_ofSchemas (schemas : List Schema) (version : Version) :
    (ofSchemas schemas).schemas.filter (·.version = version) =
      schemas.filter (·.version = version) := by
  have hequal : (schemas.filter (·.version = version)).Pairwise fun a b => inOrder a b := by
    refine List.pairwise_filter.2 (List.pairwise_of_forall ?_)
    intro a b ha hb
    rw [inOrder_iff, of_decide_eq_true ha, of_decide_eq_true hb]
    exact version.le_refl
  -- a part of the list that is in order stays a part of it
  have hsub : (schemas.filter (·.version = version)).Sublist (ofSchemas schemas).schemas :=
    List.sublist_mergeSort inOrder_trans inOrder_total hequal List.filter_sublist
  have hfilter := hsub.filter (·.version = version)
  simp only [List.filter_filter, Bool.and_self] at hfilter
  have hperm := (perm_ofSchemas schemas).filter (·.version = version)
  exact (hfilter.eq_of_length hperm.symm.length_eq).symm

/-- Schemas with versions of their own stand in a strict order. -/
theorem pairwise_lt_ofSchemas {schemas : List Schema}
    (h : schemas.Pairwise fun a b => a.version ≠ b.version) :
    (ofSchemas schemas).schemas.Pairwise fun a b => a.version < b.version := by
  have hdistinct : (ofSchemas schemas).schemas.Pairwise fun a b => a.version ≠ b.version :=
    ((perm_ofSchemas schemas).pairwise_iff fun hab => hab.symm).2 h
  refine ((ofSchemas schemas).sorted.and hdistinct).imp ?_
  rintro a b ⟨hle, hne⟩
  refine Version.not_le.1 fun hge => ?_
  exact hne (Version.le_antisymm hle hge)

/-- Schemas with versions of their own give one chain, in whatever order they come. -/
theorem ofSchemas_eq_of_perm {first second : List Schema} (hperm : first.Perm second)
    (hdistinct : first.Pairwise fun a b => a.version ≠ b.version) :
    ofSchemas first = ofSchemas second := by
  have hsame : (ofSchemas first).schemas.Perm (ofSchemas second).schemas :=
    ((perm_ofSchemas first).trans hperm).trans (perm_ofSchemas second).symm
  have hdistinct' : second.Pairwise fun a b => a.version ≠ b.version :=
    (hperm.pairwise_iff fun hab => hab.symm).1 hdistinct
  have heq : (ofSchemas first).schemas = (ofSchemas second).schemas := by
    refine List.Perm.eq_of_pairwise ?_ (pairwise_lt_ofSchemas hdistinct)
      (pairwise_lt_ofSchemas hdistinct') hsame
    intro a b _ _ hab hba
    simp only [Version.lt_iff_number_lt] at hab hba
    omega
  rcases hfirst : ofSchemas first with ⟨schemas, sorted⟩
  rcases hsecond : ofSchemas second with ⟨others, sorted'⟩
  rw [hfirst, hsecond] at heq
  subst heq
  rfl

/-! ## The version reached -/

/-- An upgrade leads to the later one of its source and the newest version of the chain. -/
theorem lastVersion_newerThan (chain : Chain) (source : Version) :
    lastVersion (chain.newerThan source) source = (chain.latest?.map (max source)).getD source := by
  have hlatest : chain.latest? = ((chain.newerThan source).getLast?.or
      (chain.upTo source).schemas.getLast?).map (·.version) := by
    rw [latest?, chain.schemas_eq_append source, List.getLast?_append]
  rw [hlatest, lastVersion]
  cases hlast : (chain.newerThan source).getLast? with
  | some last =>
    have hmem := List.mem_of_getLast? hlast
    rw [newerThan_eq_filter, List.mem_filter] at hmem
    have hle : source ≤ last.version := by
      have hlt : source < last.version := of_decide_eq_true hmem.2
      rw [Version.lt_iff_number_lt] at hlt
      rw [Version.le_iff_number_le]
      omega
    simp [Version.max_eq_right hle]
  | none =>
    -- nothing is newer, the newest schema included
    cases hnewest : (chain.upTo source).schemas.getLast? with
    | none => rfl
    | some newest =>
      have hmem : newest ∈ (chain.upTo source).schemas := List.mem_of_getLast? hnewest
      have hle : newest.version ≤ source := of_decide_eq_true (List.mem_filter.1 hmem).2
      simp [Version.max_eq_left hle]

/-- An upgrade applies the schemas newer than its source, each of them once and in order. -/
theorem upgrade_eq (chain : Chain) (state : BlockState) (source : Version) :
    chain.upgrade state source =
      ((chain.schemas.filter (source < ·.version)).foldl (fun state schema => schema.apply state)
          { state.normalize with pending := none },
        (chain.latest?.map (max source)).getD source) := by
  rw [← newerThan_eq_filter, ← lastVersion_newerThan]
  rfl

/-! ## Documents -/

/-- Documents are compiled one after the other. -/
theorem value_compileAll (documents : List RuleDocument) :
    (compileAll documents).value = documents.mapM RuleDocument.compile := by
  induction documents with
  | nil => rfl
  | cons document rest ih =>
    rw [compileAll, Logged.value_bind, Schema.value_ofDocument, Failure.mapM_cons, ← ih]
    cases document.compile with
    | error e => rfl
    | ok schema =>
      simp only [Logged.value_bind, Except.bind]
      cases (compileAll rest).value <;> rfl

theorem value_ofDocuments (documents : List RuleDocument) :
    (ofDocuments documents).value = (documents.mapM RuleDocument.compile).map ofSchemas := by
  rw [← value_compileAll]
  rfl

/-- Documents give a chain if each of them compiles, which is then the chain of the schemas. -/
theorem ofDocuments_eq_ok_iff {documents : List RuleDocument} {chain : Chain} :
    (ofDocuments documents).value = .ok chain ↔
      ∃ schemas, documents.map RuleDocument.compile = schemas.map .ok ∧
        chain = ofSchemas schemas := by
  rw [value_ofDocuments]
  simp only [← Failure.mapM_eq_ok_iff]
  cases documents.mapM RuleDocument.compile <;> simp [Except.map, eq_comm]

/-- The error of documents is that of the first one which does not compile. -/
theorem ofDocuments_eq_error_iff {documents : List RuleDocument} {error : CompileError} :
    (ofDocuments documents).value = .error error ↔
      ∃ before document after, documents = before ++ document :: after ∧
        (∀ other ∈ before, ∃ schema, other.compile = .ok schema) ∧
        document.compile = .error error := by
  rw [value_ofDocuments, ← Failure.mapM_eq_error_iff]
  cases documents.mapM RuleDocument.compile <;> simp [Except.map]

/-! ## Order and selection -/

/-- Making a chain sorts its schemas and keeps the order of those with equal versions.  An
upgrade applies the schemas newer than its source, which the search by halving finds, each once
and in this order, and leads to the later one of its source and the newest version.  Hence the
order in which schemas with versions of their own are given does not matter.  Documents give no
chain exactly if one of them does not compile, and the first of these gives the error. -/
theorem order_and_selection :
    (∀ schemas : List Schema,
      (ofSchemas schemas).schemas.Perm schemas ∧
      (ofSchemas schemas).schemas.Pairwise (fun a b => a.version ≤ b.version) ∧
      ∀ version, (ofSchemas schemas).schemas.filter (·.version = version) =
        schemas.filter (·.version = version)) ∧
    (∀ (chain : Chain) (state : BlockState) (source : Version),
      chain.schemas.drop (chain.firstNewer source) = chain.schemas.filter (source < ·.version) ∧
      chain.upgrade state source =
        ((chain.schemas.filter (source < ·.version)).foldl
            (fun state schema => schema.apply state) { state.normalize with pending := none },
          (chain.latest?.map (max source)).getD source)) ∧
    (∀ first second : List Schema, first.Perm second →
      first.Pairwise (fun a b => a.version ≠ b.version) → ∀ state source,
      (ofSchemas first).upgrade state source = (ofSchemas second).upgrade state source) ∧
    (∀ documents : List RuleDocument,
      ((∃ error, (ofDocuments documents).value = .error error) ↔
        ∃ document ∈ documents, ∃ error, document.compile = .error error) ∧
      (∀ error, (ofDocuments documents).value = .error error ↔
        ∃ before document after, documents = before ++ document :: after ∧
          (∀ other ∈ before, ∃ schema, other.compile = .ok schema) ∧
          document.compile = .error error) ∧
      (∀ chain, (ofDocuments documents).value = .ok chain ↔
        ∃ schemas, documents.map RuleDocument.compile = schemas.map .ok ∧
          chain = ofSchemas schemas)) := by
  refine ⟨?_, ?_, ?_, ?_⟩
  · intro schemas
    exact ⟨perm_ofSchemas schemas, (ofSchemas schemas).sorted, filter_ofSchemas schemas⟩
  · intro chain state source
    refine ⟨?_, chain.upgrade_eq state source⟩
    -- the schemas are sorted, so that the newer ones are the last
    rw [drop_firstNewer, newerThan_eq_filter]
  · intro first second hperm hdistinct state source
    rw [ofSchemas_eq_of_perm hperm hdistinct]
  · intro documents
    refine ⟨?_, fun _ => ofDocuments_eq_error_iff, fun _ => ofDocuments_eq_ok_iff⟩
    rw [← Failure.exists_error_iff, value_ofDocuments]
    cases documents.mapM RuleDocument.compile <;> simp [Except.map]

/-! ## Documents with defects -/

/-- A state rule of it gives no name. -/
def namelessDocument : RuleDocument :=
  { RuleDocument.unchanged ⟨1, 20, 5, 0⟩ with
    remappedStates := .ofList [("X:Log", [⟨none, none, [], none, none⟩])] }

/-- A property refers to a lookup table that it does not have. -/
def danglingDocument : RuleDocument :=
  { RuleDocument.unchanged ⟨1, 20, 6, 0⟩ with
    remappedValues := .ofList [("x:log", .ofList [("side", "sides")])] }

/-- Two schemas in either order, and four documents of which the second and the third have a
defect. -/
theorem order_and_selection_of_trees :
    let tree : Schema := ⟨treeDocument.version, treeDocument.steps, none⟩
    let fir : Schema := ⟨firDocument.version, firDocument.steps, none⟩
    ([fir, tree].Perm [tree, fir] ∧ [fir, tree].Pairwise (fun a b => a.version ≠ b.version)) ∧
    (∀ state source,
      (ofSchemas [fir, tree]).upgrade state source = (ofSchemas [tree, fir]).upgrade state source) ∧
    (ofDocuments [treeDocument, namelessDocument, danglingDocument, firDocument]).value =
      .error (.missingNewName "x:log") ∧
    danglingDocument.compile = .error (.unknownLookup "x:log" "side" "sides") := by
  intro tree fir
  have h := order_and_selection
  have hperm : [fir, tree].Perm [tree, fir] := List.Perm.swap tree fir []
  have hdistinct : [fir, tree].Pairwise fun a b => a.version ≠ b.version := by decide
  refine ⟨⟨hperm, hdistinct⟩, h.2.2.1 _ _ hperm hdistinct, ?_, by rfl⟩
  refine ((h.2.2.2 _).2.1 _).2 ⟨[treeDocument], namelessDocument, _, rfl, ?_, by rfl⟩
  intro document hdocument
  obtain rfl := List.mem_singleton.1 hdocument
  exact ⟨_, rfl⟩

end BlockData.Chain
