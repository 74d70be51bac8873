import BlockData.Proofs.Chain.Documents
import BlockData.Proofs.Chain.Selection
import BlockData.Proofs.Schema.Effect

/-!
# Blocks without a place for properties

Rules on properties have nothing to work on where a block has no place for properties, not even
those that ask for no property at all.  Such a block goes through an upgrade by its identifier
alone, and only the sections of new identifiers have a part in it.

* `newIdentifier` is what one such section makes of an identifier;
* `upgrade_of_no_properties` follows the identifier through an upgrade;
* `only_new_identifiers_count` adds that no other step does anything to the block.
-/

namespace BlockData

/-- The identifier that a section of new identifiers gives to a block: the target of the last
key that is its identifier up to letter case.  Without such a key it keeps its own. -/
def newIdentifier (identifier : String) (renamedIds : Dict String) : String :=
  ((renamedIds.concerning identifier).getLast?.map Text.lowercase).getD identifier

/-- A schema gives a block without a place for properties its new identifier, and nothing else. -/
theorem Schema.CompiledFrom.apply_of_no_properties {schema : Schema} {document : RuleDocument}
    (h : schema.CompiledFrom document) (identifier : String) :
    schema.apply ⟨identifier, none, none⟩ =
      ⟨newIdentifier identifier document.renamedIds, none, none⟩ := by
  have heffect : schema.apply ⟨identifier, none, none⟩ =
      document.effect ⟨identifier, none, none⟩ :=
    apply_eq_effect_of_compile h _
  rw [heffect, RuleDocument.effect, Option.or_none]
  rfl

namespace Chain

/-- Schemas one after the other give new identifiers one after the other. -/
theorem applyAll_of_no_properties {schemas : List Schema} {documents : List RuleDocument}
    (h : List.Forall₂ Schema.CompiledFrom schemas documents) (identifier : String) :
    applyAll schemas ⟨identifier, none, none⟩ =
      ⟨(documents.map (·.renamedIds)).foldl newIdentifier identifier, none, none⟩ := by
  induction h generalizing identifier with
  | nil => rfl
  | @cons schema document schemas documents hfirst _ ih =>
    -- the identifier that the first schema gives selects the rules of the next one
    calc applyAll (schema :: schemas) ⟨identifier, none, none⟩
        = applyAll schemas (schema.apply ⟨identifier, none, none⟩) := rfl
      _ = applyAll schemas ⟨newIdentifier identifier document.renamedIds, none, none⟩ := by
          rw [hfirst.apply_of_no_properties]
      _ = _ := ih _

/-- An upgrade takes the identifier of a block without a place for properties through the new
identifiers of the schemas newer than its source, in the order of their versions. -/
theorem upgrade_of_no_properties {chain : Chain} {documents : List RuleDocument}
    {source : Version}
    (h : List.Forall₂ Schema.CompiledFrom (chain.schemas.filter (source < ·.version)) documents)
    {state : BlockState} (hstate : state.properties = none) :
    (chain.upgrade state source).1 =
      ⟨(documents.map (·.renamedIds)).foldl newIdentifier (Text.lowercase state.identifier),
        none, none⟩ := by
  have hstart : ({ state.normalize with pending := none } : BlockState) =
      ⟨Text.lowercase state.identifier, none, none⟩ := by
    simp only [BlockState.normalize, hstate, Option.map_none]
  rw [← newerThan_eq_filter] at h
  rw [← applyAll_of_no_properties h, ← hstart]
  rfl

/-- Only new identifiers count for a block without a place for properties.  Each schema newer
than its source is compiled from a document, and the block passes through the new identifiers of
these documents in the order of versions, starting from its own identifier in lower case.  No
step but those of new identifiers and the last one of a schema does anything to it. -/
theorem only_new_identifiers_count {chain : Chain} (h : chain.FromDocuments)
    {state : BlockState} (hstate : state.properties = none) (source : Version) :
    (∃ documents,
      List.Forall₂ Schema.CompiledFrom (chain.schemas.filter (source < ·.version)) documents) ∧
    (∀ documents,
      List.Forall₂ Schema.CompiledFrom (chain.schemas.filter (source < ·.version)) documents →
      (chain.upgrade state source).1 =
        ⟨(documents.map (·.renamedIds)).foldl newIdentifier (Text.lowercase state.identifier),
          none, none⟩) ∧
    ∀ action : Action, (∀ renames, action ≠ .renameIds renames) → action.isFinal = false →
      ∀ identifier pending,
        action.apply ⟨identifier, none, pending⟩ = (⟨identifier, none, pending⟩, .proceed) := by
  refine ⟨fromDocument_iff_exists_documents.1 ?_,
    fun _ hdocuments => upgrade_of_no_properties hdocuments hstate, ?_⟩
  · intro schema hschema
    exact h schema (List.mem_filter.1 hschema).1
  · intro action hids hfinal identifier pending
    exact apply_of_no_properties identifier pending hids hfinal

/-- Stumps have been trunks, and a rule for trunks asks for no property. -/
def stumpDocument : RuleDocument :=
  { RuleDocument.unchanged ⟨1, 21, 0, 0⟩ with
    remappedStates := .ofList [("x:trunk", [⟨some .empty, none, [], some "x:never", none⟩])]
    renamedIds := .ofList [("X:Trunk", "X:Stump")]
    addedProperties := .ofList [("x:trunk", .ofList [("age", ⟨some 1, none, none⟩)])] }

/-- The chain that makes trunks of logs, and stumps of trunks. -/
def stumpChain : Chain where
  schemas := [⟨logDocument.version, logDocument.steps, none⟩,
    ⟨stumpDocument.version, stumpDocument.steps, none⟩]
  sorted := by decide

/-- A log without a place for properties becomes a stump. -/
theorem only_new_identifiers_count_for_log :
    stumpChain.FromDocuments ∧
    (stumpChain.upgrade ⟨"X:LOG", none, some "x:old"⟩ .zero).1 = ⟨"x:stump", none, none⟩ ∧
    (Action.remapStates "x:trunk" [⟨.empty, .empty, [], .literal "x:never"⟩]).apply
      ⟨"x:trunk", none, none⟩ = (⟨"x:trunk", none, none⟩, .proceed) := by
  have hdocuments : List.Forall₂ Schema.CompiledFrom stumpChain.schemas
      [logDocument, stumpDocument] :=
    .cons rfl (.cons rfl .nil)
  have hchain : stumpChain.FromDocuments := fromDocument_iff_exists_documents.2 ⟨_, hdocuments⟩
  have hnewer : stumpChain.schemas.filter (Version.zero < ·.version) = stumpChain.schemas := by
    decide +kernel
  have hnone : (BlockState.mk "X:LOG" none (some "x:old")).properties = none := rfl
  have h := only_new_identifiers_count hchain hnone .zero
  rw [hnewer] at h
  refine ⟨hchain, (h.2.1 _ hdocuments).trans ?_, h.2.2 _ (by simp) rfl _ _⟩
  decide +kernel

end Chain
end BlockData
