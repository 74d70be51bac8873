import BlockData.Proofs.Chain.Order
import BlockData.Proofs.Schema.Concern

/-!
# Blocks that no rule is about

A block whose identifier is the key of no rule is never given another identifier, and therefore
passes through all schemas of an upgrade as it stands.  `other_rules_have_no_influence` puts
this together with what holds of a single document.
-/

namespace BlockData

/-- A schema without rules for a block does nothing to it if no name is pending. -/
theorem Schema.apply_of_not_concerns {schema : Schema} {document : RuleDocument}
    (hcompile : document.compile = .ok { schema with label := none }) {state : BlockState}
    (h : ¬ document.Concerns state.identifier) (hpending : state.pending = none) :
    schema.apply state = state := by
  calc schema.apply state
      = document.effect state := apply_eq_effect_of_compile hcompile state
    _ = state.takePending := RuleDocument.effect_of_not_concerns h
    _ = state := by simp only [BlockState.takePending, hpending]

namespace Chain

/-- Schemas without rules for a block do nothing to it, one after the other. -/
theorem applyAll_of_not_concerns {schemas : List Schema} {state : BlockState}
    (hpending : state.pending = none)
    (h : ∀ schema ∈ schemas, ∃ document : RuleDocument,
      document.compile = .ok { schema with label := none } ∧
        ¬ document.Concerns state.identifier) :
    applyAll schemas state = state := by
  induction schemas with
  | nil => rfl
  | cons schema rest ih =>
    rcases List.forall_mem_cons.1 h with ⟨⟨document, hcompile, hnot⟩, hrest⟩
    -- the block keeps its identifier, so that the other schemas do not concern it either
    have hstep := Schema.apply_of_not_concerns hcompile hnot hpending
    calc applyAll (schema :: rest) state
        = applyAll rest (schema.apply state) := rfl
      _ = applyAll rest state := by rw [hstep]
      _ = state := ih hrest

/-- An upgrade by schemas without rules for a block puts the block in lower case and takes its
pending name away. -/
theorem upgrade_of_not_concerns {chain : Chain} {state : BlockState} {source : Version}
    (h : ∀ schema ∈ chain.schemas, source < schema.version → ∃ document : RuleDocument,
      document.compile = .ok { schema with label := none } ∧
        ¬ document.Concerns (Text.lowercase state.identifier)) :
    chain.upgrade state source =
      ({ state.normalize with pending := none }, (chain.latest?.map (max source)).getD source) := by
  have hnewer : ∀ schema ∈ chain.newerThan source, ∃ document : RuleDocument,
      document.compile = .ok { schema with label := none } ∧
        ¬ document.Concerns (Text.lowercase state.identifier) := by
    intro schema hschema
    rw [newerThan_eq_filter, List.mem_filter] at hschema
    exact h schema hschema.1 (of_decide_eq_true hschema.2)
  have hstay : applyAll (chain.newerThan source) { state.normalize with pending := none } =
      { state.normalize with pending := none } :=
    applyAll_of_not_concerns rfl hnewer
  rw [upgrade, hstay, lastVersion_newerThan]

/-- Rules for other blocks have no influence.  A document that keeps only the rules whose key is
the identifier of a block, up to letter case, compiles and does the same to the block.  A block
whose identifier is the key of no rule newer than the source is put in lower case and loses the
name that is pending; the names of its properties, their order and their other values stay. -/
theorem other_rules_have_no_influence :
    (∀ (document : RuleDocument) (schema : Schema), document.compile = .ok schema →
      ∀ state : BlockState, ∃ reduced, (document.about state.identifier).compile = .ok reduced ∧
        reduced.apply state = schema.apply state) ∧
    (∀ (chain : Chain) (state : BlockState) (source : Version),
      (∀ schema ∈ chain.schemas, source < schema.version → ∃ document : RuleDocument,
        document.compile = .ok { schema with label := none } ∧
          ¬ document.Concerns (Text.lowercase state.identifier)) →
      chain.upgrade state source =
        (⟨Text.lowercase state.identifier, state.properties.map (·.map PropertyValue.normalized),
            none⟩,
          (chain.latest?.map (max source)).getD source) ∧
      ∀ before ∈ state.properties, ∀ after ∈ (chain.upgrade state source).1.properties,
        after.keys = before.keys ∧
        ∀ name value, before.get? name = some value → (∀ text, value ≠ .string text) →
          after.get? name = some value) := by
  constructor
  · intro document schema hcompile state
    rcases RuleDocument.compile_about hcompile state.identifier with ⟨reduced, hreduced⟩
    refine ⟨reduced, hreduced, ?_⟩
    rw [apply_eq_effect_of_compile hreduced, apply_eq_effect_of_compile hcompile,
      RuleDocument.effect_about]
  · intro chain state source h
    have hupgrade := upgrade_of_not_concerns h
    refine ⟨hupgrade, ?_⟩
    intro before hbefore after hafter
    -- no schema acts, and only texts are put in lower case before
    have hsame : before.map PropertyValue.normalized = after := by
      simpa [hupgrade, BlockState.normalize, Option.mem_def.1 hbefore] using hafter
    rw [← hsame]
    refine ⟨Entries.keys_mapValues _ _, ?_⟩
    intro name value hvalue hother
    rw [Dict.get?_map, hvalue, Option.map_some]
    cases value with
    | string text => exact absurd rfl (hother text)
    | int n => rfl
    | byte n => rfl

/-- Leaves among rules for logs, and a log that has left the schema with rules for it behind. -/
theorem other_rules_have_no_influence_on_leaves :
    let leaves : BlockState := ⟨"x:leaves", some (.ofList [("Kind", .string "pine")]), some "x:p"⟩
    let log : BlockState :=
      ⟨"X:LOG", some (.ofList [("Kind", .string "Pine"), ("Age", .byte 3)]), some "X:Old"⟩
    (∃ schema reduced, treeDocument.compile = .ok schema ∧
      (treeDocument.about leaves.identifier).compile = .ok reduced ∧
      reduced.apply leaves = schema.apply leaves ∧ reduced.actions.length < schema.actions.length) ∧
    treeDocument.Concerns (Text.lowercase log.identifier) ∧
    treeChain.upgrade log ⟨1, 20, 0, 0⟩ =
      (⟨"x:log", some (.ofList [("Kind", .string "pine"), ("Age", .byte 3)]), none⟩,
        ⟨1, 21, 0, 0⟩) := by
  intro leaves log
  have h := other_rules_have_no_influence
  refine ⟨?_, by decide +kernel, ?_⟩
  · rcases h.1 treeDocument _ rfl leaves with ⟨reduced, hreduced, happly⟩
    refine ⟨_, reduced, rfl, hreduced, happly, ?_⟩
    rw [(RuleDocument.compile_eq_ok_iff.1 hreduced).2]
    decide +kernel
  · have hnot : ∀ schema ∈ treeChain.schemas, (⟨1, 20, 0, 0⟩ : Version) < schema.version →
        ∃ document : RuleDocument, document.compile = .ok { schema with label := none } ∧
          ¬ document.Concerns (Text.lowercase log.identifier) := by
      intro schema hschema hnewer
      -- only the schema for firs is newer, which has no rule for logs
      rcases List.mem_cons.1 hschema with rfl | hschema
      · exact absurd hnewer (by decide)
      · obtain rfl := List.mem_singleton.1 hschema
        exact ⟨firDocument, rfl, by decide +kernel⟩
    rw [(h.2 treeChain log ⟨1, 20, 0, 0⟩ hnot).1]
    decide +kernel

end Chain
end BlockData
