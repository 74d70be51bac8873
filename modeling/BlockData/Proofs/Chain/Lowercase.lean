import BlockData.Proofs.Chain.Documents

/-!
# Upgrades end in lower case

An upgrade starts from a settled state, every compiled schema leads from one settled state
to the next, and so the state is settled after each schema of the run and at its end.
-/

namespace BlockData.Chain

/-- Schemas one after the other keep a state settled. -/
theorem settled_applyAll {schemas : List Schema} (h : ∀ schema ∈ schemas, schema.FromDocument)
    {state : BlockState} (hstate : state.Settled) : (applyAll schemas state).Settled :=
  List.foldlRecOn schemas _ hstate fun _ ih schema hschema =>
    (h schema hschema).settled_apply ih.inLowercase

/-- The schemas of an upgrade stand in the chain. -/
theorem FromDocuments.fromDocument_of_mem_newerThan {chain : Chain} (h : chain.FromDocuments)
    {source : Version} {schema : Schema} (hschema : schema ∈ chain.newerThan source) :
    schema.FromDocument :=
  h schema ((List.dropWhile_sublist _).subset hschema)

/-- The state that an upgrade gives is settled. -/
theorem FromDocuments.settled_upgrade {chain : Chain} (h : chain.FromDocuments)
    (state : BlockState) (source : Version) : (chain.upgrade state source).1.Settled :=
  settled_applyAll (fun _ => h.fromDocument_of_mem_newerThan) state.settled_normalize

/-- The state is settled after every schema of an upgrade, and when the upgrade is done. -/
theorem settled_throughout_upgrade {chain : Chain} (h : chain.FromDocuments) (state : BlockState)
    (source : Version) :
    (∀ done, done <+: chain.newerThan source →
      (applyAll done { state.normalize with pending := none }).Settled) ∧
    (chain.upgrade state source).1.Settled := by
  refine ⟨?_, h.settled_upgrade state source⟩
  -- a part of the run is a run of schemas from documents, too
  intro done hdone
  refine settled_applyAll ?_ state.settled_normalize
  intro schema hschema
  exact h.fromDocument_of_mem_newerThan (hdone.subset hschema)

/-- A log in capital letters on its way through two schemas. -/
theorem settled_throughout_upgrade_of_log :
    let log : BlockState := ⟨"X:LOG", some (.ofList [("Kind", .string "Pine")]), some "X:Old"⟩
    (∀ done, done <+: treeChain.newerThan .zero →
      (applyAll done { log.normalize with pending := none }).Settled) ∧
    (treeChain.upgrade log .zero).1.Settled ∧
    treeChain.upgrade log .zero =
      (⟨"x:silver_fir_log", some (.ofList [("side", .string "up")]), none⟩, ⟨1, 21, 0, 0⟩) := by
  intro log
  have h := settled_throughout_upgrade fromDocuments_treeChain log .zero
  exact ⟨h.1, h.2, by decide +kernel⟩

end BlockData.Chain
