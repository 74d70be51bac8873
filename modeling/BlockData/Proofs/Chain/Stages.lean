import BlockData.Proofs.Chain.Lowercase
import BlockData.Proofs.Chain.Selection
import BlockData.Proofs.Chain.Tag

/-!
# Upgrades in stages

An upgrade may stop at any version and go on from there.  The second stage starts from a
settled state, so that putting it in lower case changes nothing, and applies the schemas that
the first one has left over.

* `FromDocuments.upgrade_upTo_upgrade` is about block states, `FromDocuments.upgradeTag_upTo`
  about stored ones;
* `upgrade_in_stages` puts both together, with the case that the first stage is all of it.
-/

namespace BlockData

/-! ## Starting again -/

theorem PropertyValue.InLowercase.normalized_eq {value : PropertyValue} (h : value.InLowercase) :
    value.normalized = value := by
  cases value with
  | string text => exact congrArg PropertyValue.string h
  | int value => rfl
  | byte value => rfl

theorem Properties.InLowercase.map_normalized_eq {properties : Properties}
    (h : properties.InLowercase) : properties.map PropertyValue.normalized = properties := by
  refine Dict.ext ((List.map_congr_left ?_).trans (List.map_id _))
  intro pair hpair
  exact Prod.ext rfl (h pair hpair).normalized_eq

/-- A settled state is where an upgrade of it starts. -/
theorem BlockState.Settled.normalize_eq {state : BlockState} (h : state.Settled) :
    { state.normalize with pending := none } = state := by
  rcases state with ⟨identifier, properties, pending⟩
  rcases h with ⟨hidentifier, hproperties, rfl⟩
  have hsame : properties.map (·.map PropertyValue.normalized) = properties := by
    cases properties with
    | none => rfl
    | some properties => exact congrArg some (hproperties properties rfl).map_normalized_eq
  simp only [BlockState.normalize, hsame, hidentifier]

namespace Chain

theorem applyAll_append (first second : List Schema) (state : BlockState) :
    applyAll (first ++ second) state = applyAll second (applyAll first state) :=
  List.foldl_append

/-- An upgrade neither gives a block a place for properties nor takes it away. -/
theorem isSome_properties_upgrade (chain : Chain) (state : BlockState) (source : Version) :
    (chain.upgrade state source).1.properties.isSome = state.properties.isSome := by
  have hall : ∀ schemas (start : BlockState),
      (applyAll schemas start).properties.isSome = start.properties.isSome := by
    intro schemas start
    induction schemas generalizing start with
    | nil => rfl
    | cons schema rest ih =>
      exact (ih _).trans (Schema.isSome_properties_run false schema.actions start)
  exact (hall _ _).trans Option.isSome_map

/-! ## Block states -/

/-- The chain up to a bound and then the whole chain do what the whole chain does. -/
theorem FromDocuments.upgrade_upTo_upgrade {chain : Chain} (h : chain.FromDocuments)
    (limit : Version) (state : BlockState) (source : Version) :
    let stage := (chain.upTo limit).upgrade state source
    chain.upgrade stage.1 stage.2 = chain.upgrade state source := by
  intro stage
  -- the second stage starts from the state that the first one leaves
  have hsettled : stage.1.Settled := (h.upTo limit).settled_upgrade state source
  have hsplit := chain.newerThan_eq_append limit source
  have hversion : lastVersion (chain.newerThan stage.2) stage.2 =
      lastVersion (chain.newerThan source) source := by
    rw [hsplit, lastVersion_append]
    rfl
  have hstate : applyAll (chain.newerThan stage.2) stage.1 =
      applyAll (chain.newerThan source) { state.normalize with pending := none } := by
    rw [hsplit, applyAll_append]
    rfl
  calc chain.upgrade stage.1 stage.2
      = (applyAll (chain.newerThan stage.2) { stage.1.normalize with pending := none },
          lastVersion (chain.newerThan stage.2) stage.2) := rfl
    _ = (applyAll (chain.newerThan stage.2) stage.1,
          lastVersion (chain.newerThan stage.2) stage.2) := by rw [hsettled.normalize_eq]
    _ = chain.upgrade state source := by rw [hstate, hversion]; rfl

/-! ## Stored block states -/

/-- The same for stored block states: the compound and the version are those of one upgrade
by the whole chain. -/
theorem FromDocuments.upgradeTag_upTo {chain : Chain} (h : chain.FromDocuments)
    (limit : Version) {tag : Compound} (distinct : tag.Distinct) :
    (chain.upgradeTag ((chain.upTo limit).upgradeTag tag).value.2).value =
      (chain.upgradeTag tag).value := by
  cases hread : (BlockState.ofTag? tag).value with
  | none => rw [value_upgradeTag_of_none _ hread]
  | some state =>
    have hstages := h.upgrade_upTo_upgrade limit state (storedVersion tag)
    have hsettled := (h.upTo limit).settled_upgrade state (storedVersion tag)
    have hreached : storedVersion tag ≤
        ((chain.upTo limit).upgrade state (storedVersion tag)).2 :=
      le_lastVersion_newerThan (chain.upTo limit) (storedVersion tag)
    rw [value_upgradeTag_of_some _ hread, value_upgradeTag_of_some _ hread]
    simp only at hstages ⊢
    generalize hstage : (chain.upTo limit).upgrade state (storedVersion tag) = stage at *
    have hpending : { stage.1 with pending := none } = stage.1 := by
      rw [← hsettled.pending]
    -- the second stage finds the state and the version that the first has written
    have hread' : (BlockState.ofTag? (upgraded tag (storedVersion tag) stage)).value =
        some stage.1 := by
      rw [value_ofTag?_upgraded distinct, hpending]
    have hproperties : stage.1.properties.isSome =
        (chain.upgrade state (storedVersion tag)).1.properties.isSome := by
      rw [← hstages, isSome_properties_upgrade]
    -- versions only grow, so that the second stage does not come back to the first version
    have hversion : stage.2 ≠ storedVersion tag →
        (chain.upgrade state (storedVersion tag)).2 ≠ storedVersion tag := by
      intro hne hsame
      have hback : stage.2 ≤ (chain.upgrade state (storedVersion tag)).2 := by
        rw [← hstages]
        exact le_lastVersion_newerThan chain stage.2
      rw [hsame] at hback
      exact hne (Version.le_antisymm hback hreached)
    rw [value_upgradeTag_of_some _ hread', storedVersion_upgraded distinct]
    simp only [hstages, upgraded_upgraded distinct hproperties hversion]

/-- An upgrade in two stages, the first up to any bound, is the upgrade: of block states with
their versions, and of stored ones with their compounds.  Hence a second upgrade changes
nothing. -/
theorem upgrade_in_stages {chain : Chain} (h : chain.FromDocuments) (limit : Version) :
    (∀ state source,
      let stage := (chain.upTo limit).upgrade state source
      chain.upgrade stage.1 stage.2 = chain.upgrade state source) ∧
    (∀ tag : Compound, tag.Distinct →
      let stage := ((chain.upTo limit).upgradeTag tag).value
      (chain.upgradeTag stage.2).value = (chain.upgradeTag tag).value) ∧
    (∀ state source,
      let result := chain.upgrade state source
      chain.upgrade result.1 result.2 = result) ∧
    (∀ tag : Compound, tag.Distinct →
      let result := (chain.upgradeTag tag).value
      (chain.upgradeTag result.2).value = result) := by
  -- the chain under the greatest limit is the whole chain, so that going on changes nothing
  have hwhole : chain.upTo ⟨255, 255, 255, 255⟩ = chain := chain.upTo_greatest
  refine ⟨h.upgrade_upTo_upgrade limit, ?_, ?_, ?_⟩
  · intro tag distinct
    exact h.upgradeTag_upTo limit distinct
  · intro state source
    have hstages := h.upgrade_upTo_upgrade ⟨255, 255, 255, 255⟩ state source
    rwa [hwhole] at hstages
  · intro tag distinct
    have hstages := h.upgradeTag_upTo ⟨255, 255, 255, 255⟩ distinct
    rwa [hwhole] at hstages

/-- A stored log between the two schemas of a chain. -/
theorem upgrade_log_in_stages :
    let tag : Compound := [("version", .string "none"), ("name", .string "X:Log"),
      ("states", .compound [("Kind", .string "pine")])]
    let stage := ((treeChain.upTo ⟨1, 20, 5, 0⟩).upgradeTag tag).value
    stage.1 = some ⟨1, 20, 0, 0⟩ ∧ stage.2.getString? "name" = some "x:fir_log" ∧
    (treeChain.upgradeTag stage.2).value = (treeChain.upgradeTag tag).value ∧
    (treeChain.upgradeTag tag).value.1 = some ⟨1, 21, 0, 0⟩ ∧
    (treeChain.upgradeTag tag).value.2.keys = ["version", "name", "states"] ∧
    (treeChain.upgradeTag tag).value.2.getString? "name" = some "x:silver_fir_log" := by
  intro tag stage
  have h := upgrade_in_stages fromDocuments_treeChain ⟨1, 20, 5, 0⟩
  exact ⟨by decide +kernel, by decide +kernel, h.2.1 tag (by decide), by decide +kernel,
    by decide +kernel, by decide +kernel⟩

end Chain
end BlockData
