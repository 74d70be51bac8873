import BlockData.Proofs.Chain.Tag
import BlockData.Proofs.Tag.Depth

/-!
# What an upgrade writes can be read again

The name, the states and the version that an upgrade writes into a compound are shallow and
have no fractions, so that the compound is kept by its text if it was before.
-/

namespace BlockData

theorem PropertyValue.depth_toTag (value : PropertyValue) : value.toTag.depth = 1 := by
  cases value <;> rfl

theorem PropertyValue.kept_toTag (value : PropertyValue) : value.toTag.Kept := by
  refine Tag.kept_of_depth_eq_one ?_ ?_ value.depth_toTag
  · cases value <;> rfl
  · cases value <;> rfl

namespace BlockState

/-- The compound of properties holds nothing but leaves. -/
theorem kept_statesTag (properties : Properties) :
    (Tag.compound (statesTag properties)).Kept := by
  have hleaf : ∀ child ∈ statesTag properties, child.2.Kept ∧ child.2.depth = 1 := by
    intro child hchild
    rcases List.mem_map.1 hchild with ⟨pair, -, rfl⟩
    exact ⟨pair.2.kept_toTag, pair.2.depth_toTag⟩
  refine ⟨(Tag.childrenExact_iff _).2 fun child h => (hleaf child h).1.exact, ?_, ?_⟩
  · rw [Tag.isKeyed, Bool.and_eq_true, decide_eq_true_iff]
    exact ⟨distinct_statesTag properties,
      (Tag.childrenKeyed_iff _).2 fun child h => (hleaf child h).1.keyed⟩
  · have hchildren : Tag.childrenDepth (statesTag properties) ≤ 1 :=
      (Tag.childrenDepth_le_iff _ _).2 fun child h => Nat.le_of_eq (hleaf child h).2
    rw [Tag.depth, Tag.nestingLimit]
    omega

theorem kept_writeTo (state : BlockState) {tag : Compound} (h : tag.Kept) :
    (state.writeTo tag).Kept := by
  have hnamed := h.insert "name" (Tag.kept_string state.identifier)
  cases hproperties : state.properties with
  | some properties =>
    rw [writeTo_of_some hproperties]
    exact hnamed.insert "states" (kept_statesTag properties)
  | none =>
    rw [writeTo_of_none hproperties]
    exact hnamed.erase "states"

end BlockState

namespace Chain

theorem kept_upgraded {tag : Compound} (h : tag.Kept) (source : Version)
    (result : BlockState × Version) : (upgraded tag source result).Kept := by
  have hwritten := result.1.kept_writeTo h
  unfold upgraded writeVersion
  split
  · exact hwritten.insert "version" (Tag.kept_int _)
  · exact hwritten

/-- An upgrade leaves a compound one that is found again in its text. -/
theorem kept_upgradeTag (chain : Chain) {tag : Compound} (h : tag.Kept) :
    (chain.upgradeTag tag).value.2.Kept := by
  cases hread : (BlockState.ofTag? tag).value with
  | none =>
    rw [value_upgradeTag_of_none chain hread]
    exact h
  | some state =>
    rw [value_upgradeTag_of_some chain hread]
    exact kept_upgraded h _ _

/-- Whether there is a name to upgrade does not depend on the chain. -/
theorem isSome_upgradeTag (chain : Chain) (tag : Compound) :
    (chain.upgradeTag tag).value.1.isSome = (BlockState.ofTag? tag).value.isSome := by
  cases hread : (BlockState.ofTag? tag).value with
  | none => rw [value_upgradeTag_of_none chain hread]; rfl
  | some state => rw [value_upgradeTag_of_some chain hread]; rfl

end Chain
end BlockData
