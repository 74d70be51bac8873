import BlockData.Chain
import BlockData.Proofs.BlockState.Tag
import BlockData.Proofs.Version

/-!
# Upgrades of stored block states

What an upgrade reads from a compound and writes into it: the block state and its version.
Both are found again afterwards (`value_ofTag?_upgraded` and `storedVersion_upgraded`), and
of two upgrades the second one counts (`upgraded_upgraded`).
-/

namespace BlockData.Chain

/-- A stored block state without a name stays as it is. -/
theorem value_upgradeTag_of_none (chain : Chain) {tag : Compound}
    (h : (BlockState.ofTag? tag).value = none) : (chain.upgradeTag tag).value = (none, tag) := by
  simp [upgradeTag, h]

/-- The compound of a block state that was read with the version `source` and has been
upgraded. -/
def upgraded (tag : Compound) (source : Version) (result : BlockState × Version) : Compound :=
  writeVersion (result.1.writeTo tag) source result.2

/-- A stored block state is upgraded from the version in the compound. -/
theorem value_upgradeTag_of_some (chain : Chain) {tag : Compound} {state : BlockState}
    (h : (BlockState.ofTag? tag).value = some state) :
    (chain.upgradeTag tag).value =
      let result := chain.upgrade state (storedVersion tag)
      (some result.2, upgraded tag (storedVersion tag) result) := by
  simp [upgradeTag, h, upgraded]

/-! ## The version field -/

/-- An int is read by its bits. -/
theorem storedVersion_eq_ofStored {tag : Compound} {field : Int32}
    (h : tag.getInt? "version" = some field) : storedVersion tag = .ofStored field := by
  rw [storedVersion, h]
  rfl

theorem getInt?_writeTo (state : BlockState) {tag : Compound} (distinct : tag.Distinct) :
    (state.writeTo tag).getInt? "version" = tag.getInt? "version" := by
  rw [Compound.getInt?, BlockState.get?_writeTo distinct (by decide) (by decide)]
  rfl

theorem getInt?_insert_version (tag : Compound) (version : Version) :
    Compound.getInt? (tag.insert "version" (.int version.stored)) "version" =
      some version.stored := by
  rw [Compound.getInt?, Entries.get?_insert, if_pos rfl]
  rfl

/-- The version is there afterwards, even where there was no need to write it. -/
theorem storedVersion_writeVersion (tag : Compound) (version : Version) :
    storedVersion (writeVersion tag (storedVersion tag) version) = version := by
  unfold writeVersion
  split
  · rw [storedVersion_eq_ofStored (getInt?_insert_version tag version), Version.ofStored_stored]
  · next h =>
    -- nothing is written, as the version has not changed
    rcases not_or.1 h with ⟨-, hsame⟩
    exact (Decidable.not_not.1 hsame).symm

/-! ## Distinct keys -/

theorem distinct_upgraded {tag : Compound} (distinct : tag.Distinct) (source : Version)
    (result : BlockState × Version) : (upgraded tag source result).Distinct := by
  have hwritten := result.1.distinct_writeTo distinct
  unfold upgraded writeVersion
  split
  · exact Entries.distinct_insert _ _ hwritten
  · exact hwritten

/-- An upgrade leaves the keys of a compound distinct. -/
theorem distinct_upgradeTag (chain : Chain) {tag : Compound} (distinct : tag.Distinct) :
    (chain.upgradeTag tag).value.2.Distinct := by
  cases hread : (BlockState.ofTag? tag).value with
  | none =>
    rw [value_upgradeTag_of_none chain hread]
    exact distinct
  | some state =>
    rw [value_upgradeTag_of_some chain hread]
    exact distinct_upgraded distinct _ _

/-! ## Reading what was written -/

/-- An upgraded block state is found again. -/
theorem value_ofTag?_upgraded {tag : Compound} (distinct : tag.Distinct) (source : Version)
    (result : BlockState × Version) :
    (BlockState.ofTag? (upgraded tag source result)).value =
      some { result.1 with pending := none } := by
  have hwritten := result.1.value_ofTag?_writeTo distinct
  unfold upgraded writeVersion
  split
  · rw [BlockState.ofTag?_insert (by decide) (by decide)]
    exact hwritten
  · exact hwritten

/-- The version of an upgraded block state is found again. -/
theorem storedVersion_upgraded {tag : Compound} (distinct : tag.Distinct)
    (result : BlockState × Version) :
    storedVersion (upgraded tag (storedVersion tag) result) = result.2 := by
  have hsource : storedVersion (result.1.writeTo tag) = storedVersion tag := by
    rw [storedVersion, getInt?_writeTo _ distinct]
    rfl
  have hwritten := storedVersion_writeVersion (result.1.writeTo tag) result.2
  rwa [hsource] at hwritten

/-- Of two upgrades the second one counts, if both states have properties or neither has,
and if the first has not led away from the version that the second goes back to. -/
theorem upgraded_upgraded {tag : Compound} (distinct : tag.Distinct) {source : Version}
    {first second : BlockState × Version}
    (hproperties : first.1.properties.isSome = second.1.properties.isSome)
    (hversion : first.2 ≠ source → second.2 ≠ source) :
    upgraded (upgraded tag source first) first.2 second = upgraded tag source second := by
  have hread := getInt?_writeTo first.1 distinct
  have htwice := BlockState.writeTo_writeTo distinct hproperties
  by_cases hwritten : (tag.getInt? "version").isSome ∨ first.2 ≠ source
  · -- the first upgrade has written its version, and the second writes over it
    have hfirst : upgraded tag source first =
        (first.1.writeTo tag).insert "version" (.int first.2.stored) := by
      rw [upgraded, writeVersion, hread, if_pos hwritten]
    have hsecond : second.1.writeTo (upgraded tag source first) =
        (second.1.writeTo tag).insert "version" (.int first.2.stored) := by
      rw [hfirst, BlockState.writeTo_insert (by decide) (by decide) _
        (first.1.name_mem_keys_writeTo tag), htwice]
      intro hsome
      exact BlockState.states_mem_keys_writeTo (hproperties ▸ hsome) tag
    have hwritten' : (tag.getInt? "version").isSome ∨ second.2 ≠ source :=
      hwritten.imp_right hversion
    rw [upgraded, hsecond, writeVersion, getInt?_insert_version, if_pos (Or.inl Option.isSome_some),
      Entries.insert_insert_self, upgraded, writeVersion, getInt?_writeTo second.1 distinct,
      if_pos hwritten']
  · -- the first upgrade has written no version
    rcases not_or.1 hwritten with ⟨hnone, hsame⟩
    have hsource : first.2 = source := Decidable.not_not.1 hsame
    have hfirst : upgraded tag source first = first.1.writeTo tag := by
      rw [upgraded, writeVersion, hread, if_neg hwritten]
    rw [hfirst, upgraded, htwice, hsource, upgraded]

end BlockData.Chain
