import BlockData.Proofs.Chain.Stages

/-!
# What an upgrade writes into a compound

An upgrade of a stored block state touches three children of its compound and no other: the
name, the states and the version.  Their places stay, and only a version that was missing is
put at the end.

* `Chain.WrittenBack` says what there is after an upgrade, child by child, and in what order;
* `effect_on_compound` says that there is nothing else to an upgrade.
-/

namespace BlockData

/-- The values of properties are leaves of three kinds. -/
theorem PropertyValue.kind_toTag (value : PropertyValue) :
    value.toTag.kind ∈ [Tag.Kind.int, .byte, .string] := by
  cases value <;> simp [toTag, Tag.kind]

namespace Chain

/-- An upgrade writes the version of a block state if that has one, or if some schema is
applied. -/
def WritesVersion (chain : Chain) (tag : Compound) : Prop :=
  (tag.getInt? "version").isSome ∨ chain.newerThan (storedVersion tag) ≠ []

instance (chain : Chain) (tag : Compound) : Decidable (chain.WritesVersion tag) :=
  inferInstanceAs (Decidable (_ ∨ _))

/-- What an upgrade to a version leaves of the compound of a block state, which is now `state`. -/
structure WrittenBack (chain : Chain) (tag : Compound) (state : BlockState) (reached : Version)
    (after : Compound) : Prop where
  /-- Other children keep their values. -/
  others : ∀ key, key ≠ "name" → key ≠ "states" → key ≠ "version" → after.get? key = tag.get? key
  name : after.get? "name" = some (.string state.identifier)
  states : after.get? "states" =
    state.properties.map fun properties => .compound (BlockState.statesTag properties)
  /-- States are there if they were a compound before. -/
  hasStates : (after.get? "states").isSome = (tag.getCompound? "states").isSome
  /-- They have the kinds that properties have. -/
  leaves : ∀ child, after.get? "states" = some child → ∃ children, child = .compound children ∧
    ∀ pair ∈ children, pair.2.kind ∈ [Tag.Kind.int, .byte, .string]
  version : after.get? "version" =
    if chain.WritesVersion tag then some (.int reached.stored) else tag.get? "version"
  /-- A version that was there is read by its bits, and the one that is written is not smaller. -/
  bits : ∀ field, tag.getInt? "version" = some field →
    (storedVersion tag).packed = field.toUInt32 ∧ field.toUInt32 ≤ reached.stored.toUInt32
  /-- All keys keep their order; states that were no compound go, and a version that is new comes
  last. -/
  keys : after.keys =
    (if (tag.getCompound? "states").isSome then tag.keys else tag.keys.erase "states") ++
      if chain.WritesVersion tag ∧ "version" ∉ tag.keys then ["version"] else []

variable {tag : Compound}

/-- The compound that an upgrade leaves has its version written where there is need to. -/
theorem upgraded_eq (chain : Chain) (distinct : tag.Distinct) (state : BlockState) :
    let result := chain.upgrade state (storedVersion tag)
    upgraded tag (storedVersion tag) result =
      if chain.WritesVersion tag then
        (result.1.writeTo tag).insert "version" (.int result.2.stored)
      else
        result.1.writeTo tag := by
  intro result
  have hwrites : ((result.1.writeTo tag).getInt? "version").isSome ∨
      result.2 ≠ storedVersion tag ↔ chain.WritesVersion tag := by
    rw [getInt?_writeTo result.1 distinct, WritesVersion, ne_eq, ne_eq,
      ← chain.lastVersion_newerThan_eq_iff]
    rfl
  simp only [upgraded, writeVersion, hwrites]

/-- The version that an upgrade reads from a field is not beyond the one that it writes. -/
theorem bits_le_stored (chain : Chain) (state : BlockState) {field : Int32}
    (h : tag.getInt? "version" = some field) :
    (storedVersion tag).packed = field.toUInt32 ∧
      field.toUInt32 ≤ (chain.upgrade state (storedVersion tag)).2.stored.toUInt32 := by
  have hbits : (storedVersion tag).packed = field.toUInt32 := by
    rw [storedVersion_eq_ofStored h, Version.packed_ofStored]
  refine ⟨hbits, ?_⟩
  rw [← hbits, Version.toUInt32_stored, Version.packed_le_iff]
  exact chain.le_lastVersion_newerThan (storedVersion tag)

/-- The keys after an upgrade of a compound that has a name. -/
theorem keys_upgraded (chain : Chain) (distinct : tag.Distinct) {state : BlockState}
    (hname : "name" ∈ tag.keys)
    (hstates : state.properties.isSome = (tag.getCompound? "states").isSome) :
    (upgraded tag (storedVersion tag) (chain.upgrade state (storedVersion tag))).keys =
      (if (tag.getCompound? "states").isSome then tag.keys else tag.keys.erase "states") ++
        if chain.WritesVersion tag ∧ "version" ∉ tag.keys then ["version"] else [] := by
  have hsome : (chain.upgrade state (storedVersion tag)).1.properties.isSome =
      (tag.getCompound? "states").isSome :=
    (chain.isSome_properties_upgrade state _).trans hstates
  have hwritten := BlockState.keys_writeTo hname fun h =>
    Entries.mem_keys_of_isSome_bind (hsome ▸ h)
  -- whether there are states makes no difference to the version
  have hversion : "version" ∈ (if (tag.getCompound? "states").isSome then tag.keys
      else tag.keys.erase "states") ↔ "version" ∈ tag.keys := by
    split
    · rfl
    · exact List.mem_erase_of_ne (by decide)
  rw [hsome] at hwritten
  rw [chain.upgraded_eq distinct]
  by_cases hwrites : chain.WritesVersion tag
  · rw [if_pos hwrites, Entries.keys_insert, hwritten]
    by_cases hthere : "version" ∈ tag.keys
    · rw [if_pos (hversion.2 hthere)]
      simp [hthere]
    · rw [if_neg (mt hversion.1 hthere)]
      simp [hthere, hwrites]
  · rw [if_neg hwrites, hwritten]
    simp [hwrites]

/-- What there is after an upgrade of a compound that has a name. -/
theorem writtenBack_upgraded (chain : Chain) (distinct : tag.Distinct) {state : BlockState}
    (hname : "name" ∈ tag.keys)
    (hstates : state.properties.isSome = (tag.getCompound? "states").isSome) :
    let result := chain.upgrade state (storedVersion tag)
    chain.WrittenBack tag result.1 result.2 (upgraded tag (storedVersion tag) result) := by
  intro result
  -- the version is written last, and nothing else with it
  have hget : ∀ key, key ≠ "version" →
      (upgraded tag (storedVersion tag) result).get? key = (result.1.writeTo tag).get? key := by
    intro key hkey
    rw [chain.upgraded_eq distinct]
    split
    · rw [Entries.get?_insert, if_neg (Ne.symm hkey)]
    · rfl
  have hwritten := (hget "states" (by decide)).trans (result.1.get?_states_writeTo distinct)
  refine
    { others := ?_
      name := (hget "name" (by decide)).trans (result.1.get?_name_writeTo distinct)
      states := hwritten
      hasStates := ?_
      leaves := ?_
      version := ?_
      bits := fun field hfield => chain.bits_le_stored state hfield
      keys := chain.keys_upgraded distinct hname hstates }
  · intro key hname hstates hversion
    rw [hget key hversion, BlockState.get?_writeTo distinct hname hstates]
  · rw [hwritten, Option.isSome_map, chain.isSome_properties_upgrade, hstates]
  · intro child hchild
    rw [hwritten] at hchild
    rcases Option.map_eq_some_iff.1 hchild with ⟨properties, -, rfl⟩
    refine ⟨_, rfl, ?_⟩
    intro pair hpair
    rcases List.mem_map.1 hpair with ⟨property, -, rfl⟩
    exact property.2.kind_toTag
  · rw [chain.upgraded_eq distinct]
    split
    · rw [Entries.get?_insert, if_pos rfl]
    · exact BlockState.get?_writeTo distinct (by decide) (by decide)

/-- An upgrade of a stored block state leaves a compound without a name as it is.  Where there is
a name, it takes the block state from there, upgrades it from the version of the compound, and
writes it back, and the version with it; nothing else in the compound changes. -/
theorem effect_on_compound (chain : Chain) (distinct : tag.Distinct) :
    (tag.getString? "name" = none → (chain.upgradeTag tag).value = (none, tag)) ∧
    ∀ name, tag.getString? "name" = some name →
      let state := ⟨name, (tag.getCompound? "states").map BlockState.propertiesOf, none⟩
      let result := chain.upgrade state (storedVersion tag)
      ∃ after, (chain.upgradeTag tag).value = (some result.2, after) ∧
        chain.WrittenBack tag result.1 result.2 after := by
  have hread := BlockState.value_ofTag?_eq tag
  constructor
  · intro hnone
    rw [hnone] at hread
    exact chain.value_upgradeTag_of_none hread
  · intro name hname state result
    rw [hname] at hread
    have hkey : "name" ∈ tag.keys :=
      Entries.mem_keys_of_isSome_bind (Option.isSome_iff_exists.2 ⟨name, hname⟩)
    exact ⟨_, chain.value_upgradeTag_of_some hread,
      chain.writtenBack_upgraded distinct hkey Option.isSome_map⟩

/-- Three compounds: a log with a version of another kind and a state that is no property, a log
beyond all schemas whose states are no compound, and a block whose name is a number. -/
theorem effect_on_compounds_of_logs :
    let log : Compound := [("version", .string "none"), ("name", .string "X:Log"),
      ("extra", .long 7), ("states", .compound [("n", .long 1), ("Kind", .string "pine")])]
    let late : Compound := [("states", .string "none"), ("version", .int (-1)),
      ("name", .string "X:Log")]
    let nameless : Compound := [("version", .int 1), ("name", .int 1)]
    (log.Distinct ∧ log.getString? "name" = some "X:Log" ∧
      ∃ after, (treeChain.upgradeTag log).value = (some ⟨1, 21, 0, 0⟩, after) ∧
        after.keys = ["version", "name", "extra", "states"] ∧
        after.get? "version" = some (.int 0x01150000) ∧
        after.get? "name" = some (.string "x:silver_fir_log") ∧
        after.get? "extra" = some (.long 7) ∧
        after.get? "states" = some (.compound [("side", .string "up")])) ∧
    (late.Distinct ∧ late.getString? "name" = some "X:Log" ∧
      ∃ after, (treeChain.upgradeTag late).value = (some ⟨255, 255, 255, 255⟩, after) ∧
        after.keys = ["version", "name"] ∧ after.get? "version" = some (.int (-1))) ∧
    (nameless.Distinct ∧ nameless.getString? "name" = none ∧
      (treeChain.upgradeTag nameless).value = (none, nameless)) := by
  intro log late nameless
  have hlog : log.Distinct := by decide
  have hlate : late.Distinct := by decide
  have hnameless : nameless.Distinct := by decide
  refine ⟨⟨hlog, rfl, ?_⟩, ⟨hlate, rfl, ?_⟩, hnameless, rfl,
    (effect_on_compound treeChain hnameless).1 rfl⟩
  · -- the log: its version is of another kind and counts as none
    have hupgrade : treeChain.upgrade
        ⟨"X:Log", (log.getCompound? "states").map BlockState.propertiesOf, none⟩
          (storedVersion log) =
        (⟨"x:silver_fir_log", some (.ofList [("side", .string "up")]), none⟩, ⟨1, 21, 0, 0⟩) := by
      decide +kernel
    have hwrites : treeChain.WritesVersion log := by decide +kernel
    rcases (effect_on_compound treeChain hlog).2 "X:Log" rfl with ⟨after, hvalue, h⟩
    rw [hupgrade] at hvalue h
    refine ⟨after, hvalue, h.keys.trans ?_, h.version.trans ?_, h.name,
      h.others "extra" (by decide) (by decide) (by decide), h.states⟩
    · simp [hwrites, log, Compound.getCompound?, Entries.get?, Tag.asCompound?]
    · rw [if_pos hwrites]
      rfl
  · -- beyond the newest schema the version stays as it is
    have hupgrade : treeChain.upgrade
        ⟨"X:Log", (late.getCompound? "states").map BlockState.propertiesOf, none⟩
          (storedVersion late) = (⟨"x:log", none, none⟩, ⟨255, 255, 255, 255⟩) := by
      decide +kernel
    have hwrites : treeChain.WritesVersion late := Or.inl rfl
    rcases (effect_on_compound treeChain hlate).2 "X:Log" rfl with ⟨after, hvalue, h⟩
    rw [hupgrade] at hvalue h
    refine ⟨after, hvalue, h.keys.trans ?_, h.version.trans ?_⟩
    · simp [hwrites, late, Compound.getCompound?, Entries.get?, Tag.asCompound?]
    · rw [if_pos hwrites]
      rfl

end Chain
end BlockData
