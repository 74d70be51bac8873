import BlockData.Proofs.Chain.Written
import BlockData.Proofs.CommandLine.Upgrade
import BlockData.Proofs.Tag.Children

/-!
# Versions in signed fields

A block state keeps its version in a signed field, and a version that the arguments name as the
source is put there too.  The field is read by its bits, so that a negative one holds a version
beyond those in all others; and it holds the same number after an upgrade that applies nothing.

* `Chain.SelectsByField` says what a field means to an upgrade: which schemas it selects, and when
  it stays as it is;
* `upgrade_ofStored` says that naming the version of the field as the source changes nothing;
* `versions_correspond_to_fields` puts these beside the correspondence of versions, words and
  fields.
-/

namespace BlockData

namespace Chain

variable {tag : Compound} {field : Int32}

/-- What a signed field means to an upgrade of the compound that it is the version of. -/
structure SelectsByField (chain : Chain) (tag : Compound) (field : Int32) : Prop where
  read : storedVersion tag = .ofStored field
  /-- Words are compared without their signs. -/
  selected : chain.newerThan (storedVersion tag) =
    chain.schemas.filter (field.toUInt32 < ·.version.packed)
  /-- Beyond a negative field there are only greater negative ones. -/
  negative : field < 0 → ∀ schema ∈ chain.newerThan (storedVersion tag),
    field < schema.version.stored ∧ schema.version.stored < 0
  /-- The field stays if there is no block state to upgrade, or no schema to apply to it, and in no
  other case. -/
  stays : (chain.upgradeTag tag).value.2.get? "version" = some (.int field) ↔
    tag.getString? "name" = none ∨ chain.newerThan (storedVersion tag) = []

/-- The schemas newer than the version in a field are those whose words are beyond its bits. -/
theorem newerThan_ofStored (chain : Chain) (field : Int32) :
    chain.newerThan (.ofStored field) =
      chain.schemas.filter (field.toUInt32 < ·.version.packed) := by
  rw [newerThan_eq_filter]
  refine List.filter_congr fun schema _ => decide_eq_decide.2 ?_
  rw [← Version.packed_ofStored, Version.packed_lt_iff]

/-- A schema newer than the version in a negative field has a greater negative number in its own. -/
theorem stored_of_mem_newerThan {chain : Chain} (hnegative : field < 0) {schema : Schema}
    (h : schema ∈ chain.newerThan (.ofStored field)) :
    field < schema.version.stored ∧ schema.version.stored < 0 := by
  rw [newerThan_eq_filter, List.mem_filter] at h
  have hnewer : Version.ofStored field < .ofStored schema.version.stored := by
    rw [Version.ofStored_stored]
    exact of_decide_eq_true h.2
  rcases Version.ofStored_lt_iff.1 hnewer with ⟨hle, -⟩ | ⟨hsign, hlt⟩
  · -- only beyond a field that is not negative may the sign change
    exact absurd hnegative (Int32.not_lt.2 hle)
  · exact ⟨hlt, hsign.1 hnegative⟩

/-- The field holds the number that it held before if nothing is upgraded, and only then. -/
theorem get?_version_upgradeTag_eq_iff (chain : Chain) (distinct : tag.Distinct)
    (h : tag.getInt? "version" = some field) :
    (chain.upgradeTag tag).value.2.get? "version" = some (.int field) ↔
      tag.getString? "name" = none ∨ chain.newerThan (storedVersion tag) = [] := by
  have hread := BlockState.value_ofTag?_eq tag
  cases hname : tag.getString? "name" with
  | none =>
    rw [hname] at hread
    simpa [chain.value_upgradeTag_of_none hread] using Compound.getInt?_eq_some_iff.1 h
  | some name =>
    rw [hname] at hread
    obtain ⟨state, hstate, hstates⟩ : ∃ state, (BlockState.ofTag? tag).value = some state ∧
        state.properties.isSome = (tag.getCompound? "states").isSome :=
      ⟨_, hread, Option.isSome_map⟩
    have hkey : "name" ∈ tag.keys :=
      Entries.mem_keys_of_isSome_bind (Option.isSome_iff_exists.2 ⟨name, hname⟩)
    have hwrites : chain.WritesVersion tag := Or.inl (Option.isSome_iff_exists.2 ⟨field, h⟩)
    -- the version that was reached stands in the field
    have hversion := (chain.writtenBack_upgraded distinct hkey hstates).version
    rw [if_pos hwrites] at hversion
    -- and it is the one that was read exactly if no schema is newer
    have hreached := chain.lastVersion_newerThan_eq_iff (storedVersion tag)
    rw [storedVersion_eq_ofStored h, ← Version.stored_eq_iff] at hreached
    rw [chain.value_upgradeTag_of_some hstate, hversion, storedVersion_eq_ofStored h]
    simpa [upgrade] using hreached

/-- An int under the version is read, compared and kept by its bits. -/
theorem selectsByField (chain : Chain) (distinct : tag.Distinct)
    (h : tag.getInt? "version" = some field) : chain.SelectsByField tag field where
  read := storedVersion_eq_ofStored h
  selected := by rw [storedVersion_eq_ofStored h, newerThan_ofStored]
  negative := by
    rw [storedVersion_eq_ofStored h]
    exact fun hnegative _ hmem => stored_of_mem_newerThan hnegative hmem
  stays := chain.get?_version_upgradeTag_eq_iff distinct h

end Chain

namespace CommandLine

/-! ## Versions named as the source -/

/-- A version that is named as the source is the one that the upgrade starts from. -/
theorem storedVersion_withSource (version : Version) (tag : Compound) :
    Chain.storedVersion (withSource (some version) tag) = version := by
  have hfield := Chain.getInt?_insert_version tag version
  exact (Chain.storedVersion_eq_ofStored hfield).trans version.ofStored_stored

/-- The version that a compound has already may be put into its field again. -/
theorem withSource_ofStored {tag : Compound} {field : Int32}
    (h : tag.getInt? "version" = some field) : withSource (some (.ofStored field)) tag = tag := by
  rw [withSource, Version.stored_ofStored]
  exact Entries.insert_eq_self_iff.2 (Compound.getInt?_eq_some_iff.1 h)

/-- To name the version that the field of the input holds as the source changes nothing. -/
theorem upgrade_ofStored {s : Surroundings} {options : Options} {input : String} {field : Int32}
    (h : ∀ tag, readTag s input = .ok tag → tag.getInt? "version" = some field) :
    upgrade s options input (some (.ofStored field)) = upgrade s options input none := by
  rw [upgrade_eq, upgrade_eq]
  cases loadChain s options with
  | error e => rfl
  | ok chain =>
    cases hread : readTag s input with
    | error e => rfl
    | ok tag =>
      show upgradeBy chain (withSource (some (.ofStored field)) tag) = upgradeBy chain tag
      rw [withSource_ofStored (h tag hread)]

/-! ## Versions, words and fields -/

/-- Versions correspond to the words of 32 bits, and are ordered as these are.  Through the words
they correspond to signed fields, of which the negative ones hold newer versions than all others.
An upgrade reads and writes the field of a compound in this way, and so do the arguments of the
command line. -/
theorem versions_correspond_to_fields :
    (∀ v : Version, .ofPacked v.packed = v) ∧
    (∀ word : UInt32, (Version.ofPacked word).packed = word) ∧
    (∀ a b : Version, (a < b ↔ a.components < b.components) ∧ (a < b ↔ a.packed < b.packed)) ∧
    (∀ v : Version, .ofStored v.stored = v) ∧
    (∀ field : Int32, (Version.ofStored field).stored = field) ∧
    (∀ x y : Int32, x < 0 → 0 ≤ y → Version.ofStored y < .ofStored x) ∧
    (∀ (chain : Chain) (tag : Compound) (field : Int32), tag.Distinct →
      tag.getInt? "version" = some field → chain.SelectsByField tag field) ∧
    (∀ (version : Version) (tag : Compound),
      (withSource (some version) tag).getInt? "version" = some version.stored ∧
      Chain.storedVersion (withSource (some version) tag) = version) ∧
    ∀ (s : Surroundings) (options : Options) (input : String) (field : Int32),
      (∀ tag, readTag s input = .ok tag → tag.getInt? "version" = some field) →
      upgrade s options input (some (.ofStored field)) = upgrade s options input none := by
  refine ⟨Version.ofPacked_packed, Version.packed_ofPacked, ?_, Version.ofStored_stored,
    Version.stored_ofStored, ?_, ?_, ?_, ?_⟩
  · exact fun a b => ⟨Version.components_lt_iff.symm, Version.packed_lt_iff.symm⟩
  · -- a negative field is that of a version with the highest bit
    intro x y hx hy
    exact Version.ofStored_lt_iff.2 (Or.inl ⟨hy, hx⟩)
  · exact fun chain tag field distinct h => chain.selectsByField distinct h
  · exact fun version tag =>
      ⟨Chain.getInt?_insert_version tag version, storedVersion_withSource version tag⟩
  · exact fun s options input field h => upgrade_ofStored h

/-- Two schemas of which the second one has a version with a negative field. -/
def farChain : Chain where
  schemas := [⟨⟨127, 255, 255, 255⟩, [], none⟩, ⟨⟨200, 0, 0, 0⟩, [], none⟩]
  sorted := by decide

/-- A log whose version is beyond all schemas, in the input of the program. -/
def farSurroundings : Surroundings :=
  logSurroundings.withInput
    "\x7b\"name\":\x7b\"string\":\"X:Log\"\x7d,\"version\":\x7b\"int\":-1\x7d\x7d"

/-- The least number is read as the version after that of the greatest one, so that of two schemas
only the second is applied to it.  The number -1 holds the last version of all and is never written
over, and no run is changed by naming that version. -/
theorem versions_correspond_to_negative_fields :
    let least : Int32 := -2147483648
    let greatest : Int32 := 2147483647
    let log : Compound := [("version", .int least), ("name", .string "X:Log")]
    let farLog : Compound := [("name", .string "X:Log"), ("version", .int (-1))]
    let options : Options := ⟨⟨"rules", none⟩, false⟩
    (least < 0 ∧ 0 ≤ greatest ∧ Version.ofStored greatest < .ofStored least) ∧
    (log.Distinct ∧ log.getInt? "version" = some least ∧
      (∀ schema ∈ farChain.newerThan (Chain.storedVersion log), schema.version.stored < 0) ∧
      (farChain.upgradeTag log).value.2.get? "version" ≠ some (.int least)) ∧
    (farLog.Distinct ∧ farLog.getInt? "version" = some (-1) ∧
      (farChain.upgradeTag farLog).value.2.get? "version" = some (.int (-1))) ∧
    ((readTag farSurroundings "-").toOption.bind (·.getInt? "version") = some (-1) ∧
      upgrade farSurroundings options "-" (some (.ofStored (-1))) =
        upgrade farSurroundings options "-" none) := by
  intro least greatest log farLog options
  have hleast : least < 0 := by decide
  have hgreatest : 0 ≤ greatest := by decide
  have hlog : log.Distinct := by decide
  have hfarLog : farLog.Distinct := by decide
  have hinput : (readTag farSurroundings "-").toOption.bind (·.getInt? "version") = some (-1) := by
    decide +kernel
  obtain ⟨-, -, -, -, -, hsigns, hfields, -, hnamed⟩ := versions_correspond_to_fields
  have hselects := hfields farChain log least hlog rfl
  have hstays := (hfields farChain farLog (-1) hfarLog rfl).stays
  refine ⟨⟨hleast, hgreatest, hsigns least greatest hleast hgreatest⟩, ⟨hlog, rfl, ?_, ?_⟩,
    ⟨hfarLog, rfl, hstays.2 (Or.inr (by decide +kernel))⟩, hinput, ?_⟩
  · exact fun schema hmem => (hselects.negative hleast schema hmem).2
  · -- a schema is newer, so that the field does not stay
    exact mt hselects.stays.1 (by decide +kernel)
  · refine hnamed farSurroundings options "-" (-1) ?_
    intro tag htag
    rw [htag] at hinput
    exact hinput

end CommandLine
end BlockData
