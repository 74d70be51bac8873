import BlockData.Proofs.Chain.Order
import BlockData.Proofs.Chain.Written

/-!
# Block states without a version

A block state that is stored without a version is upgraded from the version 0.0.0.0, which is the
least one.  All schemas of later versions are applied to it; a schema of the version 0.0.0.0 itself
is none of them, as only newer schemas are applied.

* `newerThan_zero` says which schemas are applied, `lastVersion_zero` which version they lead to,
  and `WrittenBack.version_of_none` what becomes of the version that is stored;
* `effect_without_version` follows such a block state through an upgrade;
* `zero_schema_is_passed_over` is a chain of which nothing is applied.
-/

namespace BlockData

namespace Version

/-- All versions but the one before which there is none are later than it. -/
theorem zero_lt_iff {v : Version} : zero < v ↔ v ≠ zero := by
  have hzero : number zero = 0 := rfl
  rw [lt_iff_number_lt, hzero, Nat.pos_iff_ne_zero, ← hzero]
  exact not_congr ⟨eq_of_number_eq, congrArg number⟩

theorem zero_le (v : Version) : zero ≤ v :=
  (le_iff_number_le zero v).2 (Nat.zero_le v.number)

end Version

namespace Chain

/-- The schemas applied to a block state without a version are all but those of the version
0.0.0.0. -/
theorem newerThan_zero (chain : Chain) :
    chain.newerThan .zero = chain.schemas.filter (·.version ≠ .zero) := by
  rw [newerThan_eq_filter]
  exact List.filter_congr fun schema _ => decide_eq_decide.2 Version.zero_lt_iff

/-- The other schemas of a chain stand in front of those that are applied. -/
theorem schemas_eq_append_later (chain : Chain) :
    ∃ passed, chain.schemas = passed ++ chain.schemas.filter (·.version ≠ .zero) ∧
      ∀ schema ∈ passed, schema.version = .zero := by
  refine ⟨(chain.upTo .zero).schemas, chain.newerThan_zero ▸ chain.schemas_eq_append .zero, ?_⟩
  intro schema hschema
  have hle : schema.version ≤ .zero := of_decide_eq_true (List.mem_filter.1 hschema).2
  exact Version.le_antisymm hle schema.version.zero_le

/-- The schemas that are applied lead to the newest version of the chain. -/
theorem lastVersion_zero (chain : Chain) :
    lastVersion (chain.newerThan .zero) .zero = chain.latest?.getD .zero := by
  rw [lastVersion_newerThan]
  cases chain.latest? with
  | none => rfl
  | some newest => exact Version.max_eq_right newest.zero_le

variable {tag : Compound} {name : String}

/-- A version that is no int counts as none at all. -/
theorem storedVersion_eq_zero (h : tag.getInt? "version" = none) :
    storedVersion tag = .zero := by
  rw [storedVersion, h]
  rfl

/-- The version is written exactly if some schema is applied. -/
theorem writesVersion_iff (chain : Chain) (h : tag.getInt? "version" = none) :
    chain.WritesVersion tag ↔ chain.schemas.filter (·.version ≠ .zero) ≠ [] := by
  rw [WritesVersion, storedVersion_eq_zero h, newerThan_zero, h]
  simp

/-- A block state without a version has one afterwards if some schema is applied, and otherwise the
place of its version stays as it was. -/
theorem WrittenBack.version_of_none {chain : Chain} {state : BlockState} {reached : Version}
    {after : Compound} (hwritten : chain.WrittenBack tag state reached after)
    (h : tag.getInt? "version" = none) :
    let applied := chain.schemas.filter (·.version ≠ .zero)
    (applied ≠ [] → after.get? "version" = some (.int reached.stored)) ∧
    (after.get? "version" = tag.get? "version" ↔ applied = []) := by
  intro applied
  have hwrites : chain.WritesVersion tag ↔ applied ≠ [] := chain.writesVersion_iff h
  have hsome : applied ≠ [] → after.get? "version" = some (.int reached.stored) := by
    intro happlied
    rw [hwritten.version, if_pos (hwrites.2 happlied)]
  refine ⟨hsome, ?_, ?_⟩
  · intro hsame
    by_contra happlied
    -- the version that is written is an int, and there was none before
    rw [Compound.getInt?, ← hsame, hsome happlied] at h
    simp [Tag.asInt?] at h
  · intro hnone
    rw [hwritten.version, if_neg (mt hwrites.1 (not_not_intro hnone))]

/-- A block state that is stored without a version goes through all schemas of the chain in their
order, except for those of the version 0.0.0.0, which are the first ones.  It reaches the newest
version of the chain.  This is written if some schema was applied, and otherwise nothing is changed
about the version. -/
theorem effect_without_version (chain : Chain) (distinct : tag.Distinct)
    (hname : tag.getString? "name" = some name) (hversion : tag.getInt? "version" = none) :
    let start : BlockState := ⟨name, (tag.getCompound? "states").map BlockState.propertiesOf, none⟩
    let applied := chain.schemas.filter (·.version ≠ .zero)
    let reached := chain.latest?.getD .zero
    (∃ passed, chain.schemas = passed ++ applied ∧ ∀ schema ∈ passed, schema.version = .zero) ∧
    ∃ after, (chain.upgradeTag tag).value = (some reached, after) ∧
      chain.WrittenBack tag (applyAll applied start.normalize) reached after ∧
      (applied ≠ [] → after.get? "version" = some (.int reached.stored)) ∧
      (after.get? "version" = tag.get? "version" ↔ applied = []) := by
  intro start applied reached
  have hread : (BlockState.ofTag? tag).value = some start := by
    rw [BlockState.value_ofTag?_eq, hname]
    rfl
  -- a missing version is read as that of zeros
  have hresult : chain.upgrade start (storedVersion tag) =
      (applyAll applied start.normalize, reached) := by
    have happlied : chain.newerThan .zero = applied := chain.newerThan_zero
    have hreached : lastVersion (chain.newerThan .zero) .zero = reached := chain.lastVersion_zero
    rw [storedVersion_eq_zero hversion, ← hreached, ← happlied]
    rfl
  have hkey : "name" ∈ tag.keys :=
    Entries.mem_keys_of_isSome_bind (Option.isSome_iff_exists.2 ⟨name, hname⟩)
  have hstates : start.properties.isSome = (tag.getCompound? "states").isSome :=
    Option.isSome_map
  have hvalue := chain.value_upgradeTag_of_some hread
  have hwritten := chain.writtenBack_upgraded distinct hkey hstates
  simp only [hresult] at hvalue hwritten
  exact ⟨chain.schemas_eq_append_later, _, hvalue, hwritten, hwritten.version_of_none hversion⟩

/-- A log whose version is a text goes through two schemas. -/
theorem effect_on_log_without_version :
    let log : Compound := [("version", .string "none"), ("name", .string "X:Log"),
      ("states", .compound [("Kind", .string "pine")])]
    log.Distinct ∧ log.getString? "name" = some "X:Log" ∧ log.getInt? "version" = none ∧
    ∃ after, (treeChain.upgradeTag log).value = (some ⟨1, 21, 0, 0⟩, after) ∧
      after.get? "name" = some (.string "x:silver_fir_log") ∧
      after.get? "version" = some (.int 0x01150000) := by
  intro log
  have hlog : log.Distinct := by decide
  refine ⟨hlog, rfl, rfl, ?_⟩
  rcases (effect_without_version treeChain hlog rfl rfl).2 with
    ⟨after, hvalue, hwritten, hversion, -⟩
  have hname : (applyAll (treeChain.schemas.filter (·.version ≠ .zero))
      (BlockState.normalize ⟨"X:Log", (log.getCompound? "states").map BlockState.propertiesOf,
        none⟩)).identifier = "x:silver_fir_log" := by
    decide +kernel
  exact ⟨after, hvalue, hname ▸ hwritten.name, hversion (by decide)⟩

/-! ## A schema of the version 0.0.0.0 -/

/-- Logs are called trunks, from the least version on. -/
def leastDocument : RuleDocument :=
  { RuleDocument.unchanged .zero with renamedIds := .ofList [("x:log", "x:trunk")] }

/-- The chain of this document alone. -/
def leastChain : Chain where
  schemas := [⟨leastDocument.version, leastDocument.steps, none⟩]
  sorted := by decide

/-- The only schema of a chain would call a log without a version a trunk, but it is not applied,
and no version is written. -/
theorem zero_schema_is_passed_over :
    let log : Compound := [("name", .string "x:log")]
    leastChain.FromDocuments ∧ log.Distinct ∧ log.getString? "name" = some "x:log" ∧
    log.getInt? "version" = none ∧ leastChain.latest? = some .zero ∧
    applyAll leastChain.schemas ⟨"x:log", none, none⟩ = ⟨"x:trunk", none, none⟩ ∧
    (leastChain.upgradeTag log).value = (some .zero, log) := by
  intro log
  have hchain : leastChain.FromDocuments :=
    fromDocument_iff_exists_documents.2 ⟨[leastDocument], .cons rfl .nil⟩
  exact ⟨hchain, by decide, rfl, rfl, rfl, by decide +kernel, by rfl⟩

end Chain
end BlockData
