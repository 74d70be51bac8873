import BlockData.Chain
import BlockData.Proofs.Version

/-!
# Schemas of an upgrade

Which schemas a chain applies, and the version that they lead to.  As a chain is sorted, the
schemas newer than a version are found by looking at each of them (`newerThan_eq_filter`),
and a bound splits the chain in two (`schemas_eq_append`).  An upgrade that goes on where the
chain up to a bound has left off applies what is left (`newerThan_eq_append`).
-/

namespace BlockData.Chain

/-! ## Sorted schemas -/

/-- In a sorted list, nothing that comes after a newer schema is older. -/
theorem dropWhile_eq_filter {schemas : List Schema}
    (sorted : schemas.Pairwise fun a b => a.version ≤ b.version) (bound : Version) :
    schemas.dropWhile (·.version ≤ bound) = schemas.filter (bound < ·.version) := by
  induction schemas with
  | nil => rfl
  | cons schema rest ih =>
    rcases List.pairwise_cons.1 sorted with ⟨hfirst, hrest⟩
    by_cases hle : schema.version ≤ bound
    · have hlt : ¬ bound < schema.version := hle
      simp [hle, hlt, ih hrest]
    · -- the first schema is newer, and so are all that follow
      have hnewer : ∀ other ∈ schema :: rest, bound < other.version := by
        intro other hother
        have hbound := Version.not_le.1 hle
        rcases List.mem_cons.1 hother with rfl | hmem
        · exact hbound
        · have hnext := hfirst other hmem
          simp only [Version.lt_iff_number_lt, Version.le_iff_number_le] at *
          omega
      rw [List.filter_eq_self.2 (by simpa using hnewer)]
      simp [hle]

/-- In a sorted list, the schemas up to a bound stand before those beyond it. -/
theorem eq_filter_append_filter {schemas : List Schema}
    (sorted : schemas.Pairwise fun a b => a.version ≤ b.version) (bound : Version) :
    schemas = schemas.filter (·.version ≤ bound) ++ schemas.filter (bound < ·.version) := by
  induction schemas with
  | nil => rfl
  | cons schema rest ih =>
    rcases List.pairwise_cons.1 sorted with ⟨hfirst, hrest⟩
    by_cases hle : schema.version ≤ bound
    · have hlt : ¬ bound < schema.version := hle
      simpa [hle, hlt] using ih hrest
    · -- the first schema is beyond the bound, and so are all that follow
      have hnone : ∀ other ∈ rest, ¬ other.version ≤ bound := by
        intro other hother
        have hbound := Version.not_le.1 hle
        have hnext := hfirst other hother
        simp only [Version.lt_iff_number_lt, Version.le_iff_number_le] at *
        omega
      have hall : ∀ other ∈ rest, bound < other.version :=
        fun other hother => Version.not_le.1 (hnone other hother)
      rw [List.filter_eq_nil_iff.2 (by simpa [hle] using hnone),
        List.filter_eq_self.2 (by simpa using ⟨Version.not_le.1 hle, hall⟩)]
      rfl

/-- The schemas newer than a version, each of them looked at. -/
theorem newerThan_eq_filter (chain : Chain) (version : Version) :
    chain.newerThan version = chain.schemas.filter (version < ·.version) :=
  dropWhile_eq_filter chain.sorted version

/-- A bound splits the chain into its schemas up to the bound and those beyond it. -/
theorem schemas_eq_append (chain : Chain) (bound : Version) :
    chain.schemas = (chain.upTo bound).schemas ++ chain.newerThan bound := by
  rw [newerThan_eq_filter]
  exact eq_filter_append_filter chain.sorted bound

/-- The schemas newer than a version stand in the order of their versions. -/
theorem pairwise_newerThan (chain : Chain) (version : Version) :
    (chain.newerThan version).Pairwise fun a b => a.version ≤ b.version :=
  chain.sorted.sublist (List.dropWhile_sublist _)

/-! ## The last version -/

/-- Without schemas the version stays, and otherwise it is that of one of them. -/
theorem lastVersion_cases (schemas : List Schema) (version : Version) :
    (schemas = [] ∧ lastVersion schemas version = version) ∨
      ∃ schema ∈ schemas, lastVersion schemas version = schema.version := by
  unfold lastVersion
  cases hlast : schemas.getLast? with
  | none => exact Or.inl ⟨List.getLast?_eq_none_iff.1 hlast, rfl⟩
  | some schema => exact Or.inr ⟨schema, List.mem_of_getLast? hlast, rfl⟩

/-- The last of two groups of schemas counts, if there is any in it. -/
theorem lastVersion_append (first second : List Schema) (version : Version) :
    lastVersion (first ++ second) version = lastVersion second (lastVersion first version) := by
  simp only [lastVersion, List.getLast?_append]
  cases second.getLast? <;> simp

/-- No sorted schema is newer than the last version. -/
theorem version_le_lastVersion {schemas : List Schema}
    (sorted : schemas.Pairwise fun a b => a.version ≤ b.version) (version : Version)
    {schema : Schema} (h : schema ∈ schemas) : schema.version ≤ lastVersion schemas version := by
  induction schemas generalizing version with
  | nil => simp at h
  | cons first rest ih =>
    rcases List.pairwise_cons.1 sorted with ⟨hfirst, hrest⟩
    have hstep : lastVersion (first :: rest) version = lastVersion rest first.version :=
      lastVersion_append [first] rest version
    rw [hstep]
    rcases List.mem_cons.1 h with rfl | hmem
    · -- the first one: the last version is its own or that of one behind it
      rcases lastVersion_cases rest schema.version with ⟨-, heq⟩ | ⟨last, hlast, heq⟩
      · rw [heq]
        simp [Version.le_iff_number_le]
      · rw [heq]
        exact hfirst last hlast
    · exact ih hrest first.version hmem

/-- An upgrade does not lead to an older version. -/
theorem le_lastVersion_newerThan (chain : Chain) (source : Version) :
    source ≤ lastVersion (chain.newerThan source) source := by
  rcases lastVersion_cases (chain.newerThan source) source with ⟨-, h⟩ | ⟨schema, hmem, h⟩
  · rw [h]
    simp [Version.le_iff_number_le]
  · rw [newerThan_eq_filter] at hmem
    have hnewer : source < schema.version := by simpa using (List.mem_filter.1 hmem).2
    rw [h]
    rw [Version.lt_iff_number_lt] at hnewer
    rw [Version.le_iff_number_le]
    omega

/-- The version stays exactly if no schema is applied. -/
theorem lastVersion_newerThan_eq_iff (chain : Chain) (source : Version) :
    lastVersion (chain.newerThan source) source = source ↔ chain.newerThan source = [] := by
  constructor
  · intro hsame
    rcases lastVersion_cases (chain.newerThan source) source with ⟨hnil, -⟩ | ⟨last, hlast, heq⟩
    · exact hnil
    · -- a schema that is applied is newer than the source
      rw [newerThan_eq_filter, List.mem_filter] at hlast
      have hnewer : source < last.version := of_decide_eq_true hlast.2
      rw [← heq, hsame, Version.lt_iff_number_lt] at hnewer
      exact absurd hnewer (Nat.lt_irrefl _)
  · intro hnil
    rw [hnil]
    rfl

/-! ## Two stages -/

/-- The version that the chain up to a bound leads to selects the schemas that it has left
over. -/
theorem lastVersion_lt_iff (chain : Chain) (limit source : Version) {schema : Schema}
    (h : schema ∈ chain.schemas) :
    lastVersion ((chain.upTo limit).newerThan source) source < schema.version ↔
      source < schema.version ∧ limit < schema.version := by
  have hstage : ∀ other, other ∈ (chain.upTo limit).newerThan source ↔
      other ∈ chain.schemas ∧ other.version ≤ limit ∧ source < other.version := by
    intro other
    rw [newerThan_eq_filter, upTo, List.mem_filter, List.mem_filter, and_assoc]
    simp
  have hreached := le_lastVersion_newerThan (chain.upTo limit) source
  constructor
  · intro hlt
    have hsource : source < schema.version := by
      simp only [Version.lt_iff_number_lt, Version.le_iff_number_le] at *
      omega
    refine ⟨hsource, Version.not_le.1 ?_⟩
    -- a schema up to the bound would have been applied in the first stage
    intro hle
    have hmem := (hstage schema).2 ⟨h, hle, hsource⟩
    exact version_le_lastVersion (pairwise_newerThan _ source) source hmem hlt
  · rintro ⟨hsource, hlimit⟩
    rcases lastVersion_cases ((chain.upTo limit).newerThan source) source with
      ⟨-, heq⟩ | ⟨last, hlast, heq⟩
    · -- nothing was applied, and the version is still the source
      rw [heq]
      exact hsource
    · -- the last schema applied is within the bound
      have hle := ((hstage last).1 hlast).2.1
      rw [heq]
      simp only [Version.lt_iff_number_lt, Version.le_iff_number_le] at *
      omega

/-- What a chain applies is what it applies up to a bound, and then what it applies from the
version reached there. -/
theorem newerThan_eq_append (chain : Chain) (limit source : Version) :
    chain.newerThan source =
      (chain.upTo limit).newerThan source ++
        chain.newerThan (lastVersion ((chain.upTo limit).newerThan source) source) := by
  have hrest : chain.newerThan (lastVersion ((chain.upTo limit).newerThan source) source) =
      (chain.newerThan limit).filter (source < ·.version) := by
    rw [newerThan_eq_filter, newerThan_eq_filter chain limit, List.filter_filter]
    refine List.filter_congr ?_
    intro schema hschema
    rw [Bool.eq_iff_iff]
    simpa using lastVersion_lt_iff chain limit source hschema
  calc chain.newerThan source
      = chain.schemas.filter (source < ·.version) := newerThan_eq_filter chain source
    _ = (chain.upTo limit).schemas.filter (source < ·.version) ++
          (chain.newerThan limit).filter (source < ·.version) := by
        rw [← List.filter_append, ← schemas_eq_append]
    _ = _ := by rw [← newerThan_eq_filter, hrest]

/-- No version is beyond the greatest one. -/
theorem upTo_greatest (chain : Chain) : chain.upTo ⟨255, 255, 255, 255⟩ = chain := by
  rcases chain with ⟨schemas, sorted⟩
  have hall : schemas.filter (·.version ≤ ⟨255, 255, 255, 255⟩) = schemas := by
    refine List.filter_eq_self.2 ?_
    intro schema _
    exact decide_eq_true schema.version.le_greatest
  simp only [upTo, hall]

end BlockData.Chain
