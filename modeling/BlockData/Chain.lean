import BlockData.BlockState.Tag
import BlockData.Schema.Compile

/-!
# Chains of schemas

A chain holds schemas in the order of their versions.  A block state is upgraded by the
schemas that are newer than the version it was stored with, one after the other.

* `Chain.ofSchemas` sorts schemas, those of equal version in the order given;
* `Chain.upgrade` upgrades a block state, `Chain.upgradeTag` one that is stored in a
  compound.
-/

namespace BlockData

/-- Schemas in the order of their versions. -/
structure Chain where
  schemas : List Schema
  sorted : schemas.Pairwise fun a b => a.version ≤ b.version
  deriving DecidableEq, Repr

namespace Chain

/-- The chain without schemas. -/
def empty : Chain := ⟨[], .nil⟩

instance : Inhabited Chain := ⟨empty⟩

/-- Whether a schema may stand before another one. -/
def inOrder (a b : Schema) : Bool :=
  decide (a.version ≤ b.version)

/-- Schemas sorted by version, those of equal version in the order given. -/
def ofSchemas (schemas : List Schema) : Chain where
  schemas := schemas.mergeSort inOrder
  sorted := by
    have h := @List.pairwise_mergeSort _ inOrder
      (fun a b c hab hbc => by
        simp only [inOrder, decide_eq_true_eq] at *
        exact Version.le_trans hab hbc)
      (fun a b => by
        simp only [inOrder, Bool.or_eq_true, decide_eq_true_eq]
        exact Version.le_total a.version b.version)
      schemas
    exact h.imp fun {a b} hab => by simpa only [inOrder, decide_eq_true_eq] using hab

/-- The chain without the schemas beyond a version. -/
def upTo (chain : Chain) (limit : Version) : Chain where
  schemas := chain.schemas.filter (·.version ≤ limit)
  sorted := chain.sorted.filter _

/-- The number of schemas. -/
def size (chain : Chain) : Nat :=
  chain.schemas.length

/-- The version of the newest schema. -/
def latest? (chain : Chain) : Option Version :=
  chain.schemas.getLast?.map (·.version)

/-- Compile documents one after the other, up to the first that has a defect. -/
def compileAll : List RuleDocument → Logged (Compiled (List Schema))
  | [] => return .ok []
  | document :: rest => do
    match ← Schema.ofDocument document with
    | .error e => return .error e
    | .ok schema =>
      match ← compileAll rest with
      | .error e => return .error e
      | .ok schemas => return .ok (schema :: schemas)

/-- The chain of documents. -/
def ofDocuments (documents : List RuleDocument) : Logged (Compiled Chain) := do
  return (← compileAll documents).map ofSchemas

/-! ## Upgrading -/

/-- The schemas that are newer than a version.  They stand at the end of the chain. -/
def newerThan (chain : Chain) (version : Version) : List Schema :=
  chain.schemas.dropWhile (·.version ≤ version)

/-- Apply schemas in order. -/
def applyAll (schemas : List Schema) (state : BlockState) : BlockState :=
  schemas.foldl (fun state schema => schema.apply state) state

/-- The version of the last of some schemas, or the one given if there is none. -/
def lastVersion (schemas : List Schema) (version : Version) : Version :=
  (schemas.getLast?.map (·.version)).getD version

/-- Upgrade a block state that has the form of a version.  It is put in lower case first
and loses its pending name.  Also gives the version that it has then. -/
def upgrade (chain : Chain) (state : BlockState) (source : Version) : BlockState × Version :=
  let newer := chain.newerThan source
  (applyAll newer { state.normalize with pending := none }, lastVersion newer source)

/-- The version that a stored block state has; without one it is older than all. -/
def storedVersion (tag : Compound) : Version :=
  ((tag.getInt? "version").map Version.ofStored).getD .zero

/-- Write the version of a block state that was read with the version `source`: into its
field, or as a new one if there is something to say. -/
def writeVersion (tag : Compound) (source version : Version) : Compound :=
  if (tag.getInt? "version").isSome ∨ version ≠ source then
    tag.insert "version" (.int version.stored)
  else
    tag

/-- Upgrade a stored block state.  Gives the version that it has then, or nothing, and
the compound as it was, if there is no name in it. -/
def upgradeTag (chain : Chain) (tag : Compound) : Logged (Option Version × Compound) := do
  match ← BlockState.ofTag? tag with
  | none =>
    Logged.note .unnamedBlockState
    return (none, tag)
  | some state =>
    -- the version is read before the tag is changed
    let source := storedVersion tag
    let (state, version) := chain.upgrade state source
    return (some version, writeVersion (state.writeTo tag) source version)

end Chain
end BlockData
