import BlockData.Version

/-!
# Where schemas are found

The directory of the rule documents, and the greatest version that is wanted.
-/

namespace BlockData

/-- Which schemas to load. -/
structure Config where
  /-- The directory with the rule documents. -/
  directory : String
  /-- The greatest version wanted; all of them without it. -/
  limit : Option Version
  deriving DecidableEq, Repr

namespace Config

/-- The directory that is taken if none is named. -/
def defaultDirectory : String := "block_state_upgrade_schema"

/-- The environment variable that names the directory. -/
def directoryVariable : String := "STRATA_SCHEMA_DIR"

/-- The environment variable that names the greatest version wanted. -/
def limitVariable : String := "STRATA_MAX_SCHEMA_VERSION"

/-- What the environment asks for. -/
def ofEnvironment (environment : String → Option String) :
    Except Version.ReadError Config := do
  let limit ← match environment limitVariable with
    | none => pure none
    | some text => (Version.read text).map some
  return ⟨(environment directoryVariable).getD defaultDirectory, limit⟩

end Config
end BlockData
