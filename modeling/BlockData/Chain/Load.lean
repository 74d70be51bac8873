import BlockData.Chain
import BlockData.Config
import BlockData.FileTree.Walk
import BlockData.Text.Quoted

/-!
# Loading chains from directories

Every rule document below a directory becomes a schema, which is labelled with the name
of its file.  The first file that is no text or no good document is the error, wherever
its version lies, unless the walk ends before it; schemas beyond the version wanted are
left out at the end.
-/

namespace BlockData

/-- Why a chain cannot be loaded. -/
inductive LoadError where
  /-- There is nothing at the root, or a directory below it cannot be entered. -/
  | unwalked (root : String)
  /-- A file cannot be opened or is no text. -/
  | unreadable (path : String)
  /-- A file gives no schema. -/
  | schema (path : String) (error : SchemaError)
  deriving DecidableEq, Repr

/-- The message that reports a defect of a document.  Other errors are reported in words
of the system. -/
def LoadError.message? : LoadError → Option String
  | schema path (.defect error) =>
    let shown := Text.Quoted.quote path
    some s!"invalid rule document {shown}: {error.message}"
  | _ => none

namespace Chain

/-- Whether a file is taken for a rule document: its name is `.json` after a stem. -/
def isRuleFile (name : String) : Bool :=
  ".json".toList.isSuffixOf name.toList && name ≠ ".json"

/-- Whether loading heeds what a walk meets. -/
def isHeeded : FileTree.Visit → Bool
  | .file found => isRuleFile found.name
  | .closed _ => true

/-- The schema in a file. -/
def loadFile (file : FileTree.Found) : Logged (Except LoadError Schema) :=
  match file.text? with
  | none => return .error (.unreadable file.path)
  | some text => do
    match ← Schema.read text with
    | .error e => return .error (.schema file.path e)
    | .ok schema =>
      Logged.note (.loadedSchema schema.version file.name)
      return .ok (schema.withLabel file.name)

/-- The schemas that a walk from `root` meets, one after the other, up to the first
error. -/
def loadVisits (root : String) :
    List FileTree.Visit → Logged (Except LoadError (List Schema))
  | [] => return .ok []
  | .closed _ :: _ => return .error (.unwalked root)
  | .file file :: rest => do
    match ← loadFile file with
    | .error e => return .error e
    | .ok schema =>
      match ← loadVisits root rest with
      | .error e => return .error e
      | .ok schemas => return .ok (schema :: schemas)

/-- Leave out the schemas beyond the version wanted. -/
def limit (chain : Chain) : Option Version → Logged Chain
  | none => return chain
  | some version => do
    let limited := chain.upTo version
    let skipped := chain.size - limited.size
    if skipped ≠ 0 then
      Logged.note (.skippedSchemas skipped version)
    return limited

/-- The chain of the rule documents that a walk from the directory of a configuration
meets. -/
def load (config : Config) (walk : Option (List FileTree.Visit)) :
    Logged (Except LoadError Chain) :=
  match walk with
  | none => return .error (.unwalked config.directory)
  | some visits => do
    match ← loadVisits config.directory (visits.filter isHeeded) with
    | .error e => return .error e
    | .ok schemas =>
      -- every file has been read by now, also those beyond the limit
      let chain ← (ofSchemas schemas).limit config.limit
      Logged.note (.loadedSchemas chain.size config.directory)
      return .ok chain

end Chain

end BlockData
