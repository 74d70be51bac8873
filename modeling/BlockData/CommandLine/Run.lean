import BlockData.BlockEntity.Converter
import BlockData.Chain.Load
import BlockData.CommandLine.Arguments
import BlockData.Json.Encoder
import BlockData.Tag.Text

/-!
# Running a command

What the program prints for a command line, as a function of the files it can see.  Each
way to fail has a message of its own; files are looked at in a fixed order, and the first
failure counts.
-/

namespace BlockData.CommandLine

/-- What the program can see: the texts of files by their paths, what a walk from a
directory meets, and its input. -/
structure Surroundings where
  text? : String → Option String
  walk? : String → Option (List FileTree.Visit)
  input? : Option String

/-- What lies below a directory, with bytes as input. -/
def Surroundings.ofTree (top : FileTree) (input : ByteArray) : Surroundings where
  text? := top.readText?
  walk? := top.walk?
  input? := String.fromUTF8? input

/-- Why a command fails. -/
inductive Failure where
  | noSchemas (directory : String)
  | noInput
  | unreadable (path : String)
  /-- An input is not the text of a compound. -/
  | noTagTree (source : String)
  | unnamed
  | noItems (path : String)
  | noConverter (identifier : String)
  deriving DecidableEq, Repr

/-- The message of a failure. -/
def Failure.message : Failure → String
  | noSchemas directory => s!"failed to load upgrade schemas from {directory}"
  | noInput => "failed to read from stdin"
  | unreadable path => s!"failed to read file: {path}"
  | noTagTree source => s!"{source} is not a JSON tag tree"
  | unnamed => "block state has no string `name`"
  | noItems path => s!"failed to load item mappings {path}"
  | noConverter identifier =>
    let known := ", ".intercalate BlockEntity.known
    s!"no block entity rewriter for '{identifier}' (known: {known})"

/-- The first line of a text.  A carriage return at its end belongs to the line end. -/
def firstLine (text : String) : String :=
  let line := text.toList.takeWhile (· ≠ '\n')
  String.ofList (if line.getLast? = some '\r' then line.dropLast else line)

/-- A failure in one line. -/
def Failure.headline (failure : Failure) : String :=
  firstLine failure.message

/-- How a run of the program ends. -/
inductive Outcome where
  /-- The text is printed. -/
  | printed (text : String)
  | failed (failure : Failure)
  /-- The arguments are misused. -/
  | misused
  deriving DecidableEq, Repr

/-- The status that the program ends with. -/
def Outcome.exitCode : Outcome → UInt32
  | printed _ => 0
  | failed _ => 1
  | misused => 2

/-! ## Commands -/

/-- The text of a source, which is a path or a hyphen for the input. -/
def readSource (s : Surroundings) (source : String) : Except Failure String :=
  if source = "-" then
    s.input?.elim (.error .noInput) .ok
  else
    (s.text? source).elim (.error (.unreadable source)) .ok

/-- The compound in a source. -/
def readTag (s : Surroundings) (source : String) : Except Failure Compound := do
  let text ← readSource s source
  (Compound.read? text).elim (.error (.noTagTree source)) .ok

/-- The chain that the options ask for. -/
def loadChain (s : Surroundings) (options : Options) : Except Failure Chain :=
  match (Chain.load options.config (s.walk? options.config.directory)).value with
  | .ok chain => .ok chain
  | .error _ => .error (.noSchemas options.config.directory)

/-- The item mappings in a file, or none at all without a file. -/
def loadItems (s : Surroundings) : Option String → Except Failure ItemMapping
  | none => .ok .empty
  | some path =>
    match (ItemMapping.load path (s.text? path)).value with
    | .ok items => .ok items
    | .error _ => .error (.noItems path)

/-- The value of a text that may be missing. -/
def optionJson : Option String → Json
  | some text => .text text
  | none => .null

/-- The entry of a schema in the list of schemas. -/
def schemaJson (schema : Schema) : Json :=
  .record [
    ("actions", .int schema.actions.length),
    ("file", optionJson schema.label),
    ("version", .text schema.version.text)]

/-- The list of the schemas of a chain. -/
def chainJson (chain : Chain) : Json :=
  .record [
    ("latest", optionJson (chain.latest?.map Version.text)),
    ("schemas", Json.ofList schemaJson chain.schemas)]

/-- Upgrade the block state in a source. -/
def upgrade (s : Surroundings) (options : Options) (input : String)
    (source : Option Version) : Except Failure Compound := do
  let chain ← loadChain s options
  let tag ← readTag s input
  let tag := match source with
    | some version => tag.insert "version" (.int version.stored)
    | none => tag
  match (chain.upgradeTag tag).value with
  | (some _, tag) => return tag
  | (none, _) => throw .unnamed

/-- Convert the block entity in a source. -/
def convert (s : Surroundings) (identifier input : String) (items : Option String) :
    Except Failure Compound := do
  let items ← loadItems s items
  let source ← readTag s input
  match (BlockEntity.convert items identifier source).value with
  | some target => return target
  | none => throw (.noConverter identifier)

/-- The value that a command prints. -/
def result (s : Surroundings) (options : Options) : Command → Except Failure Json
  | .schemas => (loadChain s options).map chainJson
  | .upgrade input source => (upgrade s options input source).map Compound.toJson
  | .convert identifier input items => (convert s identifier input items).map Compound.toJson

/-- The name and the version of the program. -/
def versionText : String := "strata 0.1.0\n"

/-- How the program is used. -/
def usageText : String :=
  "Usage: strata [OPTIONS] <COMMAND>\n\n" ++
  "Commands:\n" ++
  "  schemas                     List loaded upgrade schemas\n" ++
  "  upgrade <INPUT>             Upgrade a block state tag to the newest schema\n" ++
  "  rewrite <IDENTIFIER> <INPUT>  Rewrite a block entity tree\n\n" ++
  "Options:\n" ++
  "  --schemas <DIR>, --max-version <VERSION>, --pretty, --help, --version\n"

/-- What the program does for a request. -/
def respond (s : Surroundings) : Request → Outcome
  | .help => .printed usageText
  | .version => .printed versionText
  | .run options command =>
    match result s options command with
    | .ok value =>
      let layout : Json.Layout := if options.pretty then .indented else .compact
      .printed (value.print layout ++ "\n")
    | .error failure => .failed failure

/-- What the program does for its arguments. -/
def run (s : Surroundings) (environment : String → Option String) (arguments : List String) :
    Outcome :=
  match Request.read? environment arguments with
  | some request => respond s request
  | none => .misused

end BlockData.CommandLine
