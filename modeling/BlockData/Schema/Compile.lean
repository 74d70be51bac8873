import BlockData.Notice
import BlockData.Rule.Text
import BlockData.Schema.Basic

/-!
# Compiling rule documents

A rule document becomes a schema.  Identifiers, new names and text literals are put in
lower case, literals get their kind, and references to lookup tables are replaced by the
tables.  The steps follow a fixed order of sections, whatever the order in the text:
replaced states, new identifiers, flattened, added and removed properties, changed
values, renamed properties, and at last the pending name.

The first defect on the way is the error: lookup tables come first, then the sections
in the order above; within a replacement the name comes before the literals.
-/

namespace BlockData

/-- Where a literal stands in a document. -/
inductive LiteralPlace where
  | lookupTable (name : String)
  | oldState (identifier property : String)
  | newState (identifier property : String)
  | addedProperties (identifier property : String)
  deriving DecidableEq, Repr

/-- The place as messages name it. -/
def LiteralPlace.text : LiteralPlace → String
  | lookupTable name => s!"remappedPropertyValuesIndex.{name}"
  | oldState identifier property => s!"{identifier} oldState.{property}"
  | newState identifier property => s!"{identifier} newState.{property}"
  | addedProperties identifier property => s!"{identifier} addedProperties.{property}"

/-- Why a document cannot be compiled. -/
inductive CompileError where
  /-- A state rule gives no name. -/
  | missingNewName (identifier : String)
  /-- A literal has none of the known kinds. -/
  | unknownValueKind (place : LiteralPlace)
  /-- A property refers to a lookup table that there is not. -/
  | unknownLookup (identifier property lookup : String)
  deriving DecidableEq, Repr

/-- The message that reports the error. -/
def CompileError.message : CompileError → String
  | missingNewName identifier => s!"no new name or flattened name specified for {identifier}"
  | unknownValueKind place =>
    s!"unknown value kind in {place.text} (expected one of int, byte, string)"
  | unknownLookup identifier property lookup =>
    s!"{identifier} property {property} references unknown value lookup '{lookup}'"

/-- Results of compiling. -/
abbrev Compiled (α : Type) := Except CompileError α

/-- The value of a literal, in lower case. -/
def Literal.value? (literal : Literal) : Option PropertyValue :=
  match literal.int, literal.byte, literal.string with
  | some n, _, _ => some (.int n)
  | none, some n, _ => some (.byte n)
  | none, none, some s => some (.string (Text.lowercase s))
  | none, none, none => none

/-- The value of the literal at a place. -/
def Literal.compile (place : LiteralPlace) (literal : Literal) : Compiled PropertyValue :=
  match literal.value? with
  | some value => .ok value
  | none => .error (.unknownValueKind place)

/-- The properties that literals give, each at its place. -/
def compileProperties (place : String → LiteralPlace) (literals : Dict Literal) :
    Compiled Properties := do
  let values ← literals.entries.mapM fun (property, literal) => do
    return (property, ← literal.compile (place property))
  return .ofList values

/-- A row of a lookup table. -/
def LookupRow.compile (table : String) (row : LookupRow) : Compiled ValueChange := do
  let old ← row.old.compile (.lookupTable table)
  let new ← row.new.compile (.lookupTable table)
  return ⟨old, new⟩

/-- The lookup tables of a document. -/
def compileLookups (lookups : Dict (List LookupRow)) : Compiled (Dict (List ValueChange)) := do
  let tables ← lookups.entries.mapM fun (name, rows) => do
    return (name, ← rows.mapM (·.compile name))
  return .ofList tables

/-- A flattened name: texts to replace are put in lower case, as values are. -/
def FlattenedName.compile (name : FlattenedName) : Flattening where
  head := name.head
  property := name.property
  tail := name.tail
  replacements :=
    .ofList ((name.replacements.getD .empty).entries.map fun (old, new) =>
      (Text.lowercase old, new))

/-- The name that a state rule gives. -/
def StateRule.newName? (rule : StateRule) : Option NewName :=
  match rule.newName, rule.newFlattenedName with
  | some name, _ => some (.literal (Text.lowercase name))
  | none, some name => some (.flattened name.compile)
  | none, none => none

/-- A state rule of a block. -/
def StateRule.compile (identifier : String) (rule : StateRule) : Compiled Replacement :=
  match rule.newName? with
  | none => .error (.missingNewName identifier)
  | some name => do
    let oldState ← compileProperties (.oldState identifier) (rule.oldState.getD .empty)
    let newState ← compileProperties (.newState identifier) (rule.newState.getD .empty)
    return ⟨oldState, newState, rule.copiedState, name⟩

/-- The table that a property refers to. -/
def findLookup (tables : Dict (List ValueChange)) (identifier property lookup : String) :
    Compiled (List ValueChange) :=
  match tables.get? lookup with
  | some table => .ok table
  | none => .error (.unknownLookup identifier property lookup)

/-- One action for each entry of a section, whose key is the identifier. -/
def compileSection {α : Type} (entries : Dict α)
    (action : String → α → Compiled Action) : Compiled (List Action) :=
  entries.entries.mapM fun (identifier, rule) => action (Text.lowercase identifier) rule

/-- The action of the section of new identifiers, if it has entries.  Of keys that differ
only in case the last one counts. -/
def compileRenamedIds (renamedIds : Dict String) : List Action :=
  if renamedIds.isEmpty then
    []
  else
    [.renameIds (.ofList (renamedIds.entries.map fun (old, new) =>
      (Text.lowercase old, Text.lowercase new)))]

/-- The schema of a document. -/
def RuleDocument.compile (document : RuleDocument) : Compiled Schema := do
  let tables ← compileLookups document.lookups
  let remapped ← compileSection document.remappedStates fun identifier rules => do
    return .remapStates identifier (← rules.mapM (·.compile identifier))
  let flattened ← compileSection document.flattenedProperties fun identifier name =>
    return .flatten identifier name.compile
  let added ← compileSection document.addedProperties fun identifier literals => do
    return .addProperties identifier
      (← compileProperties (.addedProperties identifier) literals)
  let removed ← compileSection document.removedProperties fun identifier names =>
    return .removeProperties identifier names
  let changed ← compileSection document.remappedValues fun identifier lookups => do
    let changes ← lookups.entries.mapM fun (property, lookup) => do
      return (property, ← findLookup tables identifier property lookup)
    return .remapValues identifier (.ofList changes)
  let renamed ← compileSection document.renamedProperties fun identifier renames =>
    return .renameProperties identifier renames
  return {
    version := document.version
    -- the pending name comes last: all other steps look at the old one
    actions :=
      remapped ++ compileRenamedIds document.renamedIds ++ flattened ++ added ++ removed ++
        changed ++ renamed ++ [.takeName]
    label := none }

/-- The notice of a schema that has been compiled. -/
def Schema.compiledNotice (schema : Schema) : Notice :=
  .compiledSchema schema.version schema.actions.length

/-- The schema of a document, and its notice. -/
def Schema.ofDocument (document : RuleDocument) : Logged (Compiled Schema) :=
  match document.compile with
  | .ok schema => do
    Logged.note schema.compiledNotice
    return .ok schema
  | .error e => return .error e

/-- Why a text gives no schema. -/
inductive SchemaError where
  /-- The text is no rule document. -/
  | malformed
  /-- The document has a defect. -/
  | defect (error : CompileError)
  deriving DecidableEq, Repr

/-- The schema that a text describes. -/
def Schema.read (text : String) : Logged (Except SchemaError Schema) :=
  match RuleDocument.read? text with
  | none => return .error .malformed
  | some document => do
    match ← Schema.ofDocument document with
    | .ok schema => return .ok schema
    | .error e => return .error (.defect e)

end BlockData
