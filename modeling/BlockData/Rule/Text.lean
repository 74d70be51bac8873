import BlockData.Rule.Document
import BlockData.Json.Decoder
import BlockData.Json.Encoder
import BlockData.Json.Printer

/-!
# Rule documents as text

The fields of each record, in the order in which they are written and in which an array
gives them.  Sections that are empty and options that are absent are not written, and
are what a missing field stands for.

* `RuleDocument.read?` and `RuleDocument.text` are the two directions.
-/

namespace BlockData

open Json (Field required defaulted optional member memberIfSome memberUnlessNil
  memberUnlessEmpty)

/-! ## Writing -/

/-- The object of a literal. -/
def Literal.toJson (literal : Literal) : Json :=
  .record (
    memberIfSome "int" (fun n => .int n.toInt) literal.int ++
    memberIfSome "byte" (fun n => .int n.toInt) literal.byte ++
    memberIfSome "string" .text literal.string)

/-- The object of a row. -/
def LookupRow.toJson (row : LookupRow) : Json :=
  .record [("old", row.old.toJson), ("new", row.new.toJson)]

/-- The object of a flattened name. -/
def FlattenedName.toJson (name : FlattenedName) : Json :=
  .record (
    member "prefix" (.text name.head) ++
    member "flattenedProperty" (.text name.property) ++
    member "suffix" (.text name.tail) ++
    memberIfSome "flattenedValueRemaps" (Json.ofDict .text) name.replacements)

/-- The object of a state rule. -/
def StateRule.toJson (rule : StateRule) : Json :=
  .record (
    memberIfSome "oldState" (Json.ofDict Literal.toJson) rule.oldState ++
    memberIfSome "newState" (Json.ofDict Literal.toJson) rule.newState ++
    memberUnlessNil "copiedState" .text rule.copiedState ++
    memberIfSome "newName" .text rule.newName ++
    memberIfSome "newFlattenedName" FlattenedName.toJson rule.newFlattenedName)

/-- The object of a document. -/
def RuleDocument.toJson (document : RuleDocument) : Json :=
  .record (
    member "maxVersionMajor" (.int document.version.major.toNat) ++
    member "maxVersionMinor" (.int document.version.minor.toNat) ++
    member "maxVersionPatch" (.int document.version.patch.toNat) ++
    member "maxVersionRevision" (.int document.version.revision.toNat) ++
    memberUnlessEmpty "remappedPropertyValuesIndex" (Json.ofList LookupRow.toJson)
      document.lookups ++
    memberUnlessEmpty "remappedStates" (Json.ofList StateRule.toJson) document.remappedStates ++
    memberUnlessEmpty "renamedIds" .text document.renamedIds ++
    memberUnlessEmpty "flattenedProperties" FlattenedName.toJson document.flattenedProperties ++
    memberUnlessEmpty "addedProperties" (Json.ofDict Literal.toJson) document.addedProperties ++
    memberUnlessEmpty "removedProperties" (Json.ofList .text) document.removedProperties ++
    memberUnlessEmpty "remappedPropertyValues" (Json.ofDict .text) document.remappedValues ++
    memberUnlessEmpty "renamedProperties" (Json.ofDict .text) document.renamedProperties)

/-- The compact text of a document. -/
def RuleDocument.text (document : RuleDocument) : String :=
  document.toJson.compact

/-! ## Reading -/

/-- Read a literal. -/
def Literal.ofJson? (value : Json) : Option Literal := do
  match ← value.fields? ["int", "byte", "string"] with
  | [int, byte, string] =>
    return {
      int := ← optional Json.asInt32? int
      byte := ← optional Json.asInt8? byte
      string := ← optional Json.asText? string }
  | _ => none

/-- Read a row. -/
def LookupRow.ofJson? (value : Json) : Option LookupRow := do
  match ← value.fields? ["old", "new"] with
  | [old, new] =>
    return {
      old := ← required Literal.ofJson? old
      new := ← required Literal.ofJson? new }
  | _ => none

/-- Read a flattened name. -/
def FlattenedName.ofJson? (value : Json) : Option FlattenedName := do
  match ← value.fields? ["prefix", "flattenedProperty", "suffix", "flattenedValueRemaps"] with
  | [head, property, tail, replacements] =>
    return {
      head := ← required Json.asText? head
      property := ← required Json.asText? property
      tail := ← required Json.asText? tail
      replacements := ← optional (Json.asDict? Json.asText?) replacements }
  | _ => none

/-- Read a state rule. -/
def StateRule.ofJson? (value : Json) : Option StateRule := do
  match ← value.fields?
      ["oldState", "newState", "copiedState", "newName", "newFlattenedName"] with
  | [oldState, newState, copiedState, newName, newFlattenedName] =>
    return {
      oldState := ← optional (Json.asDict? Literal.ofJson?) oldState
      newState := ← optional (Json.asDict? Literal.ofJson?) newState
      copiedState := ← defaulted [] (Json.asList? Json.asText?) copiedState
      newName := ← optional Json.asText? newName
      newFlattenedName := ← optional FlattenedName.ofJson? newFlattenedName }
  | _ => none

/-- The names of a document's fields. -/
def RuleDocument.fieldNames : List String :=
  ["maxVersionMajor", "maxVersionMinor", "maxVersionPatch", "maxVersionRevision",
    "remappedPropertyValuesIndex", "remappedStates", "renamedIds", "flattenedProperties",
    "addedProperties", "removedProperties", "remappedPropertyValues", "renamedProperties"]

/-- Read a dictionary that is empty if it is missing. -/
def dictField? {α : Type} (value? : Json → Option α) : Field → Option (Dict α) :=
  defaulted .empty (Json.asDict? value?)

/-- Read a document. -/
def RuleDocument.ofJson? (value : Json) : Option RuleDocument := do
  match ← value.fields? fieldNames with
  | [major, minor, patch, revision, lookups, remappedStates, renamedIds, flattenedProperties,
      addedProperties, removedProperties, remappedValues, renamedProperties] =>
    return {
      version := {
        major := ← required Json.asUInt8? major
        minor := ← required Json.asUInt8? minor
        patch := ← required Json.asUInt8? patch
        revision := ← required Json.asUInt8? revision }
      lookups := ← dictField? (Json.asList? LookupRow.ofJson?) lookups
      remappedStates := ← dictField? (Json.asList? StateRule.ofJson?) remappedStates
      renamedIds := ← dictField? Json.asText? renamedIds
      flattenedProperties := ← dictField? FlattenedName.ofJson? flattenedProperties
      addedProperties := ← dictField? (Json.asDict? Literal.ofJson?) addedProperties
      removedProperties := ← dictField? (Json.asList? Json.asText?) removedProperties
      remappedValues := ← dictField? (Json.asDict? Json.asText?) remappedValues
      renamedProperties := ← dictField? (Json.asDict? Json.asText?) renamedProperties }
  | _ => none

/-- Read the text of a document. -/
def RuleDocument.read? (text : String) : Option RuleDocument :=
  (Json.parse? text).bind ofJson?

end BlockData
