import BlockData.Json.Outline

/-!
# The JSON schema of rule documents

The description of rule documents that other tools check them by.  It asks for more than
reading does: literals of exactly one kind, and state rules that give a name.
-/

namespace BlockData.RuleDocument

open Json (Outline)

/-- Values of one type. -/
def typeSchema (name : String) : Json :=
  .record [("type", .text name)]

/-- Values that a definition describes. -/
def definedSchema (name : String) : Json :=
  .record [("$ref", .text ("#/definitions/" ++ name))]

/-- Arrays of texts. -/
def textsSchema : Json :=
  .record [("type", .text "array"), ("items", typeSchema "string")]

/-- Integers between two bounds. -/
def integerSchema (low high : Int) : Json :=
  .record [("type", .text "integer"), ("minimum", .int low), ("maximum", .int high)]

/-- An array of texts, on one line. -/
def names (texts : List String) : Json :=
  .array (texts.map .text)

/-- A text, on one line. -/
def word (s : String) : Outline :=
  .line (.text s)

/-- Objects whose members all have the same form. -/
def mapSchema (members : Outline) : Outline :=
  .object [("type", word "object"), ("additionalProperties", members)]

/-- Arrays whose items all have the same form. -/
def arraySchema (items : Outline) : Outline :=
  .object [("type", word "array"), ("items", items)]

/-- A state map, or null for none. -/
def optionalStateSchema : Json :=
  .record [("oneOf", .array [typeSchema "null", definedSchema "stateMap"])]

/-- Rows of a lookup table. -/
def rowSchema : Outline :=
  .object [
    ("type", word "object"),
    ("required", .line (names ["old", "new"])),
    ("properties", .object [
      ("old", .line (definedSchema "valueLit")),
      ("new", .line (definedSchema "valueLit"))])]

/-- State rules. -/
def stateRuleSchema : Outline :=
  .object [
    ("type", word "object"),
    ("properties", .object [
      ("oldState", .line optionalStateSchema),
      ("newState", .line optionalStateSchema),
      ("copiedState", .line textsSchema),
      ("newName", .line (typeSchema "string")),
      ("newFlattenedName", .line (definedSchema "flattenRule"))]),
    ("anyOf", .array [
      .line (.record [("required", names ["newName"])]),
      .line (.record [("required", names ["newFlattenedName"])])])]

/-- The sections of a document. -/
def sectionSchemas : Outline :=
  .object [
    ("maxVersionMajor", .line (definedSchema "versionComponent")),
    ("maxVersionMinor", .line (definedSchema "versionComponent")),
    ("maxVersionPatch", .line (definedSchema "versionComponent")),
    ("maxVersionRevision", .line (definedSchema "versionComponent")),
    ("remappedPropertyValuesIndex", mapSchema (arraySchema rowSchema)),
    ("remappedStates", mapSchema (arraySchema stateRuleSchema)),
    ("renamedIds", mapSchema (.line (typeSchema "string"))),
    ("flattenedProperties", mapSchema (.line (definedSchema "flattenRule"))),
    ("addedProperties", mapSchema (.line (definedSchema "stateMap"))),
    ("removedProperties", mapSchema (.line textsSchema)),
    ("remappedPropertyValues", mapSchema (mapSchema (.line (typeSchema "string")))),
    ("renamedProperties", mapSchema (mapSchema (.line (typeSchema "string"))))]

/-- Literals of one kind. -/
def literalSchema (kind : String) (value : Json) : Outline :=
  .object [
    ("type", word "object"),
    ("required", .line (names [kind])),
    ("properties", .line (.record [(kind, value)])),
    ("additionalProperties", .line (.bool false))]

/-- Literals. -/
def valueSchema : Outline :=
  .object [
    ("oneOf", .array [
      literalSchema "int" (integerSchema (-2147483648) 2147483647),
      literalSchema "byte" (integerSchema (-128) 127),
      literalSchema "string" (typeSchema "string")])]

/-- Flattened names. -/
def flattenedNameSchema : Outline :=
  .object [
    ("type", word "object"),
    ("required", .line (names ["prefix", "flattenedProperty", "suffix"])),
    ("properties", .object [
      ("prefix", .line (typeSchema "string")),
      ("flattenedProperty", .line (typeSchema "string")),
      ("suffix", .line (typeSchema "string")),
      ("flattenedValueRemaps", mapSchema (.line (typeSchema "string")))])]

/-- What the sections refer to. -/
def definitionSchemas : Outline :=
  .object [
    ("versionComponent", .line (integerSchema 0 255)),
    ("valueLit", valueSchema),
    ("stateMap", mapSchema (.line (definedSchema "valueLit"))),
    ("flattenRule", flattenedNameSchema)]

/-- The schema of rule documents. -/
def jsonSchema : Outline :=
  .object [
    ("$schema", word "http://json-schema.org/draft-07/schema#"),
    ("$id", word "https://strata.dev/upgrade/v1/rule-document.schema.json"),
    ("title", word "Block state upgrade rule document"),
    ("type", word "object"),
    ("required", .line (names
      ["maxVersionMajor", "maxVersionMinor", "maxVersionPatch", "maxVersionRevision"])),
    ("properties", sectionSchemas),
    ("definitions", definitionSchemas)]

/-- The text of the schema. -/
def jsonSchemaText : String :=
  jsonSchema.print

end BlockData.RuleDocument
