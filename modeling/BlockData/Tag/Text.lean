import BlockData.Tag.Basic
import BlockData.Number.Reading
import BlockData.Json.Decoder
import BlockData.Json.Printer

/-!
# Tag trees as text

A tag is written as an object with one member, whose name is the kind of the tag and
whose value is its content.  The children of a compound are the members of an object; a
compound at the top is that object itself.

* `Tag.toJson` and `Tag.ofJson?` lead to JSON values and back;
* texts that nest deeper than `nestingLimit` are not read;
* a number that is infinite has no text, and `null` is written for it.
-/

namespace BlockData

namespace Tag

open Number

/-- How deeply the arrays and objects of a text may nest. -/
def nestingLimit : Nat := 127

/-! ## Writing -/

/-- The value of a numeral, or null where there is none. -/
def numeralJson : Option Numeral → Json
  | some n => .number n
  | none => .null

mutual

/-- The object that writes a tag. -/
def toJson (tag : Tag) : Json :=
  match tag with
  | .byte n => .record [("byte", .int n.toInt)]
  | .short n => .record [("short", .int n.toInt)]
  | .int n => .record [("int", .int n.toInt)]
  | .long n => .record [("long", .int n.toInt)]
  | .float x => .record [("float", numeralJson (singleNumeral? x))]
  | .double x => .record [("double", numeralJson (doubleNumeral? x))]
  | .string s => .record [("string", .text s)]
  | .byteArray ns => .record [("byte_array", .array (ns.map fun n => .int n.toInt))]
  | .intArray ns => .record [("int_array", .array (ns.map fun n => .int n.toInt))]
  | .longArray ns => .record [("long_array", .array (ns.map fun n => .int n.toInt))]
  | .list items => .record [("list", .array (itemsJson items))]
  | .compound children => .record [("compound", .object (childrenJson children))]

/-- The items of a list. -/
def itemsJson : List Tag → List Json
  | [] => []
  | tag :: rest => toJson tag :: itemsJson rest

/-- The members that write children. -/
def childrenJson : List (String × Tag) → List (Quotation × Json)
  | [] => []
  | (key, tag) :: rest => (some key, toJson tag) :: childrenJson rest

end

/-- The compact text of a tag. -/
def text (tag : Tag) : String :=
  tag.toJson.compact

/-! ## Reading -/

/-- The numeral of a number value. -/
def numeral? : Json → Option Numeral
  | .number n => some n
  | _ => none

mutual

/-- The tag that a JSON value writes. -/
def ofJson? : Json → Option Tag
  | .object [(some kind, content)] =>
    match Kind.ofName? kind, content with
    | some .byte, content => content.asInt8?.map .byte
    | some .short, content => content.asInt16?.map .short
    | some .int, content => content.asInt32?.map .int
    | some .long, content => content.asInt64?.map .long
    | some .float, content => ((numeral? content).bind Numeral.toSingle?).map .float
    | some .double, content => ((numeral? content).bind Numeral.toDouble?).map .double
    | some .string, content => content.asText?.map .string
    | some .byteArray, content => (content.asList? Json.asInt8?).map .byteArray
    | some .intArray, content => (content.asList? Json.asInt32?).map .intArray
    | some .longArray, content => (content.asList? Json.asInt64?).map .longArray
    | some .list, .array items => (itemsOfJson? items).map .list
    | some .compound, .object members =>
      (childrenOfJson? members).map fun children => .compound (Entries.ofList children)
    | _, _ => none
  | _ => none

/-- The tags of the items of an array. -/
def itemsOfJson? : List Json → Option (List Tag)
  | [] => some []
  | value :: rest =>
    match ofJson? value, itemsOfJson? rest with
    | some tag, some tags => some (tag :: tags)
    | _, _ => none

/-- The named tags of the members of an object, repeated names included. -/
def childrenOfJson? : List (Quotation × Json) → Option (List (String × Tag))
  | [] => some []
  | (name, value) :: rest =>
    match name, ofJson? value, childrenOfJson? rest with
    | some name, some tag, some children => some ((name, tag) :: children)
    | _, _, _ => none

end

/-- The tag that a text writes. -/
def read? (text : String) : Option Tag :=
  (Json.parseWithin? nestingLimit text).bind ofJson?

end Tag

namespace Compound

/-- The object that writes a compound at the top. -/
def toJson (c : Compound) : Json :=
  .object (Tag.childrenJson c)

/-- The compact text of a compound at the top. -/
def text (c : Compound) : String :=
  c.toJson.compact

/-- The compound whose members a JSON object writes; of members with the same name the
last one counts, at the place of the first. -/
def ofJson? : Json → Option Compound
  | .object members => (Tag.childrenOfJson? members).map Entries.ofList
  | _ => none

/-- The compound that a text writes. -/
def read? (text : String) : Option Compound :=
  (Json.parseWithin? Tag.nestingLimit text).bind ofJson?

end Compound
end BlockData
