import BlockData.Dict
import BlockData.Json.Parser

/-!
# Decoding JSON values

Readers for the shapes that the library's documents are made of.  A record is written
as an object whose members are its fields, in any order and among other members that
do not matter, or as an array of the fields in order, the last ones of which may be
missing.
-/

namespace BlockData.Json

/-- A text. -/
def asText? : Json → Option String
  | .string content => content
  | _ => none

/-- An integer in a closed range. -/
def asIntBetween? (low high : Int) : Json → Option Int
  | .number n => n.toInt?.filter fun i => low ≤ i && i ≤ high
  | _ => none

/-- A signed byte. -/
def asInt8? (value : Json) : Option Int8 :=
  (value.asIntBetween? (-128) 127).map Int8.ofInt

/-- A signed 16-bit integer. -/
def asInt16? (value : Json) : Option Int16 :=
  (value.asIntBetween? (-32768) 32767).map Int16.ofInt

/-- A signed 32-bit integer. -/
def asInt32? (value : Json) : Option Int32 :=
  (value.asIntBetween? (-2147483648) 2147483647).map Int32.ofInt

/-- A signed 64-bit integer. -/
def asInt64? (value : Json) : Option Int64 :=
  (value.asIntBetween? (-9223372036854775808) 9223372036854775807).map Int64.ofInt

/-- An unsigned byte. -/
def asUInt8? (value : Json) : Option UInt8 :=
  (value.asIntBetween? 0 255).map fun i => UInt8.ofNat i.toNat

/-- An array whose items are all of one shape. -/
def asList? {α : Type} (item? : Json → Option α) : Json → Option (List α)
  | .array items => items.mapM item?
  | _ => none

/-- The members of an object as a list of named values of one shape. -/
def asPairs? {α : Type} (value? : Json → Option α) : Json → Option (List (String × α))
  | .object members => members.mapM fun (name, value) =>
    match name, value? value with
    | some name, some value => some (name, value)
    | _, _ => none
  | _ => none

/-- An object as a dictionary; of members with the same name the last one counts, at
the place of the first. -/
def asDict? {α : Type} (value? : Json → Option α) (value : Json) : Option (Dict α) :=
  (value.asPairs? value?).map Dict.ofList

/-! ## Records -/

/-- What stands in a field: nothing if the field is missing. -/
abbrev Field := Option Json

/-- The values of the members called `name`. -/
def membersNamed (name : String) (members : List (Quotation × Json)) : List Json :=
  members.filterMap fun (n, value) => if n = some name then some value else none

/-- The field called `name` of an object, if it is given at most once. -/
def fieldNamed? (members : List (Quotation × Json)) (name : String) : Option Field :=
  match membersNamed name members with
  | [] => some none
  | [value] => some (some value)
  | _ => none

/-- The fields of a record with the given names.  The names of members must be texts,
those of fields must not be repeated, and other members are passed over. -/
def fields? (names : List String) : Json → Option (List Field)
  | .object members =>
    if members.all (·.1.isSome) then names.mapM (fieldNamed? members) else none
  | .array items =>
    if items.length ≤ names.length then
      some (items.map some ++ List.replicate (names.length - items.length) none)
    else
      none
  | _ => none

/-- A field that must be there. -/
def required {α : Type} (value? : Json → Option α) (field : Field) : Option α :=
  field.bind value?

/-- A field with a value of its own for the case that it is missing. -/
def defaulted {α : Type} (missing : α) (value? : Json → Option α) : Field → Option α
  | none => some missing
  | some value => value? value

/-- A field that may be missing or null. -/
def optional {α : Type} (value? : Json → Option α) : Field → Option (Option α)
  | none => some none
  | some .null => some none
  | some value => (value? value).map some

end BlockData.Json
