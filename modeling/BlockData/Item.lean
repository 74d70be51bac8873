import BlockData.Dict
import BlockData.Json.Decoder
import BlockData.Notice

/-!
# Item mappings

Which item of the target format takes the place of an item of the source format.  A
mapping is written as an object of identifiers.
-/

namespace BlockData

/-- Identifiers of items and their counterparts. -/
abbrev ItemMapping := Dict String

namespace ItemMapping

/-- The mapping that a text writes. -/
def read? (text : String) : Option ItemMapping :=
  (Json.parse? text).bind (Json.asDict? Json.asText?)

/-- Why a mapping cannot be loaded. -/
inductive LoadError where
  /-- There is no text at the path. -/
  | unreadable (path : String)
  /-- The text is no object of identifiers. -/
  | malformed
  deriving DecidableEq, Repr

/-- The mapping in the file at a path, of which the text is given if there is one. -/
def load (path : String) (text : Option String) : Logged (Except LoadError ItemMapping) :=
  match text with
  | none => return .error (.unreadable path)
  | some text =>
    match read? text with
    | none => return .error .malformed
    | some items => do
      Logged.note (.loadedItems items.size path)
      return .ok items

/-- The item that takes the place of one without a counterpart. -/
def defaultItem : String := "minecraft:stone"

end ItemMapping
end BlockData
