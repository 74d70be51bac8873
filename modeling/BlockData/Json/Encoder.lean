import BlockData.Dict
import BlockData.Json.Basic

/-!
# Encoding JSON values

Writers for the shapes that the library's documents are made of, the counterparts of the
readers.  A record is a list of members, to which each field contributes one or none.
-/

namespace BlockData.Json

/-- The array of a list. -/
def ofList {α : Type} (item : α → Json) (items : List α) : Json :=
  .array (items.map item)

/-- The object of a dictionary. -/
def ofDict {α : Type} (value : α → Json) (d : Dict α) : Json :=
  .record (d.entries.mapValues value)

/-- A field that is always written. -/
def member (name : String) (value : Json) : List (String × Json) :=
  [(name, value)]

/-- A field that is written if there is a value. -/
def memberIfSome {α : Type} (name : String) (value : α → Json) :
    Option α → List (String × Json)
  | some a => [(name, value a)]
  | none => []

/-- A list that is written if it has items. -/
def memberUnlessNil {α : Type} (name : String) (item : α → Json) (items : List α) :
    List (String × Json) :=
  if items.isEmpty then [] else [(name, ofList item items)]

/-- A dictionary that is written if it has entries. -/
def memberUnlessEmpty {α : Type} (name : String) (value : α → Json) (d : Dict α) :
    List (String × Json) :=
  if d.isEmpty then [] else [(name, ofDict value d)]

end BlockData.Json
