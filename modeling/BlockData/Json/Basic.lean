import BlockData.Number.Numeral

/-!
# JSON values

A JSON text as a tree.  The tree keeps what a text says: the order of members,
repeated names, numbers as they are spelled, and strings whose escapes name half of a
surrogate pair and therefore stand for no text.
-/

namespace BlockData

open Number (Numeral)

/-- The content of a quoted string: a text, or `none` if an escape names a surrogate
that has no partner. -/
abbrev Quotation := Option String

/-- A JSON value. -/
inductive Json where
  | null
  | bool (value : Bool)
  | number (numeral : Numeral)
  | string (content : Quotation)
  | array (items : List Json)
  | object (members : List (Quotation × Json))
  deriving Repr

namespace Json

/-- A string value with a text. -/
def text (s : String) : Json :=
  .string (some s)

/-- An integer. -/
def int (n : Int) : Json :=
  .number (Numeral.ofInt n)

/-- An object with named members. -/
def record (members : List (String × Json)) : Json :=
  .object (members.map fun (name, value) => (some name, value))

end Json
end BlockData
