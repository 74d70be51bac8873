import BlockData.Json.Printer

/-!
# Outlines

A JSON value together with the decision which of its arrays and objects are spread over
lines.  A document that people read puts small values on one line, with spaces inside
braces and after commas, and gives each member of a large one a line of its own.
-/

namespace BlockData.Json

/-- A value and how it is laid out. -/
inductive Outline where
  /-- A value on one line. -/
  | line (value : Json)
  /-- An object with one member on each line. -/
  | object (members : List (String × Outline))
  /-- An array with one item on each line. -/
  | array (items : List Outline)

namespace Outline

/-! ## The value -/

mutual

/-- The value that is laid out. -/
def value : Outline → Json
  | .line v => v
  | .object members => .object (memberValues members)
  | .array items => .array (itemValues items)

/-- The members of an object that is laid out. -/
def memberValues : List (String × Outline) → List (Quotation × Json)
  | [] => []
  | (name, o) :: rest => (some name, value o) :: memberValues rest

/-- The items of an array that is laid out. -/
def itemValues : List Outline → List Json
  | [] => []
  | o :: rest => value o :: itemValues rest

end

/-! ## One line -/

mutual

/-- A value on one line. -/
def renderLine : Json → List Char
  | .null => "null".toList
  | .bool true => "true".toList
  | .bool false => "false".toList
  | .number n => n.text
  | .string s => quoteContent s
  | .array [] => ['[', ']']
  | .array (item :: items) => '[' :: renderLine item ++ lineItems items ++ [']']
  | .object [] => ['\x7b', '\x7d']
  | .object ((name, v) :: members) =>
    '\x7b' :: ' ' :: quoteContent name ++ ':' :: ' ' :: renderLine v ++ lineMembers members ++
      [' ', '\x7d']

/-- The items after the first. -/
def lineItems : List Json → List Char
  | [] => []
  | item :: items => ',' :: ' ' :: renderLine item ++ lineItems items

/-- The members after the first. -/
def lineMembers : List (Quotation × Json) → List Char
  | [] => []
  | (name, v) :: members =>
    ',' :: ' ' :: quoteContent name ++ ':' :: ' ' :: renderLine v ++ lineMembers members

end

/-! ## Many lines -/

mutual

/-- The text of an outline that stands inside `depth` others. -/
def render (depth : Nat) : Outline → List Char
  | .line v => renderLine v
  | .object [] => ['\x7b', '\x7d']
  | .object ((name, o) :: rest) =>
    '\x7b' :: Layout.indented.lineBreak (depth + 1) ++ quote name ++ ':' :: ' ' ::
      render (depth + 1) o ++ renderMembers (depth + 1) rest ++
      Layout.indented.lineBreak depth ++ ['\x7d']
  | .array [] => ['[', ']']
  | .array (o :: rest) =>
    '[' :: Layout.indented.lineBreak (depth + 1) ++ render (depth + 1) o ++
      renderItems (depth + 1) rest ++ Layout.indented.lineBreak depth ++ [']']

/-- The members after the first. -/
def renderMembers (depth : Nat) : List (String × Outline) → List Char
  | [] => []
  | (name, o) :: rest =>
    ',' :: Layout.indented.lineBreak depth ++ quote name ++ ':' :: ' ' :: render depth o ++
      renderMembers depth rest

/-- The items after the first. -/
def renderItems (depth : Nat) : List Outline → List Char
  | [] => []
  | o :: rest =>
    ',' :: Layout.indented.lineBreak depth ++ render depth o ++ renderItems depth rest

end

/-- The text of an outline, with a line end behind it. -/
def print (o : Outline) : String :=
  String.ofList (render 0 o ++ ['\n'])

end Outline
end BlockData.Json
