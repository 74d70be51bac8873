import BlockData.Json.Token

/-!
# Writing JSON values

Two layouts: compact without any white space, and indented by two spaces a level with
one member or item a line.  Empty arrays and objects are closed at once in both.
-/

namespace BlockData.Json

open Number (Numeral)

/-- Where white space is written. -/
inductive Layout where
  | compact
  | indented
  deriving DecidableEq, Repr

namespace Layout

/-- What stands before a member, an item or a closing bracket at a depth. -/
def lineBreak : Layout → Nat → List Char
  | .compact, _ => []
  | .indented, depth => '\n' :: List.replicate (2 * depth) ' '

/-- What stands after the colon of a member. -/
def colonSpace : Layout → List Char
  | .compact => []
  | .indented => [' ']

end Layout

/-- The text of a string.  A quotation without a text is written as an empty one. -/
def quoteContent (content : Quotation) : List Char :=
  quote (content.getD "")

mutual

/-- The text of a value that stands inside `depth` arrays and objects. -/
def render (layout : Layout) (depth : Nat) : Json → List Char
  | .null => "null".toList
  | .bool true => "true".toList
  | .bool false => "false".toList
  | .number n => n.text
  | .string s => quoteContent s
  | .array [] => ['[', ']']
  | .array (item :: items) =>
    '[' :: layout.lineBreak (depth + 1) ++ render layout (depth + 1) item ++
      renderItems layout (depth + 1) items ++ layout.lineBreak depth ++ [']']
  | .object [] => ['\x7b', '\x7d']
  | .object ((name, value) :: members) =>
    '\x7b' :: layout.lineBreak (depth + 1) ++ quoteContent name ++ ':' :: layout.colonSpace ++
      render layout (depth + 1) value ++ renderMembers layout (depth + 1) members ++
      layout.lineBreak depth ++ ['\x7d']

/-- The text of the items after the first. -/
def renderItems (layout : Layout) (depth : Nat) : List Json → List Char
  | [] => []
  | item :: items =>
    ',' :: layout.lineBreak depth ++ render layout depth item ++
      renderItems layout depth items

/-- The text of the members after the first. -/
def renderMembers (layout : Layout) (depth : Nat) : List (Quotation × Json) → List Char
  | [] => []
  | (name, value) :: members =>
    ',' :: layout.lineBreak depth ++ quoteContent name ++ ':' :: layout.colonSpace ++
      render layout depth value ++ renderMembers layout depth members

end

/-- The text of a value. -/
def print (layout : Layout) (value : Json) : String :=
  String.ofList (render layout 0 value)

/-- The text of a value without white space. -/
def compact (value : Json) : String :=
  print .compact value

end BlockData.Json
