import BlockData.Tag.Basic

/-!
# Equality of tag trees

Two tags are the same if their kinds and contents are, where the order of the children
of a compound does not matter.  Numbers with a fraction are compared as numbers: the
two zeros are the same.
-/

namespace BlockData.Tag

mutual

/-- Whether two tags are the same up to the order of children. -/
def same : Tag → Tag → Bool
  | .byte a, .byte b => a == b
  | .short a, .short b => a == b
  | .int a, .int b => a == b
  | .long a, .long b => a == b
  | .float a, .float b => a == b
  | .double a, .double b => a == b
  | .string a, .string b => a == b
  | .byteArray a, .byteArray b => a == b
  | .intArray a, .intArray b => a == b
  | .longArray a, .longArray b => a == b
  | .list a, .list b => sameItems a b
  | .compound a, .compound b => a.length == b.length && sameChildren a b
  | _, _ => false

/-- Whether two lists have the same items in the same order. -/
def sameItems : List Tag → List Tag → Bool
  | [], [] => true
  | a :: as, b :: bs => same a b && sameItems as bs
  | _, _ => false

/-- Whether every child has its match under the same key. -/
def sameChildren : List (String × Tag) → List (String × Tag) → Bool
  | [], _ => true
  | (key, a) :: rest, others =>
    (match Entries.get? others key with
      | some b => same a b
      | none => false) && sameChildren rest others

end

end BlockData.Tag
