import BlockData.Dict

/-!
# Tag trees

The data model of block states and block entities: numbers of six widths, texts, three
kinds of packed arrays, lists, and compounds of named children in insertion order.
-/

namespace BlockData

/-- A node of a tag tree. -/
inductive Tag where
  | byte (value : Int8)
  | short (value : Int16)
  | int (value : Int32)
  | long (value : Int64)
  | float (value : Float32)
  | double (value : Float)
  | string (value : String)
  | byteArray (values : List Int8)
  | intArray (values : List Int32)
  | longArray (values : List Int64)
  | list (items : List Tag)
  | compound (children : List (String × Tag))
  deriving Repr

/-- Named child tags in insertion order. -/
abbrev Compound := Entries Tag

namespace Tag

instance : Inhabited Tag := ⟨.compound []⟩

/-! ## Kinds -/

/-- The kind of a tag. -/
inductive Kind where
  | byte
  | short
  | int
  | long
  | float
  | double
  | string
  | byteArray
  | intArray
  | longArray
  | list
  | compound
  deriving DecidableEq, Repr

/-- Every kind. -/
def Kind.all : List Kind :=
  [.byte, .short, .int, .long, .float, .double, .string, .byteArray, .intArray, .longArray,
    .list, .compound]

/-- The name of a kind. -/
def Kind.name : Kind → String
  | .byte => "byte"
  | .short => "short"
  | .int => "int"
  | .long => "long"
  | .float => "float"
  | .double => "double"
  | .string => "string"
  | .byteArray => "byte_array"
  | .intArray => "int_array"
  | .longArray => "long_array"
  | .list => "list"
  | .compound => "compound"

/-- The kind with a name. -/
def Kind.ofName? (name : String) : Option Kind :=
  Kind.all.find? (·.name = name)

/-- The kind of a tag. -/
def kind : Tag → Kind
  | .byte _ => .byte
  | .short _ => .short
  | .int _ => .int
  | .long _ => .long
  | .float _ => .float
  | .double _ => .double
  | .string _ => .string
  | .byteArray _ => .byteArray
  | .intArray _ => .intArray
  | .longArray _ => .longArray
  | .list _ => .list
  | .compound _ => .compound

/-! ## Contents by kind -/

/-- The text of a string tag. -/
def asString? : Tag → Option String
  | .string value => some value
  | _ => none

/-- The number of an int tag. -/
def asInt? : Tag → Option Int32
  | .int value => some value
  | _ => none

/-- The items of a list tag. -/
def asList? : Tag → Option (List Tag)
  | .list items => some items
  | _ => none

/-- The children of a compound tag. -/
def asCompound? : Tag → Option Compound
  | .compound children => some children
  | _ => none

end Tag

namespace Compound

/-- The text of the string child under a key. -/
def getString? (c : Compound) (key : String) : Option String :=
  (c.get? key).bind Tag.asString?

/-- The number of the int child under a key. -/
def getInt? (c : Compound) (key : String) : Option Int32 :=
  (c.get? key).bind Tag.asInt?

/-- The items of the list child under a key. -/
def getList? (c : Compound) (key : String) : Option (List Tag) :=
  (c.get? key).bind Tag.asList?

/-- The children of the compound child under a key. -/
def getCompound? (c : Compound) (key : String) : Option Compound :=
  (c.get? key).bind Tag.asCompound?

/-- The texts of the list child under a key, if all its items are strings. -/
def getStrings? (c : Compound) (key : String) : Option (List String) :=
  (c.getList? key).bind fun items => items.mapM Tag.asString?

/-- The numbers of the list child under a key, if all its items are ints. -/
def getInts? (c : Compound) (key : String) : Option (List Int32) :=
  (c.getList? key).bind fun items => items.mapM Tag.asInt?

/-! ## Changes -/

/-- Put a tag under a key, at the place of the key or at the end.  Also gives the tag that was
there. -/
def put (c : Compound) (key : String) (tag : Tag) : Option Tag × Compound :=
  (c.get? key, c.insert key tag)

/-- Take the tag under a key away.  Also gives it. -/
def remove (c : Compound) (key : String) : Option Tag × Compound :=
  (c.get? key, c.erase key)

/-- Put a text. -/
def putString (c : Compound) (key : String) (text : String) : Compound :=
  (c.put key (.string text)).2

/-- Put a 32-bit number. -/
def putInt (c : Compound) (key : String) (n : Int32) : Compound :=
  (c.put key (.int n)).2

/-- Put a 64-bit number. -/
def putLong (c : Compound) (key : String) (n : Int64) : Compound :=
  (c.put key (.long n)).2

/-- Put an 8-bit number. -/
def putByte (c : Compound) (key : String) (n : Int8) : Compound :=
  (c.put key (.byte n)).2

end Compound
end BlockData
