import BlockData.Dict
import BlockData.Version

/-!
# Rule documents

What one step of the block-state format changed, as a document states it: which states
and identifiers became which, which properties came, went, or took other names and
values.  A document is data as it was written; compiling it checks its literals and
references.
-/

namespace BlockData

/-- A property value as it is written.  One of the three kinds should be given; of
several, `int` counts before `byte` and `byte` before `string`. -/
structure Literal where
  int : Option Int32
  byte : Option Int8
  string : Option String
  deriving DecidableEq, Repr

/-- A row of a lookup table: a value and the one that takes its place. -/
structure LookupRow where
  old : Literal
  new : Literal
  deriving DecidableEq, Repr

/-- An identifier made of a property's value between two fixed texts.  The value may be
replaced by another text first. -/
structure FlattenedName where
  head : String
  property : String
  tail : String
  replacements : Option (Dict String)
  deriving DecidableEq, Repr

/-- What becomes of a block with certain property values. -/
structure StateRule where
  oldState : Option (Dict Literal)
  newState : Option (Dict Literal)
  copiedState : List String
  newName : Option String
  newFlattenedName : Option FlattenedName
  deriving DecidableEq, Repr

/-- The changes that lead to one version of the format.  Identifiers are the keys of all
sections but the lookup tables, which are found by name. -/
structure RuleDocument where
  version : Version
  lookups : Dict (List LookupRow)
  remappedStates : Dict (List StateRule)
  renamedIds : Dict String
  flattenedProperties : Dict FlattenedName
  addedProperties : Dict (Dict Literal)
  removedProperties : Dict (List String)
  remappedValues : Dict (Dict String)
  renamedProperties : Dict (Dict String)
  deriving DecidableEq, Repr

/-- The document of a version without any change. -/
def RuleDocument.unchanged (version : Version) : RuleDocument :=
  ⟨version, .empty, .empty, .empty, .empty, .empty, .empty, .empty, .empty⟩

end BlockData
