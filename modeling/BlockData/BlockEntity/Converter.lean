import BlockData.BlockEntity.Copy

/-!
# Converting block entities

One converter for each kind of block entity.  A converter builds a compound in the
target format out of the children that it knows, in an order of its own.
-/

namespace BlockData.BlockEntity

/-- The identifier of the face that stands for a sherd without a counterpart. -/
def defaultSherd : String := "minecraft:brick"

/-- The face of a pot that a sherd becomes.  A blank face is no missing item. -/
def faceFor (items : ItemMapping) (sherd : String) : Logged String :=
  match items.get? sherd with
  | some face => return face
  | none =>
    -- the mapping has been asked first, as it may know the blank face too
    if sherd = "" then
      return defaultSherd
    else do
      Logged.note (.missingItem sherd)
      return defaultSherd

/-- A pot: its sherds, the item in it and its loot. -/
def convertPot (items : ItemMapping) (source : Compound) : Logged Compound := do
  let target ← match source.getStrings? "sherds" with
    | none => pure []
    | some sherds => do
      let faces ← sherds.mapM (faceFor items)
      pure (Entries.insert "sherds" (.list (faces.map .string)) [])
  let target ← copyItem items source target "item"
  let (_, target) ← copy source target "LootTable" .string
  let (_, target) ← copy source target "LootTableSeed" .int
  return target

/-- A gateway: its age, in a wider field, and the place that it leads to. -/
def convertGateway (_items : ItemMapping) (source : Compound) : Logged Compound :=
  let age : Compound :=
    match source.getInt? "Age" with
    | some age => [("Age", .long age.toInt64)]
    | none => []
  let exit : Compound :=
    match source.getInts? "ExitPortal" with
    | some place => [("exit_portal", .intArray place)]
    | none => []
  return age ++ exit

/-- A comparator: its signal. -/
def convertComparator (_items : ItemMapping) (source : Compound) : Logged Compound := do
  let (_, target) ← copy source [] "OutputSignal" .int
  return target

/-- Converts one kind of block entity, with the items given. -/
abbrev Converter := ItemMapping → Compound → Logged Compound

/-- The converters by the identifiers of block entities. -/
def converters : Entries Converter :=
  [("DecoratedPot", convertPot), ("EndGateway", convertGateway),
    ("Comparator", convertComparator)]

/-- The identifiers that there is a converter for. -/
def known : List String :=
  converters.keys

/-- The converter for an identifier. -/
def converter? (identifier : String) : Option Converter :=
  converters.get? identifier

/-- Convert a block entity, if there is a converter for it. -/
def convert (items : ItemMapping) (identifier : String) (source : Compound) :
    Logged (Option Compound) :=
  match converter? identifier with
  | some converter => return some (← converter items source)
  | none => do
    Logged.note (.noConverter identifier)
    return none

end BlockData.BlockEntity
