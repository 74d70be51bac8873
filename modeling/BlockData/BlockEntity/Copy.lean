import BlockData.Item
import BlockData.Notice

/-!
# Copying children of block entities

Two ways to carry one child of a block entity over: as it is, if it is of the kind
wanted, or as an item stack with the counterpart of its item.  Both change at most the one
child of the target.
-/

namespace BlockData.BlockEntity

/-- Copy the child under a key into `target`, if it is of the kind wanted.  Also says
whether it was. -/
def copy (source target : Compound) (key : String) (kind : Tag.Kind) :
    Logged (Bool × Compound) :=
  match source.get? key with
  | none => return (false, target)
  | some tag =>
    if tag.kind = kind then
      return (true, target.insert key tag)
    else do
      Logged.note (.notCopied key kind tag.kind)
      return (false, target)

/-- The identifier of no item at all. -/
def air : String := "minecraft:air"

/-- How many items a stack has, one if it does not say. -/
def itemCount (item : Compound) : Int32 :=
  match item.get? "Count" with
  | some (.byte n) => n.toInt32
  | some (.short n) => n.toInt32
  | some (.int n) => n
  | _ => 1

/-- The name and the number of the items in a stack that is not empty. -/
def stack? (item : Compound) : Option (String × Int32) :=
  let name := (item.getString? "Name").getD ""
  let count := itemCount item
  if name = "" ∨ name = air ∨ count ≤ 0 then none else some (name, count)

/-- The identifier that takes the place of an item, which may be missing. -/
def itemFor (items : ItemMapping) (name : String) : Logged String :=
  match items.get? name with
  | some id => return id
  | none => do
    Logged.note (.missingItem name)
    return ItemMapping.defaultItem

/-- A stack in the target format. -/
def stackTag (id : String) (count : Int32) : Compound :=
  [("id", .string id), ("count", .int count)]

/-- Put the counterpart of the stack under a key into `target`, if there is one that is not
empty. -/
def copyItem (items : ItemMapping) (source target : Compound) (key : String) :
    Logged Compound :=
  match (source.getCompound? key).bind stack? with
  | none => return target
  | some (name, count) => do
    let id ← itemFor items name
    return target.insert key (.compound (stackTag id count))

end BlockData.BlockEntity
