import BlockData.BlockState.Basic
import BlockData.Notice

/-!
# Block states in tags

A block state is stored in a compound: its identifier as the string `name`, and its
properties as the compound `states`, where it has one.
-/

namespace BlockData

namespace PropertyValue

/-- The value that a tag holds, if it is of a kind that properties have. -/
def ofTag? : Tag → Option PropertyValue
  | .int value => some (.int value)
  | .byte value => some (.byte value)
  | .string value => some (.string value)
  | _ => none

/-- The tag that holds a value. -/
def toTag : PropertyValue → Tag
  | .int value => .int value
  | .byte value => .byte value
  | .string value => .string value

end PropertyValue

namespace BlockState

/-- The properties among the states of a block. -/
def propertiesOf (states : Compound) : Properties :=
  .ofList (states.filterMap fun (key, tag) => (PropertyValue.ofTag? tag).map (key, ·))

/-- One notice for each state that is no property. -/
def droppedStates (identifier : String) (states : Compound) : List Notice :=
  states.filterMap fun (key, tag) =>
    match PropertyValue.ofTag? tag with
    | some _ => none
    | none => some (.droppedState tag.kind key identifier)

/-- Read a block state from its compound, if that has a name. -/
def ofTag? (tag : Compound) : Logged (Option BlockState) :=
  match tag.getString? "name" with
  | none => pure none
  | some identifier =>
    match tag.getCompound? "states" with
    | none => pure (some ⟨identifier, none, none⟩)
    | some states => do
      Logged.noteAll (droppedStates identifier states)
      return some ⟨identifier, some (propertiesOf states), none⟩

/-- The compound of properties. -/
def statesTag (properties : Properties) : Compound :=
  properties.entries.mapValues PropertyValue.toTag

/-- Write a block state into its compound. -/
def writeTo (state : BlockState) (tag : Compound) : Compound :=
  let tag := tag.insert "name" (.string state.identifier)
  match state.properties with
  | some properties => tag.insert "states" (.compound (statesTag properties))
  | none => tag.erase "states"

end BlockState
end BlockData
