import BlockData.BlockState.Basic

/-!
# Actions of a schema

The steps that a schema takes on a block state.  Each step but the last one looks at the
identifier that the block had when the schema started: names that the steps find are
kept pending, and the final step takes the name over.

* `Action.apply` is the effect of one step;
* a step that replaces the whole state tells the schema to stop.
-/

namespace BlockData

/-- Whether a schema goes on after a step. -/
inductive Signal where
  | proceed
  /-- Only the final step of the schema is left. -/
  | stop
  deriving DecidableEq, Repr

/-- A name made of a property's value between two fixed texts. -/
structure Flattening where
  head : String
  property : String
  tail : String
  /-- Texts that take the place of a value's text. -/
  replacements : Dict String
  deriving DecidableEq, Repr

/-- The name for a block with these properties, if it has the flattened one. -/
def Flattening.resolve? (rule : Flattening) (properties : Properties) : Option String :=
  (properties.get? rule.property).map fun value =>
    let middle := (rule.replacements.get? value.text).getD value.text
    Text.lowercase (rule.head ++ middle ++ rule.tail)

/-- How a replaced block is called. -/
inductive NewName where
  | literal (name : String)
  | flattened (rule : Flattening)
  deriving DecidableEq, Repr

/-- The name for a block with these properties. -/
def NewName.resolve? (name : NewName) (properties : Properties) : Option String :=
  match name with
  | .literal name => some name
  | .flattened rule => rule.resolve? properties

/-- A state that takes the place of those that have certain property values. -/
structure Replacement where
  oldState : Properties
  newState : Properties
  /-- Properties whose values are kept. -/
  copied : List String
  name : NewName
  deriving DecidableEq, Repr

namespace Replacement

/-- Whether a state has all the values that are asked for. -/
def accepts (r : Replacement) (properties : Properties) : Bool :=
  r.oldState.entries.all fun (key, value) => properties.get? key == some value

/-- The new properties of a block that had `properties`. -/
def result (r : Replacement) (properties : Properties) : Properties :=
  r.newState.insertAll
    (r.copied.filterMap fun key => (properties.get? key).map fun value => (key, value))

end Replacement

/-- A value and the one that takes its place. -/
structure ValueChange where
  old : PropertyValue
  new : PropertyValue
  deriving DecidableEq, Repr

/-- The value that takes the place of another one in a table.  The last row counts. -/
def ValueChange.lookup? (table : List ValueChange) (value : PropertyValue) :
    Option PropertyValue :=
  (table.reverse.find? (·.old = value)).map (·.new)

/-- A step of a schema. -/
inductive Action where
  /-- Replace the state of a block by the first replacement that accepts it. -/
  | remapStates (identifier : String) (replacements : List Replacement)
  /-- Give blocks new names. -/
  | renameIds (renames : Dict String)
  /-- Turn a property into a part of the name. -/
  | flatten (identifier : String) (rule : Flattening)
  /-- Set properties. -/
  | addProperties (identifier : String) (properties : Properties)
  /-- Drop properties. -/
  | removeProperties (identifier : String) (names : List String)
  /-- Change the values of properties by tables. -/
  | remapValues (identifier : String) (tables : Dict (List ValueChange))
  /-- Rename properties, one after the other. -/
  | renameProperties (identifier : String) (renames : Dict String)
  /-- Take over the name that is pending. -/
  | takeName
  deriving DecidableEq, Repr

namespace Action

/-- The name of the section that an action comes from. -/
def category : Action → String
  | remapStates .. => "remappedStates"
  | renameIds .. => "renamedIds"
  | flatten .. => "flattenedProperties"
  | addProperties .. => "addedProperties"
  | removeProperties .. => "removedProperties"
  | remapValues .. => "remappedPropertyValues"
  | renameProperties .. => "renamedProperties"
  | takeName => "applyPendingRename"

/-- Whether an action is the final one of a schema. -/
def isFinal : Action → Bool
  | takeName => true
  | _ => false

end Action

namespace Properties

/-- Change the value of one property by a table. -/
def remapValue (properties : Properties) (name : String) (table : List ValueChange) :
    Properties :=
  match (properties.get? name).bind (ValueChange.lookup? table) with
  | some value => properties.insert name value
  | none => properties

/-- Change the values of properties by their tables. -/
def remapValues (properties : Properties) (tables : Dict (List ValueChange)) : Properties :=
  tables.entries.foldl (fun acc (name, table) => remapValue acc name table) properties

/-- Move the value of one property to another name.  The new name goes to the end, if it
is not there already. -/
def rename (properties : Properties) (old new : String) : Properties :=
  match properties.get? old with
  | some value => (properties.erase old).insert new value
  | none => properties

/-- Rename properties, one after the other. -/
def renameAll (properties : Properties) (renames : Dict String) : Properties :=
  renames.entries.foldl (fun acc (old, new) => rename acc old new) properties

/-- Drop properties. -/
def eraseAll (properties : Properties) (names : List String) : Properties :=
  names.foldl (fun acc name => acc.erase name) properties

end Properties

namespace BlockState

/-- Change the properties of a block that has this identifier and a place for them. -/
def changeProperties (state : BlockState) (identifier : String)
    (change : Properties → Properties) : BlockState :=
  if state.identifier = identifier then
    { state with properties := state.properties.map change }
  else
    state

/-- Replace the state of a block that has this identifier by the first replacement that
accepts it. -/
def remap (state : BlockState) (identifier : String) (replacements : List Replacement) :
    BlockState × Signal :=
  if state.identifier = identifier then
    match state.properties with
    | none => (state, .proceed)
    | some properties =>
      match replacements.find? (·.accepts properties) with
      | none => (state, .proceed)
      | some r =>
        -- name and copied values come from the properties before the replacement
        ({ state with
            properties := some (r.result properties)
            pending := (r.name.resolve? properties).or state.pending }, .stop)
  else
    (state, .proceed)

/-- Give a block the name found for its identifier. -/
def renameId (state : BlockState) (renames : Dict String) : BlockState :=
  { state with pending := (renames.get? state.identifier).or state.pending }

/-- Turn a property of a block that has this identifier into a part of its name. -/
def flatten (state : BlockState) (identifier : String) (rule : Flattening) : BlockState :=
  if state.identifier = identifier then
    match state.properties with
    | none => state
    | some properties =>
      match rule.resolve? properties with
      | none => state
      | some name =>
        { state with
          properties := some (properties.erase rule.property)
          pending := some name }
  else
    state

end BlockState

/-- The effect of an action, and whether the schema goes on. -/
def Action.apply (action : Action) (state : BlockState) : BlockState × Signal :=
  match action with
  | .remapStates identifier replacements => state.remap identifier replacements
  | .renameIds renames => (state.renameId renames, .proceed)
  | .flatten identifier rule => (state.flatten identifier rule, .proceed)
  | .addProperties identifier added =>
    (state.changeProperties identifier (·.insertAll added.entries), .proceed)
  | .removeProperties identifier names =>
    (state.changeProperties identifier (Properties.eraseAll · names), .proceed)
  | .remapValues identifier tables =>
    (state.changeProperties identifier (Properties.remapValues · tables), .proceed)
  | .renameProperties identifier renames =>
    (state.changeProperties identifier (Properties.renameAll · renames), .proceed)
  | .takeName => (state.takePending, .proceed)

end BlockData
