import BlockData.Dict
import BlockData.Text.Lowercase

/-!
# Block states

The state of a block while it is brought up to date: its identifier, its properties, if
it has any place for them, and the name that it takes when the schema at work is done.
-/

namespace BlockData

/-- The value of one property. -/
inductive PropertyValue where
  | int (value : Int32)
  | byte (value : Int8)
  | string (value : String)
  deriving DecidableEq, Repr

namespace PropertyValue

/-- A value with its text in lower case. -/
def normalized : PropertyValue → PropertyValue
  | .string value => .string (Text.lowercase value)
  | value => value

/-- The text of a value, as flattened names embed it. -/
def text : PropertyValue → String
  | .int value => toString value.toInt
  | .byte value => toString value.toInt
  | .string value => value

end PropertyValue

/-- The properties of a block in order. -/
abbrev Properties := Dict PropertyValue

/-- A block state that is being upgraded. -/
structure BlockState where
  identifier : String
  /-- The properties; a block without a place for them is not one with none of them. -/
  properties : Option Properties
  /-- The name that the block takes when the schema at work is done. -/
  pending : Option String
  deriving DecidableEq, Repr

namespace BlockState

/-- A block state with an identifier and nothing else. -/
def named (identifier : String) : BlockState := ⟨identifier, none, none⟩

/-- The value of a property. -/
def property? (state : BlockState) (name : String) : Option PropertyValue :=
  state.properties.bind (·.get? name)

/-- Put the identifier and the text values in lower case. -/
def normalize (state : BlockState) : BlockState :=
  { state with
    identifier := Text.lowercase state.identifier
    properties := state.properties.map (·.map PropertyValue.normalized) }

/-- Take the pending name, if there is one. -/
def takePending (state : BlockState) : BlockState :=
  match state.pending with
  | some name => { state with identifier := name, pending := none }
  | none => state

end BlockState
end BlockData
