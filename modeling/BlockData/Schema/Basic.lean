import BlockData.Schema.Action
import BlockData.Version

/-!
# Schemas

A schema is the list of steps that brings block states to one version of the format.
Steps are taken in order.  Once a step says to stop, only final steps are taken.
-/

namespace BlockData

/-- The steps that lead to a version. -/
structure Schema where
  version : Version
  actions : List Action
  /-- Where the schema comes from. -/
  label : Option String
  deriving DecidableEq, Repr

namespace Schema

/-- Name the place a schema comes from. -/
def withLabel (schema : Schema) (label : String) : Schema :=
  { schema with label := some label }

/-- Take steps in order, only final ones if the schema has `stopped`. -/
def run (stopped : Bool) : List Action → BlockState → BlockState
  | [], state => state
  | action :: rest, state =>
    if stopped && !action.isFinal then
      run stopped rest state
    else
      let (state, signal) := action.apply state
      run (stopped || signal == .stop) rest state

/-- Bring a block state to the version of the schema. -/
def apply (schema : Schema) (state : BlockState) : BlockState :=
  run false schema.actions state

end Schema
end BlockData
