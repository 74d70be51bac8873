import BlockData.Proofs.Schema.Run
import BlockData.Proofs.Schema.Steps
import BlockData.Proofs.Text.Lowercase

/-!
# Schemas keep texts in lower case

A block state whose texts are in lower case keeps them so through every step that writes
only such texts, and all steps of a compiled document are of this kind.  As the last step
takes the pending name, the state is settled when the schema is done.

* `BlockState.InLowercase` is the invariant of the steps, `BlockState.Settled` that of whole
  schemas;
* `Action.WritesLowercase` is what compiling sees to;
* `InLowercase.apply` is the lemma on one step, `InLowercase.run` the one on all, and
  `Schema.FromDocument.settled_apply` the one on schemas.
-/

namespace BlockData

/-! ## Values and properties -/

/-- A text value is its own lowercase form. -/
def PropertyValue.InLowercase : PropertyValue → Prop
  | .string text => Text.lowercase text = text
  | _ => True

theorem PropertyValue.inLowercase_normalized (value : PropertyValue) :
    value.normalized.InLowercase := by
  cases value with
  | string text => exact Text.lowercase_lowercase text
  | _ => trivial

/-- What a literal writes is in lower case. -/
theorem Literal.inLowercase_of_value? {literal : Literal} {value : PropertyValue}
    (h : literal.value? = some value) : value.InLowercase := by
  unfold Literal.value? at h
  split at h
  · obtain rfl := Option.some.inj h
    trivial
  · obtain rfl := Option.some.inj h
    trivial
  · -- the text is put in lower case as the literal is compiled
    obtain rfl := Option.some.inj h
    exact Text.lowercase_lowercase _
  · simp at h

namespace Properties

/-- All text values are in lower case. -/
def InLowercase (properties : Properties) : Prop :=
  ∀ pair ∈ properties.entries, pair.2.InLowercase

variable {properties : Properties}

theorem InLowercase.of_get? (h : properties.InLowercase) {name : String} {value : PropertyValue}
    (hget : properties.get? name = some value) : value.InLowercase :=
  h (name, value) (Entries.mem_of_get? hget)

theorem InLowercase.insert (h : properties.InLowercase) (name : String) {value : PropertyValue}
    (hvalue : value.InLowercase) : InLowercase (Dict.insert properties name value) := by
  intro pair hpair
  rcases Entries.mem_of_mem_insert hpair with rfl | hbefore
  · exact hvalue
  · exact h pair hbefore

theorem InLowercase.erase (h : properties.InLowercase) (name : String) :
    InLowercase (Dict.erase properties name) :=
  fun pair hpair => h pair (Entries.mem_of_mem_erase hpair)

theorem InLowercase.insertAll (h : properties.InLowercase)
    {pairs : List (String × PropertyValue)} (hpairs : ∀ pair ∈ pairs, pair.2.InLowercase) :
    InLowercase (Dict.insertAll properties pairs) := by
  intro pair hpair
  rcases Entries.mem_of_mem_insertAll hpair with hnew | hbefore
  · exact hpairs pair hnew
  · exact h pair hbefore

theorem InLowercase.eraseAll (h : properties.InLowercase) (names : List String) :
    (properties.eraseAll names).InLowercase :=
  List.foldlRecOn names _ h fun _ ih name _ => ih.erase name

theorem InLowercase.remapValue (h : properties.InLowercase) (name : String)
    {table : List ValueChange} (htable : ∀ change ∈ table, change.new.InLowercase) :
    (properties.remapValue name table).InLowercase := by
  unfold Properties.remapValue
  split
  · next value hvalue =>
    -- the new value stands in a row of the table
    rcases Option.bind_eq_some_iff.1 hvalue with ⟨old, -, hlookup⟩
    rcases Option.map_eq_some_iff.1 hlookup with ⟨change, hfind, rfl⟩
    exact h.insert name (htable change (List.mem_reverse.1 (List.mem_of_find?_eq_some hfind)))
  · exact h

theorem InLowercase.remapValues (h : properties.InLowercase) {tables : Dict (List ValueChange)}
    (htables : ∀ pair ∈ tables.entries, ∀ change ∈ pair.2, change.new.InLowercase) :
    (properties.remapValues tables).InLowercase :=
  List.foldlRecOn tables.entries _ h fun _ ih pair hpair =>
    ih.remapValue pair.1 (htables pair hpair)

theorem InLowercase.rename (h : properties.InLowercase) (old new : String) :
    (properties.rename old new).InLowercase := by
  unfold Properties.rename
  split
  · next value hvalue => exact (h.erase old).insert new (h.of_get? hvalue)
  · exact h

theorem InLowercase.renameAll (h : properties.InLowercase) (renames : Dict String) :
    (properties.renameAll renames).InLowercase :=
  List.foldlRecOn renames.entries _ h fun _ ih pair _ => ih.rename pair.1 pair.2

theorem inLowercase_map_normalized (properties : Properties) :
    InLowercase (properties.map PropertyValue.normalized) := by
  intro pair hpair
  rcases List.mem_map.1 hpair with ⟨before, -, rfl⟩
  exact before.2.inLowercase_normalized

end Properties

/-- The properties that literals write are in lower case. -/
theorem inLowercase_literalProperties (literals : Dict Literal) :
    (literalProperties literals).InLowercase := by
  intro pair hpair
  rcases List.mem_filterMap.1 hpair with ⟨before, -, hbefore⟩
  rcases Option.map_eq_some_iff.1 hbefore with ⟨value, hvalue, rfl⟩
  exact Literal.inLowercase_of_value? hvalue

/-! ## Block states -/

/-- All texts of a block state are in lower case: its identifier, its property values and
the name that is pending. -/
structure BlockState.InLowercase (state : BlockState) : Prop where
  identifier : Text.lowercase state.identifier = state.identifier
  properties : ∀ properties ∈ state.properties, properties.InLowercase
  pending : ∀ name ∈ state.pending, Text.lowercase name = name

/-- A block state is settled if its texts are in lower case and nothing is pending. -/
structure BlockState.Settled (state : BlockState) : Prop where
  identifier : Text.lowercase state.identifier = state.identifier
  properties : ∀ properties ∈ state.properties, properties.InLowercase
  pending : state.pending = none

namespace BlockState

variable {state : BlockState}

theorem Settled.inLowercase (h : state.Settled) : state.InLowercase where
  identifier := h.identifier
  properties := h.properties
  pending := by simp [h.pending]

/-- An upgrade starts from a settled state. -/
theorem settled_normalize (state : BlockState) :
    Settled { state.normalize with pending := none } where
  identifier := Text.lowercase_lowercase state.identifier
  properties := by
    intro properties hproperties
    rcases Option.map_eq_some_iff.1 hproperties with ⟨before, -, rfl⟩
    exact before.inLowercase_map_normalized
  pending := rfl

/-- A change of properties keeps lower case if it does so on the properties. -/
theorem InLowercase.changeProperties (h : state.InLowercase) (identifier : String)
    {change : Properties → Properties}
    (hchange : ∀ properties : Properties, properties.InLowercase →
      (change properties).InLowercase) :
    (state.changeProperties identifier change).InLowercase := by
  unfold BlockState.changeProperties
  split
  · refine ⟨h.identifier, ?_, h.pending⟩
    intro properties hproperties
    rcases Option.map_eq_some_iff.1 hproperties with ⟨before, hbefore, rfl⟩
    exact hchange before (h.properties before hbefore)
  · exact h

/-- Taking the pending name settles the state. -/
theorem InLowercase.takePending (h : state.InLowercase) : state.takePending.Settled := by
  rw [takePending_eq]
  refine ⟨?_, h.properties, rfl⟩
  cases hname : state.pending with
  | none => exact h.identifier
  | some name => exact h.pending name hname

end BlockState

/-! ## Steps -/

/-- A literal name is in lower case; a flattened one is put so when it is found. -/
def NewName.InLowercase : NewName → Prop
  | .literal name => Text.lowercase name = name
  | .flattened _ => True

theorem Flattening.lowercase_of_resolve? {rule : Flattening} {properties : Properties}
    {name : String} (h : rule.resolve? properties = some name) : Text.lowercase name = name := by
  rcases Option.map_eq_some_iff.1 h with ⟨value, -, rfl⟩
  exact Text.lowercase_lowercase _

theorem NewName.InLowercase.of_resolve? {new : NewName} (h : new.InLowercase)
    {properties : Properties} {name : String} (hname : new.resolve? properties = some name) :
    Text.lowercase name = name := by
  cases new with
  | literal literal => exact Option.some.inj hname ▸ h
  | flattened rule => exact Flattening.lowercase_of_resolve? hname

/-- The new state and the name of a replacement are in lower case. -/
structure Replacement.InLowercase (replacement : Replacement) : Prop where
  newState : replacement.newState.InLowercase
  name : replacement.name.InLowercase

/-- Values that are copied from a state in lower case are so too. -/
theorem Replacement.InLowercase.result {replacement : Replacement}
    (h : replacement.InLowercase) {properties : Properties} (hproperties : properties.InLowercase) :
    (replacement.result properties).InLowercase := by
  refine h.newState.insertAll ?_
  intro pair hpair
  rcases List.mem_filterMap.1 hpair with ⟨name, -, hname⟩
  rcases Option.map_eq_some_iff.1 hname with ⟨value, hvalue, rfl⟩
  exact hproperties.of_get? hvalue

/-- What an action writes on its own account is in lower case. -/
def Action.WritesLowercase : Action → Prop
  | .remapStates _ replacements => ∀ replacement ∈ replacements, replacement.InLowercase
  | .renameIds renames => ∀ pair ∈ renames.entries, Text.lowercase pair.2 = pair.2
  | .addProperties _ added => added.InLowercase
  | .remapValues _ tables =>
    ∀ pair ∈ tables.entries, ∀ change ∈ pair.2, change.new.InLowercase
  | .flatten .. | .removeProperties .. | .renameProperties .. | .takeName => True

namespace BlockState

variable {state : BlockState}

/-- A name that was found, or else the one that was pending. -/
theorem InLowercase.or_pending (h : state.InLowercase) {found : Option String}
    (hfound : ∀ name ∈ found, Text.lowercase name = name) :
    ∀ name ∈ found.or state.pending, Text.lowercase name = name := by
  cases found with
  | none => exact h.pending
  | some name => exact hfound

theorem InLowercase.remap (h : state.InLowercase) (identifier : String)
    {replacements : List Replacement}
    (hall : ∀ replacement ∈ replacements, replacement.InLowercase) :
    (state.remap identifier replacements).1.InLowercase := by
  unfold BlockState.remap
  split
  · split
    · exact h
    · next properties hproperties =>
      split
      · exact h
      · next replacement hfind =>
        -- the new state comes from the document, copied values from the state before
        have hreplacement := hall replacement (List.mem_of_find?_eq_some hfind)
        have hbefore := h.properties properties hproperties
        refine ⟨h.identifier, ?_, h.or_pending fun _ => hreplacement.name.of_resolve?⟩
        intro after hafter
        exact Option.some.inj hafter ▸ hreplacement.result hbefore
  · exact h

theorem InLowercase.flatten (h : state.InLowercase) (identifier : String) (rule : Flattening) :
    (state.flatten identifier rule).InLowercase := by
  unfold BlockState.flatten
  split
  · split
    · exact h
    · next properties hproperties =>
      split
      · exact h
      · next name hname =>
        have hbefore := h.properties properties hproperties
        refine ⟨h.identifier, ?_, ?_⟩
        · intro after hafter
          exact Option.some.inj hafter ▸ hbefore.erase rule.property
        · intro found hfound
          exact Option.some.inj hfound ▸ Flattening.lowercase_of_resolve? hname
  · exact h

/-- One step keeps texts in lower case. -/
theorem InLowercase.apply (h : state.InLowercase) {action : Action}
    (haction : action.WritesLowercase) : (action.apply state).1.InLowercase := by
  cases action with
  | remapStates identifier replacements => exact h.remap identifier haction
  | renameIds renames =>
    refine ⟨h.identifier, h.properties, h.or_pending ?_⟩
    intro name hname
    exact haction _ (Entries.mem_of_get? hname)
  | flatten identifier rule => exact h.flatten identifier rule
  | addProperties identifier added =>
    exact h.changeProperties identifier fun _ hproperties => hproperties.insertAll haction
  | removeProperties identifier names =>
    exact h.changeProperties identifier fun _ hproperties => hproperties.eraseAll names
  | remapValues identifier tables =>
    exact h.changeProperties identifier fun _ hproperties => hproperties.remapValues haction
  | renameProperties identifier renames =>
    exact h.changeProperties identifier fun _ hproperties => hproperties.renameAll renames
  | takeName => exact h.takePending.inLowercase

/-- Steps one after the other keep texts in lower case, and a last one that takes the
pending name settles the state. -/
theorem InLowercase.run (h : state.InLowercase) {actions : List Action}
    (hactions : ∀ action ∈ actions, action.WritesLowercase) (stopped : Bool) :
    (Schema.run stopped (actions ++ [.takeName]) state).Settled := by
  induction actions generalizing state stopped with
  | nil =>
    rw [List.nil_append, Schema.run_takeName]
    exact h.takePending
  | cons action rest ih =>
    rcases List.forall_mem_cons.1 hactions with ⟨haction, hrest⟩
    rw [List.cons_append, Schema.run]
    -- the invariant goes through the step or past it
    split
    · -- the schema has stopped, and the step is passed over
      exact ih h hrest stopped
    · exact ih (h.apply haction) hrest _

end BlockState

/-! ## Documents -/

/-- The replacement of a state rule is in lower case. -/
theorem StateRule.inLowercase_of_replacement? {rule : StateRule} {replacement : Replacement}
    (h : rule.replacement? = some replacement) : replacement.InLowercase := by
  rcases Option.map_eq_some_iff.1 h with ⟨name, hname, rfl⟩
  refine ⟨inLowercase_literalProperties _, ?_⟩
  unfold StateRule.newName? at hname
  split at hname
  · obtain rfl := Option.some.inj hname
    exact Text.lowercase_lowercase _
  · obtain rfl := Option.some.inj hname
    trivial
  · simp at hname

/-- The new values of a table are in lower case. -/
theorem RuleDocument.inLowercase_of_mem_table? {document : RuleDocument} {lookup : String}
    {table : List ValueChange} (h : document.table? lookup = some table) :
    ∀ change ∈ table, change.new.InLowercase := by
  intro change hchange
  rcases Option.map_eq_some_iff.1 h with ⟨rows, -, rfl⟩
  rcases List.mem_filterMap.1 hchange with ⟨row, -, hrow⟩
  rcases Option.bind_eq_some_iff.1 hrow with ⟨old, -, hold⟩
  rcases Option.map_eq_some_iff.1 hold with ⟨new, hnew, rfl⟩
  exact Literal.inLowercase_of_value? hnew

theorem writesLowercase_of_mem_compileRenamedIds {renamedIds : Dict String} {action : Action}
    (h : action ∈ compileRenamedIds renamedIds) : action.WritesLowercase := by
  unfold compileRenamedIds at h
  split at h
  · simp at h
  · obtain rfl := List.mem_singleton.1 h
    intro pair hpair
    rcases List.mem_map.1 (Dict.mem_of_mem_ofList hpair) with ⟨before, -, rfl⟩
    exact Text.lowercase_lowercase before.2

/-- The last step of a document takes the pending name, and what the steps before it write
is in lower case. -/
theorem RuleDocument.steps_eq_append_takeName (document : RuleDocument) :
    ∃ actions : List Action, document.steps = actions ++ [.takeName] ∧
      ∀ action ∈ actions, action.WritesLowercase := by
  refine ⟨_, rfl, ?_⟩
  intro action haction
  simp only [stateSteps, propertySteps, List.mem_append, List.mem_map] at haction
  rcases haction with ⟨pair, -, rfl⟩ | hrenamed | (((⟨pair, -, rfl⟩ | ⟨pair, -, rfl⟩) |
    ⟨pair, -, rfl⟩) | ⟨pair, -, rfl⟩) | ⟨pair, -, rfl⟩
  · -- replaced states
    intro replacement hreplacement
    rcases List.mem_filterMap.1 hreplacement with ⟨rule, -, hrule⟩
    exact StateRule.inLowercase_of_replacement? hrule
  · exact writesLowercase_of_mem_compileRenamedIds hrenamed
  · trivial
  · -- added properties
    exact inLowercase_literalProperties pair.2
  · trivial
  · -- changed values
    intro reference hreference
    rcases List.mem_filterMap.1 hreference with ⟨before, -, hbefore⟩
    rcases Option.map_eq_some_iff.1 hbefore with ⟨table, htable, rfl⟩
    exact inLowercase_of_mem_table? htable
  · trivial

/-- A schema is compiled from a rule document, whatever it is labelled. -/
def Schema.FromDocument (schema : Schema) : Prop :=
  ∃ document : RuleDocument, document.compile = .ok { schema with label := none }

/-- A compiled schema settles a state whose texts are in lower case. -/
theorem Schema.FromDocument.settled_apply {schema : Schema} (h : schema.FromDocument)
    {state : BlockState} (hstate : state.InLowercase) : (schema.apply state).Settled := by
  rcases h with ⟨document, hcompile⟩
  rcases document.steps_eq_append_takeName with ⟨actions, hsteps, hactions⟩
  have hschema : schema.actions = actions ++ [.takeName] := by
    rw [← hsteps]
    exact congrArg Schema.actions (RuleDocument.compile_eq_ok_iff.1 hcompile).2
  rw [Schema.apply, hschema]
  exact hstate.run hactions false

end BlockData
