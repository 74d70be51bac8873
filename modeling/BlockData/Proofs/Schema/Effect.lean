import BlockData.Proofs.Number.Numeral
import BlockData.Proofs.Schema.Run
import BlockData.Proofs.Schema.Steps

/-!
# What documents do to block states

The effect of a rule document, read off the document itself: which of its rules concern a
block, what they do to its properties in the order of the sections, and which of the names
that they find the block takes.  No steps, signals or pending names occur in it.

* `Dict.concerning` selects the rules of a section that concern a block;
* `StateRule` and `FlattenedName` have their meaning on properties;
* `RuleDocument.effect` puts the sections together;
* `run_steps` says that the steps of a sound document have this effect, and
  `apply_eq_effect_of_compile` that the schema of a document does.
-/

namespace BlockData

/-! ## Rules that concern a block -/

/-- The rules of a section whose key is an identifier up to letter case, in document
order. -/
def Dict.concerning {α : Type} (rules : Dict α) (identifier : String) : List α :=
  (rules.entries.filter fun pair => Text.lowercase pair.1 = identifier).map (·.2)

/-! ## Names -/

/-- What a name embeds of a value: a number in decimal, and a text as it is. -/
def PropertyValue.embedded : PropertyValue → String
  | .int value => Number.decimalText value.toInt
  | .byte value => Number.decimalText value.toInt
  | .string value => value

namespace FlattenedName

/-- The text that stands for what a value embeds.  Of keys that agree in lower case the last
one counts. -/
def middle (name : FlattenedName) (text : String) : String :=
  ((name.replacements.getD .empty).concerning text).getLast?.getD text

/-- The name that a block with these properties gets, if it has the one to be flattened. -/
def nameFor? (name : FlattenedName) (properties : Properties) : Option String :=
  (properties.get? name.property).map fun value =>
    Text.lowercase (name.head ++ name.middle value.embedded ++ name.tail)

end FlattenedName

/-- Flatten properties in order.  Gives the properties that are left and the last name
that was found. -/
def flattenAll : List FlattenedName → Properties → Properties × Option String
  | [], properties => (properties, none)
  | name :: rest, properties =>
    match name.nameFor? properties with
    | some found =>
      let (left, later) := flattenAll rest (properties.erase name.property)
      (left, later.or (some found))
    | none => flattenAll rest properties

/-! ## State rules -/

namespace StateRule

/-- Whether the old state is a part of the properties. -/
def accepts (rule : StateRule) (properties : Properties) : Bool :=
  decide (∀ pair ∈ (literalProperties (rule.oldState.getD .empty)).entries,
    properties.get? pair.1 = some pair.2)

/-- The new state, overwritten by the values that are copied. -/
def result (rule : StateRule) (properties : Properties) : Properties :=
  rule.copiedState.foldl
    (fun acc name =>
      match properties.get? name with
      | some value => acc.insert name value
      | none => acc)
    (literalProperties (rule.newState.getD .empty))

/-- The new name, or else the flattened one. -/
def nameFor? (rule : StateRule) (properties : Properties) : Option String :=
  match rule.newName with
  | some name => some (Text.lowercase name)
  | none => rule.newFlattenedName.bind (·.nameFor? properties)

end StateRule

/-! ## Sections that change properties -/

/-- Set the properties that literals write. -/
def addLiterals (properties : Properties) (literals : Dict Literal) : Properties :=
  (literalProperties literals).entries.foldl (fun acc pair => acc.insert pair.1 pair.2) properties

/-- Drop properties. -/
def dropNames (properties : Properties) (names : List String) : Properties :=
  names.foldl (fun acc name => acc.erase name) properties

/-- Move the values of properties to other names, one after the other.  A name without a
value is passed over. -/
def moveValues (properties : Properties) (renames : Dict String) : Properties :=
  renames.entries.foldl
    (fun acc pair =>
      match acc.get? pair.1 with
      | some value => (acc.erase pair.1).insert pair.2 value
      | none => acc)
    properties

namespace RuleDocument

/-- The value that takes the place of another one in a lookup table.  The last row counts
that has the old value. -/
def newValue? (document : RuleDocument) (lookup : String) (value : PropertyValue) :
    Option PropertyValue :=
  (((document.lookups.get? lookup).getD []).filterMap fun row =>
    if row.old.value? = some value then row.new.value? else none).getLast?

/-- Change values by the lookup tables that properties refer to. -/
def lookUpValues (document : RuleDocument) (properties : Properties)
    (references : Dict String) : Properties :=
  references.entries.foldl
    (fun acc pair =>
      match (acc.get? pair.1).bind (document.newValue? pair.2) with
      | some value => acc.insert pair.1 value
      | none => acc)
    properties

/-- What the sections after the flattened properties make of the properties of a block. -/
def changeProperties (document : RuleDocument) (identifier : String)
    (properties : Properties) : Properties :=
  let added := (document.addedProperties.concerning identifier).foldl addLiterals properties
  let kept := (document.removedProperties.concerning identifier).foldl dropNames added
  let changed :=
    (document.remappedValues.concerning identifier).foldl document.lookUpValues kept
  (document.renamedProperties.concerning identifier).foldl moveValues changed

/-- The new identifier of a block.  Of keys that agree in lower case the last one counts. -/
def newId? (document : RuleDocument) (identifier : String) : Option String :=
  ((document.renamedIds.concerning identifier).getLast?).map Text.lowercase

/-- The first state rule for a block that accepts its properties. -/
def stateRule? (document : RuleDocument) (identifier : String) (properties : Properties) :
    Option StateRule :=
  (document.remappedStates.concerning identifier).flatten.find? (·.accepts properties)

/-- The effect of a document on a block state.

A state rule that accepts the properties decides alone.  Otherwise properties are
flattened, added, removed, given other values and renamed, in this order, and the name is
the last flattened one, or else the new identifier.  A block for which no name is found
takes the one that was pending, and without that keeps its own. -/
def effect (document : RuleDocument) (state : BlockState) : BlockState :=
  let identifier := state.identifier
  match state.properties with
  | none =>
    { identifier := ((document.newId? identifier).or state.pending).getD identifier
      properties := none
      pending := none }
  | some properties =>
    match document.stateRule? identifier properties with
    | some rule =>
      { identifier := ((rule.nameFor? properties).or state.pending).getD identifier
        properties := some (rule.result properties)
        pending := none }
    | none =>
      let flattened :=
        flattenAll (document.flattenedProperties.concerning identifier) properties
      { identifier :=
          ((flattened.2.or (document.newId? identifier)).or state.pending).getD identifier
        properties := some (document.changeProperties identifier flattened.1)
        pending := none }

end RuleDocument

/-! ## Compiled rules mean the same -/

/-- Keys in lower case select the rules that concern a block. -/
theorem filter_lowercase_keys {α β : Type} (rules : Dict α) (f : α → β) (identifier : String) :
    ((rules.entries.map fun pair => (Text.lowercase pair.1, f pair.2)).filter
        (·.1 = identifier)).map (·.2) = (rules.concerning identifier).map f := by
  simp [Dict.concerning, List.filter_map, Function.comp_def]

theorem PropertyValue.text_eq_embedded (value : PropertyValue) : value.text = value.embedded := by
  cases value with
  | int value => exact Number.toString_eq_decimalText value.toInt
  | byte value => exact Number.toString_eq_decimalText value.toInt
  | string value => rfl

/-- A replacement is found under the name of a value in lower case. -/
theorem FlattenedName.get?_compiled_replacements (name : FlattenedName) (text : String) :
    name.compile.replacements.get? text =
      ((name.replacements.getD .empty).concerning text).getLast? := by
  have hlast := Dict.get?_ofList
    ((name.replacements.getD .empty).entries.map fun pair =>
      (Text.lowercase pair.1, id pair.2)) text
  rw [filter_lowercase_keys, List.map_id] at hlast
  exact hlast

theorem FlattenedName.resolve?_compile (name : FlattenedName) (properties : Properties) :
    name.compile.resolve? properties = name.nameFor? properties := by
  simp only [Flattening.resolve?, FlattenedName.nameFor?, FlattenedName.middle,
    FlattenedName.get?_compiled_replacements, PropertyValue.text_eq_embedded]
  rfl

theorem get?_compiled_renames (renamedIds : Dict String) (identifier : String) :
    (Dict.ofList (renamedIds.entries.map fun pair =>
        (Text.lowercase pair.1, Text.lowercase pair.2))).get? identifier =
      ((renamedIds.concerning identifier).getLast?).map Text.lowercase := by
  rw [Dict.get?_ofList, filter_lowercase_keys, List.getLast?_map]

/-- What the replacement of a state rule accepts, leaves and is called. -/
theorem StateRule.replacement?_eq_some {rule : StateRule} {replacement : Replacement}
    (h : rule.replacement? = some replacement) (properties : Properties) :
    replacement.accepts properties = rule.accepts properties ∧
      replacement.result properties = rule.result properties ∧
      replacement.name.resolve? properties = rule.nameFor? properties := by
  rcases Option.map_eq_some_iff.1 h with ⟨name, hname, rfl⟩
  refine ⟨?_, ?_, ?_⟩
  · -- all values are looked up in the same place
    rw [Bool.eq_iff_iff]
    simp [Replacement.accepts, StateRule.accepts]
  · simp only [Replacement.result, StateRule.result, Dict.insertAll_eq_foldl,
      List.foldl_filterMap]
    congr 1
    funext acc key
    cases properties.get? key <;> rfl
  · unfold StateRule.newName? at hname
    unfold StateRule.nameFor?
    split at hname
    · obtain rfl := Option.some.inj hname
      simp [*, NewName.resolve?]
    · obtain rfl := Option.some.inj hname
      simp [*, NewName.resolve?, FlattenedName.resolve?_compile]
    · simp at hname

/-- The first replacement that accepts a state belongs to the first such rule. -/
theorem find?_replacements {rules : List StateRule} (h : ∀ rule ∈ rules, rule.Sound)
    (properties : Properties) :
    (rules.filterMap StateRule.replacement?).find? (·.accepts properties) =
      (rules.find? (·.accepts properties)).bind StateRule.replacement? := by
  induction rules with
  | nil => rfl
  | cons rule rest ih =>
    rcases List.forall_mem_cons.1 h with ⟨hrule, hrest⟩
    rcases Option.isSome_iff_exists.1 hrule.isSome_replacement? with ⟨replacement, hr⟩
    have haccepts := (StateRule.replacement?_eq_some hr properties).1
    rw [List.filterMap_cons_some hr, List.find?_cons, List.find?_cons, haccepts, ih hrest]
    cases rule.accepts properties <;> simp [hr]

/-- The last row with an old value gives the new one. -/
theorem lookup?_changes (rows : List LookupRow) (value : PropertyValue) :
    ValueChange.lookup? (LookupRow.changes rows) value =
      (rows.filterMap fun row =>
        if row.old.value? = some value then row.new.value? else none).getLast? := by
  -- the rows with the old value are the changes of that value
  have hrows : (rows.filterMap fun row =>
        if row.old.value? = some value then row.new.value? else none) =
      ((LookupRow.changes rows).filter (·.old = value)).map (·.new) := by
    induction rows with
    | nil => rfl
    | cons row rest ih =>
      rw [LookupRow.changes] at ih ⊢
      cases hold : row.old.value? with
      | none => simp [LookupRow.change?, hold, ih]
      | some old =>
        cases hnew : row.new.value? with
        | none => simp [LookupRow.change?, hold, hnew, ih]
        | some new => by_cases hv : old = value <;> simp [LookupRow.change?, hold, hnew, hv, ih]
  rw [hrows, List.getLast?_map, ValueChange.lookup?]
  simp

/-- Values are changed by the tables that their references lead to. -/
theorem remapValues_tablesFor (document : RuleDocument) (properties : Properties)
    (references : Dict String) :
    properties.remapValues (document.tablesFor references) =
      document.lookUpValues properties references := by
  simp only [Properties.remapValues, RuleDocument.lookUpValues, RuleDocument.tablesFor,
    Dict.filterMap, List.foldl_filterMap]
  congr 1
  funext acc pair
  -- the table that is compiled changes values as the rows do
  have hvalue : ∀ value, document.newValue? pair.2 value =
      ((document.table? pair.2).bind (ValueChange.lookup? · value)) := by
    intro value
    rw [RuleDocument.newValue?, RuleDocument.table?]
    cases document.lookups.get? pair.2 with
    | none => rfl
    | some rows => exact (lookup?_changes rows value).symm
  cases htable : document.table? pair.2 with
  | none =>
    have hnone : (acc.get? pair.1).bind (document.newValue? pair.2) = none := by
      cases acc.get? pair.1 <;> simp [hvalue, htable]
    simp [hnone]
  | some table =>
    have hsome : (acc.get? pair.1).bind (document.newValue? pair.2) =
        (acc.get? pair.1).bind (ValueChange.lookup? table) := by
      cases acc.get? pair.1 <;> simp [hvalue, htable]
    rw [hsome]
    rfl

/-! ## Sections one after the other -/

/-- A section of changes acts through its rules for the block. -/
theorem foldl_changeProperties {α : Type} (rules : Dict α) (change : Properties → α → Properties)
    (state : BlockState) :
    rules.entries.foldl
        (fun s pair => s.changeProperties (Text.lowercase pair.1) (change · pair.2)) state =
      { state with
        properties := state.properties.map fun properties =>
          (rules.concerning state.identifier).foldl change properties } := by
  unfold Dict.concerning
  generalize rules.entries = entries
  induction entries generalizing state with
  | nil =>
    rcases state with ⟨identifier, properties, pending⟩
    cases properties <;> rfl
  | cons pair rest ih =>
    rw [List.foldl_cons, ih]
    rcases state with ⟨identifier, properties, pending⟩
    -- a rule for another block changes nothing
    by_cases hid : Text.lowercase pair.1 = identifier
    · simp [BlockState.changeProperties, hid, Function.comp_def]
    · simp [BlockState.changeProperties, hid, Ne.symm hid]

/-- A section whose steps change properties acts through its rules for the block. -/
theorem run_changes {α : Type} {action : String → α → Action}
    {change : Properties → α → Properties}
    (h : ∀ identifier rule state, (action identifier rule).apply state =
      (state.changeProperties identifier (change · rule), .proceed))
    (rules : Dict α) (rest : List Action) (state : BlockState) :
    Schema.run false
        ((rules.entries.map fun pair => action (Text.lowercase pair.1) pair.2) ++ rest) state =
      Schema.run false rest { state with
        properties := state.properties.map fun properties =>
          (rules.concerning state.identifier).foldl change properties } := by
  rw [Schema.run_map_append fun pair s => h (Text.lowercase pair.1) pair.2 s,
    foldl_changeProperties]

/-- The section of flattened properties keeps the last name that it finds. -/
theorem foldl_flatten (rules : Dict FlattenedName) (identifier : String)
    (properties : Properties) (pending : Option String) :
    rules.entries.foldl
        (fun (s : BlockState) pair => s.flatten (Text.lowercase pair.1) pair.2.compile)
        ⟨identifier, some properties, pending⟩ =
      ⟨identifier, some (flattenAll (rules.concerning identifier) properties).1,
        (flattenAll (rules.concerning identifier) properties).2.or pending⟩ := by
  unfold Dict.concerning
  generalize rules.entries = entries
  induction entries generalizing properties pending with
  | nil => rfl
  | cons pair rest ih =>
    rcases pair with ⟨key, name⟩
    rw [List.foldl_cons]
    by_cases hid : Text.lowercase key = identifier
    · have hproperty : name.compile.property = name.property := rfl
      cases hname : name.nameFor? properties with
      | none =>
        -- the block does not have the property
        have hstep : (BlockState.mk identifier (some properties) pending).flatten
            (Text.lowercase key) name.compile = ⟨identifier, some properties, pending⟩ := by
          simp [BlockState.flatten, hid, FlattenedName.resolve?_compile, hname]
        rw [hstep, ih]
        simp [hid, flattenAll, hname]
      | some found =>
        -- the property goes, and its name takes the place of the one found before
        have hstep : (BlockState.mk identifier (some properties) pending).flatten
            (Text.lowercase key) name.compile =
              ⟨identifier, some (properties.erase name.property), some found⟩ := by
          simp [BlockState.flatten, hid, FlattenedName.resolve?_compile, hname, hproperty]
        rw [hstep, ih]
        simp [hid, flattenAll, hname]
    · -- the rule is about another block
      have hstep : (BlockState.mk identifier (some properties) pending).flatten
          (Text.lowercase key) name.compile = ⟨identifier, some properties, pending⟩ := by
        simp [BlockState.flatten, Ne.symm hid]
      rw [hstep, ih]
      simp [hid]

/-- The section of new identifiers leaves the one for the block pending. -/
theorem run_compileRenamedIds (document : RuleDocument) (rest : List Action)
    (state : BlockState) :
    Schema.run false (compileRenamedIds document.renamedIds ++ rest) state =
      Schema.run false rest
        { state with pending := (document.newId? state.identifier).or state.pending } := by
  unfold compileRenamedIds
  split
  · next hempty =>
    have hnone : document.newId? state.identifier = none := by
      simp [RuleDocument.newId?, Dict.concerning, List.isEmpty_iff.1 hempty]
    simp [hnone]
  · rw [RuleDocument.newId?, ← get?_compiled_renames]
    exact Schema.run_cons_proceed rfl rest

/-- The state rules for a block act through the first that accepts its properties. -/
theorem apply_remapStates {rules : List StateRule} (h : ∀ rule ∈ rules, rule.Sound)
    (identifier : String) (properties : Properties) (pending : Option String) :
    (Action.remapStates identifier (rules.filterMap StateRule.replacement?)).apply
        ⟨identifier, some properties, pending⟩ =
      match rules.find? (·.accepts properties) with
      | some rule =>
        (⟨identifier, some (rule.result properties), (rule.nameFor? properties).or pending⟩,
          .stop)
      | none => (⟨identifier, some properties, pending⟩, .proceed) := by
  have hfind := find?_replacements h properties
  cases hrule : rules.find? (·.accepts properties) with
  | none => simp [Action.apply, BlockState.remap, hfind, hrule]
  | some rule =>
    have hsome := (h rule (List.mem_of_find?_eq_some hrule)).isSome_replacement?
    rcases Option.isSome_iff_exists.1 hsome with ⟨replacement, hr⟩
    rcases StateRule.replacement?_eq_some hr properties with ⟨-, hresult, hname⟩
    simp [Action.apply, BlockState.remap, hfind, hrule, hr, hresult, hname]

/-- The section of state rules: the first rule that accepts the properties stops the
schema, and without one nothing has happened. -/
theorem run_remapStates (rules : Dict (List StateRule))
    (h : ∀ pair ∈ rules.entries, ∀ rule ∈ pair.2, rule.Sound) (rest : List Action)
    (identifier : String) (properties : Properties) (pending : Option String) :
    Schema.run false
        ((rules.entries.map fun pair => Action.remapStates (Text.lowercase pair.1)
          (pair.2.filterMap StateRule.replacement?)) ++ rest)
        ⟨identifier, some properties, pending⟩ =
      match (rules.concerning identifier).flatten.find? (·.accepts properties) with
      | some rule =>
        Schema.run true rest
          ⟨identifier, some (rule.result properties), (rule.nameFor? properties).or pending⟩
      | none => Schema.run false rest ⟨identifier, some properties, pending⟩ := by
  unfold Dict.concerning
  generalize rules.entries = entries at h ⊢
  induction entries with
  | nil => rfl
  | cons pair entries ih =>
    rcases pair with ⟨key, rules⟩
    rcases List.forall_mem_cons.1 h with ⟨hrules, hentries⟩
    rw [List.map_cons, List.cons_append]
    by_cases hid : Text.lowercase key = identifier
    · subst hid
      have hstep := apply_remapStates hrules (Text.lowercase key) properties pending
      rw [List.filter_cons_of_pos (by simp), List.map_cons, List.flatten_cons, List.find?_append]
      cases hrule : rules.find? (·.accepts properties) with
      | none =>
        simp only [hrule] at hstep
        rw [Schema.run_cons_proceed hstep, ih hentries, Option.none_or]
      | some rule =>
        -- the rule decides, and the rest of the section is passed over
        simp only [hrule] at hstep
        have hskip : ∀ action ∈ entries.map (fun pair => Action.remapStates
            (Text.lowercase pair.1) (pair.2.filterMap StateRule.replacement?)),
            action.isFinal = false := by
          intro action haction
          rcases List.mem_map.1 haction with ⟨pair, -, rfl⟩
          rfl
        rw [Schema.run_cons_stop hstep, Schema.run_stopped_append hskip, Option.some_or]
    · -- the rules are about another block
      have hstep : (Action.remapStates (Text.lowercase key)
          (rules.filterMap StateRule.replacement?)).apply
            ⟨identifier, some properties, pending⟩ =
              (⟨identifier, some properties, pending⟩, .proceed) := by
        simp [Action.apply, BlockState.remap, Ne.symm hid]
      rw [Schema.run_cons_proceed hstep, ih hentries, List.filter_cons_of_neg (by simpa using hid)]

/-- A block without a place for properties is out of reach of all rules on them. -/
theorem apply_of_no_properties {action : Action} (identifier : String)
    (pending : Option String) (hids : ∀ renames, action ≠ .renameIds renames)
    (hfinal : action.isFinal = false) :
    action.apply ⟨identifier, none, pending⟩ = (⟨identifier, none, pending⟩, .proceed) := by
  cases action with
  | renameIds renames => exact absurd rfl (hids renames)
  | takeName => simp [Action.isFinal] at hfinal
  | _ => simp [Action.apply, BlockState.remap, BlockState.flatten, BlockState.changeProperties]

/-- The sections on properties, on a block that has them. -/
theorem run_propertySteps (document : RuleDocument) (identifier : String)
    (properties : Properties) (pending : Option String) :
    Schema.run false (document.propertySteps ++ [.takeName])
        ⟨identifier, some properties, pending⟩ =
      let flattened :=
        flattenAll (document.flattenedProperties.concerning identifier) properties
      ⟨(flattened.2.or pending).getD identifier,
        some (document.changeProperties identifier flattened.1), none⟩ := by
  have hadd : ∀ id (literals : Dict Literal) state,
      (Action.addProperties id (literalProperties literals)).apply state =
        (state.changeProperties id (addLiterals · literals), .proceed) := by
    intro id literals state
    simp only [Action.apply, Dict.insertAll_eq_foldl]
    rfl
  have hlook : ∀ id (references : Dict String) state,
      (Action.remapValues id (document.tablesFor references)).apply state =
        (state.changeProperties id (document.lookUpValues · references), .proceed) := by
    intro id references state
    simp only [Action.apply, remapValues_tablesFor]
  have hdrop : ∀ id (names : List String) state, (Action.removeProperties id names).apply state =
      (state.changeProperties id (dropNames · names), .proceed) := fun _ _ _ => rfl
  have hmove : ∀ id (renames : Dict String) state,
      (Action.renameProperties id renames).apply state =
        (state.changeProperties id (moveValues · renames), .proceed) := fun _ _ _ => rfl
  simp only [RuleDocument.propertySteps, List.append_assoc]
  rw [Schema.run_map_append (fun _ _ => rfl), foldl_flatten, run_changes hadd, run_changes hdrop,
    run_changes hlook, run_changes hmove, Schema.run_takeName, BlockState.takePending_eq]
  rfl

/-- On a block without a place for properties only the new identifiers count. -/
theorem run_steps_of_no_properties (document : RuleDocument) (identifier : String)
    (pending : Option String) :
    Schema.run false document.steps ⟨identifier, none, pending⟩ =
      ⟨((document.newId? identifier).or pending).getD identifier, none, none⟩ := by
  -- the sections on properties find none
  have hstates : ∀ action ∈ document.stateSteps,
      action.apply ⟨identifier, none, pending⟩ = (⟨identifier, none, pending⟩, .proceed) := by
    intro action haction
    refine apply_of_no_properties identifier pending ?_
      (RuleDocument.isFinal_of_mem_stateSteps haction)
    rintro renames rfl
    simp [RuleDocument.stateSteps] at haction
  have hproperties : ∀ name, ∀ action ∈ document.propertySteps,
      action.apply ⟨identifier, none, name⟩ = (⟨identifier, none, name⟩, .proceed) := by
    intro name action haction
    refine apply_of_no_properties identifier name ?_
      (RuleDocument.isFinal_of_mem_propertySteps haction)
    rintro renames rfl
    simp [RuleDocument.propertySteps] at haction
  rw [RuleDocument.steps, List.append_assoc, List.append_assoc,
    Schema.run_append_of_apply_eq_self hstates, run_compileRenamedIds,
    Schema.run_append_of_apply_eq_self (hproperties _), Schema.run_takeName,
    BlockState.takePending_eq]

/-- The steps of a sound document have the effect of the document. -/
theorem run_steps {document : RuleDocument} (h : document.Sound) (state : BlockState) :
    Schema.run false document.steps state = document.effect state := by
  rcases state with ⟨identifier, properties, pending⟩
  cases properties with
  | none => exact run_steps_of_no_properties document identifier pending
  | some properties =>
    rw [RuleDocument.steps, List.append_assoc, RuleDocument.stateSteps,
      run_remapStates document.remappedStates h.states]
    cases hrule : document.stateRule? identifier properties with
    | some rule =>
      -- a state rule has stopped the schema
      have hskip : ∀ action ∈ compileRenamedIds document.renamedIds ++ document.propertySteps,
          action.isFinal = false := by
        intro action haction
        rcases List.mem_append.1 haction with haction | haction
        · exact RuleDocument.isFinal_of_mem_compileRenamedIds haction
        · exact RuleDocument.isFinal_of_mem_propertySteps haction
      simp only [RuleDocument.stateRule?] at hrule
      simp only [hrule, Schema.run_stopped_append hskip, Schema.run_takeName,
        BlockState.takePending_eq, RuleDocument.effect, RuleDocument.stateRule?]
    | none =>
      simp only [RuleDocument.stateRule?] at hrule
      simp only [hrule, List.append_assoc, run_compileRenamedIds, run_propertySteps,
        RuleDocument.effect, RuleDocument.stateRule?, Option.or_assoc]

/-- The schema of a document has the effect of the document on every block state. -/
theorem apply_eq_effect_of_compile {document : RuleDocument} {schema : Schema}
    (h : document.compile = .ok schema) (state : BlockState) :
    schema.apply state = document.effect state := by
  rcases RuleDocument.compile_eq_ok_iff.1 h with ⟨hsound, rfl⟩
  exact run_steps hsound state

/-- A document with two keys for one block in most sections, and texts in mixed case. -/
def logDocument : RuleDocument :=
  { RuleDocument.unchanged ⟨1, 20, 0, 0⟩ with
    lookups := .ofList [("sides", [
      ⟨⟨some 0, none, none⟩, ⟨none, none, some "Down"⟩⟩,
      ⟨⟨some 0, none, none⟩, ⟨none, none, some "Up"⟩⟩])]
    remappedStates := .ofList [("X:Log", [
      { oldState := some (.ofList [("kind", ⟨none, none, some "PINE"⟩)])
        newState := some (.ofList [("age", ⟨none, some 0, none⟩), ("lit", ⟨some 1, none, none⟩)])
        copiedState := ["age", "gone"]
        newName := none
        newFlattenedName := some ⟨"x:", "kind", "_Stem", none⟩ }])]
    renamedIds := .ofList [("x:log", "x:Old"), ("x:LOG", "x:Trunk")]
    flattenedProperties := .ofList [
      ("x:Log", ⟨"x:", "kind", "_Log", some (.ofList [("oak", "Ash"), ("OAK", "Birch")])⟩),
      ("x:Wheat", ⟨"x:Wheat_", "age", "", some (.ofList [("-1", "Dead")])⟩)]
    addedProperties := .ofList [("x:wheat", .ofList [("fed", ⟨none, some 2, none⟩)])]
    removedProperties := .ofList [("X:Wheat", ["wet"])]
    remappedValues := .ofList [("X:LOG", .ofList [("side", "sides")])]
    renamedProperties := .ofList [("x:log", .ofList [("side", "face")])] }

/-- Its schema on logs and on wheat: an oak log goes through all sections, a pine log through the
state rule alone, and the age of wheat becomes a part of its name. -/
theorem apply_logDocument :
    ∃ schema, logDocument.compile = .ok schema ∧
      (∀ state, schema.apply state = logDocument.effect state) ∧
      logDocument.effect
          ⟨"x:log", some (.ofList [("kind", .string "oak"), ("side", .int 0)]), some "x:p"⟩ =
        ⟨"x:birch_log", some (.ofList [("face", .string "up")]), none⟩ ∧
      logDocument.effect
          ⟨"x:log", some (.ofList [("kind", .string "pine"), ("age", .byte 3)]), some "x:p"⟩ =
        ⟨"x:pine_stem", some (.ofList [("age", .byte 3), ("lit", .int 1)]), none⟩ ∧
      logDocument.effect
          ⟨"x:wheat", some (.ofList [("age", .int 12), ("wet", .byte 1)]), none⟩ =
        ⟨"x:wheat_12", some (.ofList [("fed", .byte 2)]), none⟩ ∧
      logDocument.effect ⟨"x:wheat", some (.ofList [("age", .byte (-8))]), none⟩ =
        ⟨"x:wheat_-8", some (.ofList [("fed", .byte 2)]), none⟩ ∧
      logDocument.effect ⟨"x:wheat", some (.ofList [("age", .int (-1))]), none⟩ =
        ⟨"x:wheat_dead", some (.ofList [("fed", .byte 2)]), none⟩ :=
  ⟨_, rfl, apply_eq_effect_of_compile rfl, by decide +kernel, by decide +kernel,
    by decide +kernel, by decide +kernel, by decide +kernel⟩

end BlockData
