import BlockData.Proofs.Schema.Effect
import Mathlib.Data.List.Forall2

/-!
# The steps of a compiled document

A document compiles to one step for each key of its sections, in the order of the sections and
of their keys, and a step that takes the pending name comes last.  Only the section of new
identifiers is put together into one step, in which keys that agree in lower case are one.

* `StandsFor` relates what is compiled to what was written, down to the last literal;
* `Sections.StandFor` does so for all sections of a document;
* `compiled_steps` says that the steps of a schema are these sections and nothing else.
-/

namespace BlockData

/-! ## Keys in lower case -/

/-- Keys that agree in lower case are one, which stands where the first of them arrives. -/
theorem keys_ofList_lowercase {α β : Type} (rules : Dict α) (f : α → β) :
    (Dict.ofList (rules.entries.map fun pair => (Text.lowercase pair.1, f pair.2))).keys =
      (rules.keys.map Text.lowercase).eraseDups := by
  have hkeys : Entries.keys (rules.entries.map fun pair => (Text.lowercase pair.1, f pair.2)) =
      rules.keys.map Text.lowercase := by
    simp [Entries.keys, Dict.keys]
  rw [← hkeys]
  exact Entries.keys_ofList _

/-! ## Literals, rows, names and state rules -/

/-- Properties stand for literals: under the same names, in the same order. -/
def Properties.StandFor (properties : Properties) (literals : Dict Literal) : Prop :=
  List.Forall₂ (fun literal property =>
    property.1 = literal.1 ∧ literal.2.value? = some property.2) literals.entries properties.entries

/-- A change stands for a row of a lookup table. -/
def ValueChange.StandsFor (change : ValueChange) (row : LookupRow) : Prop :=
  row.old.value? = some change.old ∧ row.new.value? = some change.new

/-- A compiled name stands for a flattened one.  Each replaced text stands where it first arrives
up to letter case, with the text that takes its place last. -/
structure Flattening.StandsFor (rule : Flattening) (name : FlattenedName) : Prop where
  head : rule.head = name.head
  property : rule.property = name.property
  tail : rule.tail = name.tail
  replaced : rule.replacements.keys =
    ((name.replacements.getD .empty).keys.map Text.lowercase).eraseDups
  replacement : ∀ text, rule.replacements.get? text =
    ((name.replacements.getD .empty).concerning text).getLast?

/-- A replacement stands for a state rule. -/
structure Replacement.StandsFor (replacement : Replacement) (rule : StateRule) : Prop where
  oldState : replacement.oldState.StandFor (rule.oldState.getD .empty)
  newState : replacement.newState.StandFor (rule.newState.getD .empty)
  copied : replacement.copied = rule.copiedState
  /-- A plain name comes before a flattened one. -/
  name : match rule.newName with
    | some name => replacement.name = .literal (Text.lowercase name)
    | none => ∃ flattened compiled, rule.newFlattenedName = some flattened ∧
        replacement.name = .flattened compiled ∧ compiled.StandsFor flattened

/-- Items that all have a result stand beside the results in order. -/
theorem forall₂_filterMap {α β : Type} {f : α → Option β} {r : α → β → Prop} {items : List α}
    (h : ∀ item ∈ items, ∃ result, f item = some result ∧ r item result) :
    List.Forall₂ r items (items.filterMap f) := by
  induction items with
  | nil => exact .nil
  | cons item items ih =>
    rcases List.forall_mem_cons.1 h with ⟨⟨result, hresult, hr⟩, hitems⟩
    rw [List.filterMap_cons_some hresult]
    exact .cons hr (ih hitems)

theorem standFor_literalProperties {literals : Dict Literal} (h : AllKinded literals) :
    (literalProperties literals).StandFor literals := by
  refine forall₂_filterMap fun pair hpair => ?_
  rcases Option.isSome_iff_exists.1 (h pair hpair) with ⟨value, hvalue⟩
  exact ⟨(pair.1, value), congrArg (Option.map (pair.1, ·)) hvalue, rfl, hvalue⟩

theorem LookupRow.standsFor_of_change? {row : LookupRow} {change : ValueChange}
    (h : row.change? = some change) : change.StandsFor row := by
  rcases Option.bind_eq_some_iff.1 h with ⟨old, hold, hmap⟩
  rcases Option.map_eq_some_iff.1 hmap with ⟨new, hnew, rfl⟩
  exact ⟨hold, hnew⟩

theorem LookupRow.forall₂_changes {rows : List LookupRow}
    (h : ∀ row ∈ rows, row.change?.isSome) :
    List.Forall₂ (fun row change => change.StandsFor row) rows (LookupRow.changes rows) := by
  refine forall₂_filterMap fun row hrow => ?_
  rcases Option.isSome_iff_exists.1 (h row hrow) with ⟨change, hchange⟩
  exact ⟨change, hchange, LookupRow.standsFor_of_change? hchange⟩

theorem FlattenedName.standsFor_compile (name : FlattenedName) : name.compile.StandsFor name where
  head := rfl
  property := rfl
  tail := rfl
  replaced := keys_ofList_lowercase (name.replacements.getD .empty) id
  replacement := name.get?_compiled_replacements

theorem StateRule.Sound.exists_replacement {rule : StateRule} (h : rule.Sound) :
    ∃ replacement, rule.replacement? = some replacement ∧ replacement.StandsFor rule := by
  rcases Option.isSome_iff_exists.1 h.isSome_replacement? with ⟨replacement, hreplacement⟩
  refine ⟨replacement, hreplacement, ?_⟩
  rcases Option.map_eq_some_iff.1 hreplacement with ⟨name, hname, rfl⟩
  refine ⟨standFor_literalProperties h.oldState, standFor_literalProperties h.newState, rfl, ?_⟩
  unfold StateRule.newName? at hname
  split at hname
  · next hplain => simpa only [hplain] using (Option.some.inj hname).symm
  · next flattened hplain hflattened =>
    simp only [hplain]
    exact ⟨flattened, flattened.compile, hflattened, (Option.some.inj hname).symm,
      flattened.standsFor_compile⟩
  · simp at hname

/-! ## Sections -/

/-- The steps of a section stand for its entries, one step an entry, in the same order: each
step is about the key in lower case. -/
def StepsStandFor {α β : Type} (step : String → β → Action) (r : α → β → Prop) (rules : Dict α)
    (steps : List Action) : Prop :=
  List.Forall₂ (fun pair action => ∃ compiled, action = step (Text.lowercase pair.1) compiled ∧
    r pair.2 compiled) rules.entries steps

theorem stepsStandFor_map {α β : Type} {step : String → β → Action} {r : α → β → Prop}
    {rules : Dict α} (compile : α → β) (h : ∀ pair ∈ rules.entries, r pair.2 (compile pair.2)) :
    StepsStandFor step r rules
      (rules.entries.map fun pair => step (Text.lowercase pair.1) (compile pair.2)) := by
  rw [StepsStandFor, List.forall₂_map_right_iff, List.forall₂_same]
  intro pair hpair
  exact ⟨compile pair.2, rfl, h pair hpair⟩

/-- There are as many steps as entries. -/
theorem StepsStandFor.length_eq {α β : Type} {step : String → β → Action} {r : α → β → Prop}
    {rules : Dict α} {steps : List Action} (h : StepsStandFor step r rules steps) :
    steps.length = rules.size :=
  (List.Forall₂.length_eq h).symm

/-- The steps of a section of new identifiers: none if there is nothing in it, and otherwise one.
Each key stands where it first arrives up to letter case, with the target that comes last. -/
def NewIdsStandFor (renamedIds : Dict String) (steps : List Action) : Prop :=
  if renamedIds.isEmpty then
    steps = []
  else
    ∃ renames : Dict String, steps = [.renameIds renames] ∧
      renames.keys = (renamedIds.keys.map Text.lowercase).eraseDups ∧
      ∀ identifier, renames.get? identifier =
        (renamedIds.concerning identifier).getLast?.map Text.lowercase

theorem newIdsStandFor_compileRenamedIds (renamedIds : Dict String) :
    NewIdsStandFor renamedIds (compileRenamedIds renamedIds) := by
  unfold NewIdsStandFor compileRenamedIds
  split
  · rfl
  · exact ⟨_, rfl, keys_ofList_lowercase renamedIds Text.lowercase,
      get?_compiled_renames renamedIds⟩

theorem NewIdsStandFor.length_eq {renamedIds : Dict String} {steps : List Action}
    (h : NewIdsStandFor renamedIds steps) :
    steps.length = if renamedIds.isEmpty then 0 else 1 := by
  unfold NewIdsStandFor at h
  split at h
  · next hempty => rw [h, if_pos hempty, List.length_nil]
  · next hsome =>
    rcases h with ⟨renames, rfl, -⟩
    rw [if_neg hsome, List.length_singleton]

/-! ## Documents -/

/-- Tables stand for the references of properties: each property has the table that it refers
to, row by row. -/
def RuleDocument.TablesStandFor (document : RuleDocument) (references : Dict String)
    (tables : Dict (List ValueChange)) : Prop :=
  List.Forall₂ (fun reference table => table.1 = reference.1 ∧
      ∃ rows, document.lookups.get? reference.2 = some rows ∧
        List.Forall₂ (fun row change => change.StandsFor row) rows table.2)
    references.entries tables.entries

/-- The steps of a schema but the last one, section by section. -/
structure Sections where
  remapped : List Action
  newIds : List Action
  flattened : List Action
  added : List Action
  removed : List Action
  changed : List Action
  renamed : List Action

namespace Sections

/-- The steps of all sections in order; the pending name comes last. -/
def actions (sections : Sections) : List Action :=
  sections.remapped ++ sections.newIds ++ sections.flattened ++ sections.added ++
    sections.removed ++ sections.changed ++ sections.renamed ++ [.takeName]

/-- The sections stand for those of a document. -/
structure StandFor (sections : Sections) (document : RuleDocument) : Prop where
  remapped : StepsStandFor .remapStates
    (List.Forall₂ fun rule replacement => replacement.StandsFor rule)
    document.remappedStates sections.remapped
  newIds : NewIdsStandFor document.renamedIds sections.newIds
  flattened : StepsStandFor .flatten (fun name rule => rule.StandsFor name)
    document.flattenedProperties sections.flattened
  added : StepsStandFor .addProperties (fun literals properties => properties.StandFor literals)
    document.addedProperties sections.added
  removed : StepsStandFor .removeProperties (fun names removed => removed = names)
    document.removedProperties sections.removed
  changed : StepsStandFor .remapValues document.TablesStandFor document.remappedValues
    sections.changed
  renamed : StepsStandFor .renameProperties (fun renames renamed => renamed = renames)
    document.renamedProperties sections.renamed

end Sections

namespace RuleDocument

/-- The sections of a sound document. -/
def sections (document : RuleDocument) : Sections where
  remapped := document.stateSteps
  newIds := compileRenamedIds document.renamedIds
  flattened := document.flattenedProperties.entries.map fun pair =>
    .flatten (Text.lowercase pair.1) pair.2.compile
  added := document.addedProperties.entries.map fun pair =>
    .addProperties (Text.lowercase pair.1) (literalProperties pair.2)
  removed := document.removedProperties.entries.map fun pair =>
    .removeProperties (Text.lowercase pair.1) pair.2
  changed := document.remappedValues.entries.map fun pair =>
    .remapValues (Text.lowercase pair.1) (document.tablesFor pair.2)
  renamed := document.renamedProperties.entries.map fun pair =>
    .renameProperties (Text.lowercase pair.1) pair.2

theorem actions_sections (document : RuleDocument) :
    document.sections.actions = document.steps := by
  simp only [sections, Sections.actions, steps, propertySteps, List.append_assoc]

/-- The tables that properties refer to are found, and all their rows are there. -/
theorem Sound.tablesStandFor {document : RuleDocument} (h : document.Sound)
    {references : Dict String}
    (hreferences : ∀ reference ∈ references.entries, (document.table? reference.2).isSome) :
    document.TablesStandFor references (document.tablesFor references) := by
  refine forall₂_filterMap fun reference hreference => ?_
  rcases Option.isSome_iff_exists.1 (hreferences reference hreference) with ⟨table, htable⟩
  refine ⟨(reference.1, table), congrArg (Option.map (reference.1, ·)) htable, rfl, ?_⟩
  rcases Option.map_eq_some_iff.1 htable with ⟨rows, hrows, rfl⟩
  exact ⟨rows, hrows, LookupRow.forall₂_changes
    (h.lookups (reference.2, rows) (Entries.mem_of_get? hrows))⟩

/-- The sections of a sound document stand for it. -/
theorem Sound.sections_standFor {document : RuleDocument} (h : document.Sound) :
    document.sections.StandFor document where
  remapped := stepsStandFor_map (List.filterMap StateRule.replacement?) fun pair hpair =>
    forall₂_filterMap fun rule hrule => (h.states pair hpair rule hrule).exists_replacement
  newIds := newIdsStandFor_compileRenamedIds document.renamedIds
  flattened := stepsStandFor_map FlattenedName.compile fun pair _ => pair.2.standsFor_compile
  added := stepsStandFor_map literalProperties fun pair hpair =>
    standFor_literalProperties (h.added pair hpair)
  removed := stepsStandFor_map id fun _ _ => rfl
  changed := stepsStandFor_map document.tablesFor fun pair hpair =>
    h.tablesStandFor (h.references pair hpair)
  renamed := stepsStandFor_map id fun _ _ => rfl

/-- No step but the last one is final. -/
theorem filter_isFinal_steps (document : RuleDocument) :
    document.steps.filter Action.isFinal = [.takeName] := by
  have hstates : document.stateSteps.filter Action.isFinal = [] :=
    List.filter_eq_nil_iff.2 fun _ h => by simp [isFinal_of_mem_stateSteps h]
  have hids : (compileRenamedIds document.renamedIds).filter Action.isFinal = [] :=
    List.filter_eq_nil_iff.2 fun _ h => by simp [isFinal_of_mem_compileRenamedIds h]
  have hproperties : document.propertySteps.filter Action.isFinal = [] :=
    List.filter_eq_nil_iff.2 fun _ h => by simp [isFinal_of_mem_propertySteps h]
  simp only [steps, List.filter_append, hstates, hids, hproperties]
  rfl

/-- The number of steps that a document takes. -/
theorem length_steps {document : RuleDocument} (h : document.Sound) :
    document.steps.length =
      document.remappedStates.size + (if document.renamedIds.isEmpty then 0 else 1) +
        document.flattenedProperties.size + document.addedProperties.size +
        document.removedProperties.size + document.remappedValues.size +
        document.renamedProperties.size + 1 := by
  have hsections := h.sections_standFor
  rw [← actions_sections]
  simp only [Sections.actions, List.length_append, hsections.remapped.length_eq,
    hsections.newIds.length_eq, hsections.flattened.length_eq, hsections.added.length_eq,
    hsections.removed.length_eq, hsections.changed.length_eq, hsections.renamed.length_eq,
    List.length_singleton]

/-- The steps of a schema are those of the sections of its document, in order, and then the one
that takes the pending name.  There is no other step that does, and as many steps before as the
sections have entries, where all new identifiers are one. -/
theorem compiled_steps {document : RuleDocument} {schema : Schema}
    (h : document.compile = .ok schema) :
    (∃ sections : Sections, sections.StandFor document ∧ schema.actions = sections.actions) ∧
    schema.actions.getLast? = some .takeName ∧
    schema.actions.filter Action.isFinal = [.takeName] ∧
    schema.actions.length =
      document.remappedStates.size + (if document.renamedIds.isEmpty then 0 else 1) +
        document.flattenedProperties.size + document.addedProperties.size +
        document.removedProperties.size + document.remappedValues.size +
        document.renamedProperties.size + 1 := by
  rcases compile_eq_ok_iff.1 h with ⟨hsound, rfl⟩
  refine ⟨⟨document.sections, hsound.sections_standFor, document.actions_sections.symm⟩, ?_,
    document.filter_isFinal_steps, length_steps hsound⟩
  exact List.getLast?_concat

end RuleDocument

/-- A document with two keys for one block among the new identifiers and among the added
properties, and with two texts in a flattened name that agree in lower case. -/
def trunkDocument : RuleDocument :=
  { RuleDocument.unchanged ⟨1, 20, 0, 0⟩ with
    lookups := .ofList [("sides", [⟨⟨some 0, none, none⟩, ⟨none, none, some "Up"⟩⟩])]
    remappedStates := .ofList [("X:Wood", [
      ⟨some (.ofList [("lit", ⟨none, some 1, none⟩)]), none, ["kind"], none,
        some ⟨"x:Lit_", "kind", "", none⟩⟩])]
    renamedIds := .ofList [("x:log", "x:Old"), ("y:log", "y:Log"), ("X:LOG", "x:Trunk")]
    flattenedProperties := .ofList [("X:Log", ⟨"x:", "kind", "_Log",
      some (.ofList [("Oak", "Ash"), ("pine", "Fir"), ("OAK", "Birch")])⟩)]
    addedProperties := .ofList [("x:log", .ofList [("age", ⟨some 1, none, none⟩)]),
      ("X:LOG", .ofList [("lit", ⟨none, some 0, none⟩)])]
    remappedValues := .ofList [("X:Log", .ofList [("side", "sides")])] }

/-- The new identifiers become one step with two keys, the added properties two steps, and the
flattened name replaces two texts. -/
theorem compiled_steps_of_trunkDocument :
    ∃ schema, trunkDocument.compile = .ok schema ∧
      (∃ sections : Sections, sections.StandFor trunkDocument ∧
        schema.actions = sections.actions) ∧
      schema.actions.length = 7 ∧
      schema.actions =
        [.remapStates "x:wood" [⟨.ofList [("lit", .byte 1)], .empty, ["kind"],
            .flattened ⟨"x:Lit_", "kind", "", .empty⟩⟩],
          .renameIds (.ofList [("x:log", "x:trunk"), ("y:log", "y:log")]),
          .flatten "x:log"
            ⟨"x:", "kind", "_Log", .ofList [("oak", "Birch"), ("pine", "Fir")]⟩,
          .addProperties "x:log" (.ofList [("age", .int 1)]),
          .addProperties "x:log" (.ofList [("lit", .byte 0)]),
          .remapValues "x:log" (.ofList [("side", [⟨.int 0, .string "up"⟩])]), .takeName] := by
  have hcompile : trunkDocument.compile =
      .ok ⟨trunkDocument.version, trunkDocument.steps, none⟩ := rfl
  have h := RuleDocument.compiled_steps hcompile
  exact ⟨_, hcompile, h.1, h.2.2.2, by decide +kernel⟩

end BlockData
