import BlockData.Proofs.Dict
import BlockData.Proofs.Failure
import BlockData.Schema.Compile
import Mathlib.Data.List.Basic

/-!
# What documents compile to

A document compiles exactly if it is sound: every literal has a kind, every state rule
gives a name, and every reference to a lookup table leads to one.  Its steps can then be
written down without any case of failure.

* `RuleDocument.Sound` collects what can be wrong with a document;
* `RuleDocument.steps` lists the steps of a sound document, section by section;
* `compile_eq_ok_iff` says that these are the schemas that compiling yields.
-/

namespace BlockData

/-! ## Results without an error -/

namespace Compiled

variable {α β : Type}

theorem bind_eq_ok_iff {x : Compiled α} {f : α → Compiled β} {b : β} :
    x >>= f = .ok b ↔ ∃ a, x = .ok a ∧ f a = .ok b := by
  cases x <;> simp [bind, Except.bind]

theorem pure_eq_ok_iff {a b : α} : (pure a : Compiled α) = .ok b ↔ a = b :=
  Except.ok.injEq a b ▸ Iff.rfl

/-- A list compiles if its items do, which they do under a condition `p` and to what `g`
gives. -/
theorem mapM_eq_ok_iff {f : α → Compiled β} {p : α → Prop} {g : α → Option β}
    (h : ∀ a b, f a = .ok b ↔ p a ∧ g a = some b) {items : List α} {results : List β} :
    items.mapM f = .ok results ↔
      (∀ a ∈ items, p a ∧ (g a).isSome) ∧ results = items.filterMap g := by
  rw [Failure.mapM_eq_ok_iff]
  -- items that have results all have those that `g` gives
  have hresults (hall : ∀ a ∈ items, p a ∧ (g a).isSome) :
      items.map f = (items.filterMap g).map .ok := by
    rw [List.map_filterMap, ← List.filterMap_eq_map]
    refine (List.filterMap_congr fun a ha => ?_).symm
    rcases hall a ha with ⟨hp, hsome⟩
    rcases Option.isSome_iff_exists.1 hsome with ⟨b, hb⟩
    simp [hb, (h a b).2 ⟨hp, hb⟩]
  constructor
  · intro hmap
    have hall : ∀ a ∈ items, p a ∧ (g a).isSome := by
      intro a ha
      rcases List.mem_map.1 (hmap ▸ List.mem_map_of_mem ha) with ⟨b, -, hb⟩
      rcases (h a b).1 hb.symm with ⟨hp, hg⟩
      exact ⟨hp, by simp [hg]⟩
    exact ⟨hall, List.map_injective_iff.2 (fun _ _ => Except.ok.inj)
      (hmap.symm.trans (hresults hall))⟩
  · rintro ⟨hall, rfl⟩
    exact hresults hall

/-- The same where `g` always gives something. -/
theorem mapM_eq_ok_iff_map {f : α → Compiled β} {p : α → Prop} {g : α → β}
    (h : ∀ a b, f a = .ok b ↔ p a ∧ g a = b) {items : List α} {results : List β} :
    items.mapM f = .ok results ↔ (∀ a ∈ items, p a) ∧ results = items.map g := by
  have hsome : ∀ a b, f a = .ok b ↔ p a ∧ (some ∘ g) a = some b := by simpa using h
  rw [mapM_eq_ok_iff hsome, List.filterMap_eq_map]
  simp

end Compiled

open Compiled

/-! ## Literals -/

theorem Literal.compile_eq_ok_iff {place : LiteralPlace} {literal : Literal}
    {value : PropertyValue} :
    literal.compile place = .ok value ↔ literal.value? = some value := by
  unfold Literal.compile
  cases literal.value? <;> simp

/-- The properties that literals write; a literal without a kind writes none. -/
def literalProperties (literals : Dict Literal) : Properties :=
  literals.filterMap Literal.value?

/-- Whether all literals have a kind. -/
def AllKinded (literals : Dict Literal) : Prop :=
  ∀ pair ∈ literals.entries, pair.2.value?.isSome

theorem compileProperties_eq_ok_iff {place : String → LiteralPlace} {literals : Dict Literal}
    {properties : Properties} :
    compileProperties place literals = .ok properties ↔
      AllKinded literals ∧ properties = literalProperties literals := by
  have hitem : ∀ (pair : String × Literal) (result : String × PropertyValue),
      (do return (pair.1, ← pair.2.compile (place pair.1)) : Compiled _) = .ok result ↔
        True ∧ (pair.2.value?.map (pair.1, ·)) = some result := by
    intro pair result
    simp only [bind_eq_ok_iff, pure_eq_ok_iff, Literal.compile_eq_ok_iff, true_and,
      Option.map_eq_some_iff]
  have hofList : Dict.ofList (literals.entries.filterMap fun pair =>
      pair.2.value?.map (pair.1, ·)) = literalProperties literals :=
    Dict.ofList_entries (literalProperties literals)
  unfold compileProperties
  simp only [bind_eq_ok_iff, pure_eq_ok_iff, mapM_eq_ok_iff hitem]
  constructor
  · rintro ⟨values, ⟨hall, rfl⟩, rfl⟩
    exact ⟨fun pair hpair => by simpa using hall pair hpair, hofList⟩
  · rintro ⟨hall, rfl⟩
    exact ⟨_, ⟨fun pair hpair => by simpa using hall pair hpair, rfl⟩, hofList⟩

/-! ## Lookup tables -/

/-- The change that a row writes, if both its literals have a kind. -/
def LookupRow.change? (row : LookupRow) : Option ValueChange :=
  row.old.value?.bind fun old => row.new.value?.map fun new => ⟨old, new⟩

theorem LookupRow.compile_eq_ok_iff {table : String} {row : LookupRow} {change : ValueChange} :
    row.compile table = .ok change ↔ True ∧ row.change? = some change := by
  simp only [LookupRow.compile, LookupRow.change?, bind_eq_ok_iff, pure_eq_ok_iff, true_and,
    Literal.compile_eq_ok_iff, Option.bind_eq_some_iff, Option.map_eq_some_iff]

/-- The changes of a table, as far as its rows write any. -/
def LookupRow.changes (rows : List LookupRow) : List ValueChange :=
  rows.filterMap change?

theorem compileLookups_eq_ok_iff {lookups : Dict (List LookupRow)}
    {tables : Dict (List ValueChange)} :
    compileLookups lookups = .ok tables ↔
      (∀ pair ∈ lookups.entries, ∀ row ∈ pair.2, row.change?.isSome) ∧
        tables = lookups.map LookupRow.changes := by
  have hitem : ∀ (pair : String × List LookupRow) (result : String × List ValueChange),
      (do return (pair.1, ← pair.2.mapM (·.compile pair.1)) : Compiled _) = .ok result ↔
        (∀ row ∈ pair.2, row.change?.isSome) ∧
          (pair.1, LookupRow.changes pair.2) = result := by
    intro pair result
    have hrows : ∀ rows : List ValueChange, pair.2.mapM (·.compile pair.1) = .ok rows ↔
        (∀ row ∈ pair.2, True ∧ row.change?.isSome) ∧ rows = LookupRow.changes pair.2 :=
      fun rows => mapM_eq_ok_iff fun _ _ => LookupRow.compile_eq_ok_iff
    simp only [bind_eq_ok_iff, pure_eq_ok_iff, hrows, true_and]
    constructor
    · rintro ⟨rows, ⟨hall, rfl⟩, hresult⟩
      exact ⟨hall, hresult⟩
    · rintro ⟨hall, hresult⟩
      exact ⟨_, ⟨hall, rfl⟩, hresult⟩
  -- the names of tables are those of a dictionary, and none comes twice
  have hofList : Dict.ofList (lookups.entries.map fun pair =>
      (pair.1, LookupRow.changes pair.2)) = lookups.map LookupRow.changes :=
    Dict.ofList_entries (lookups.map LookupRow.changes)
  unfold compileLookups
  simp only [bind_eq_ok_iff, pure_eq_ok_iff, mapM_eq_ok_iff_map hitem]
  constructor
  · rintro ⟨values, ⟨hall, rfl⟩, rfl⟩
    exact ⟨hall, hofList⟩
  · rintro ⟨hall, rfl⟩
    exact ⟨_, ⟨hall, rfl⟩, hofList⟩

/-- The table with a name. -/
def RuleDocument.table? (document : RuleDocument) (lookup : String) :
    Option (List ValueChange) :=
  (document.lookups.get? lookup).map LookupRow.changes

/-- The tables that properties refer to, as far as there are such. -/
def RuleDocument.tablesFor (document : RuleDocument) (references : Dict String) :
    Dict (List ValueChange) :=
  references.filterMap document.table?

theorem compileAdded_eq_ok_iff (identifier : String) (literals : Dict Literal)
    (action : Action) :
    (do
        return .addProperties identifier
          (← compileProperties (.addedProperties identifier) literals) : Compiled _) =
        .ok action ↔
      AllKinded literals ∧ .addProperties identifier (literalProperties literals) = action := by
  simp only [bind_eq_ok_iff, pure_eq_ok_iff, compileProperties_eq_ok_iff]
  constructor
  · rintro ⟨properties, ⟨hall, rfl⟩, haction⟩
    exact ⟨hall, haction⟩
  · rintro ⟨hall, haction⟩
    exact ⟨_, ⟨hall, rfl⟩, haction⟩

/-! ## State rules -/

/-- The replacement that a state rule stands for, if it gives a name. -/
def StateRule.replacement? (rule : StateRule) : Option Replacement :=
  rule.newName?.map fun name =>
    { oldState := literalProperties (rule.oldState.getD .empty)
      newState := literalProperties (rule.newState.getD .empty)
      copied := rule.copiedState
      name := name }

/-- Nothing is wrong with a state rule. -/
structure StateRule.Sound (rule : StateRule) : Prop where
  named : rule.newName?.isSome
  oldState : AllKinded (rule.oldState.getD .empty)
  newState : AllKinded (rule.newState.getD .empty)

theorem StateRule.compile_eq_ok_iff {identifier : String} {rule : StateRule}
    {replacement : Replacement} :
    rule.compile identifier = .ok replacement ↔
      rule.Sound ∧ rule.replacement? = some replacement := by
  unfold StateRule.compile StateRule.replacement?
  cases hname : rule.newName? with
  | none => simp
  | some name =>
    simp only [bind_eq_ok_iff, pure_eq_ok_iff, compileProperties_eq_ok_iff, Option.map_some,
      Option.some.injEq]
    constructor
    · rintro ⟨old, ⟨hold, rfl⟩, new, ⟨hnew, rfl⟩, rfl⟩
      exact ⟨⟨by simp [hname], hold, hnew⟩, rfl⟩
    · rintro ⟨⟨-, hold, hnew⟩, rfl⟩
      exact ⟨_, ⟨hold, rfl⟩, _, ⟨hnew, rfl⟩, rfl⟩

/-- A sound state rule has a replacement. -/
theorem StateRule.Sound.isSome_replacement? {rule : StateRule} (h : rule.Sound) :
    rule.replacement?.isSome := by
  simpa [StateRule.replacement?] using h.named

theorem compileStateRules_eq_ok_iff (identifier : String) (rules : List StateRule)
    (action : Action) :
    (do return .remapStates identifier (← rules.mapM (·.compile identifier)) : Compiled _) =
        .ok action ↔
      (∀ rule ∈ rules, rule.Sound) ∧
        .remapStates identifier (rules.filterMap StateRule.replacement?) = action := by
  have hrules : ∀ replacements : List Replacement,
      rules.mapM (·.compile identifier) = .ok replacements ↔
        (∀ rule ∈ rules, rule.Sound ∧ rule.replacement?.isSome) ∧
          replacements = rules.filterMap StateRule.replacement? :=
    fun _ => mapM_eq_ok_iff fun _ _ => StateRule.compile_eq_ok_iff
  simp only [bind_eq_ok_iff, pure_eq_ok_iff, hrules]
  constructor
  · rintro ⟨replacements, ⟨hall, rfl⟩, haction⟩
    exact ⟨fun rule hrule => (hall rule hrule).1, haction⟩
  · rintro ⟨hall, haction⟩
    exact ⟨_, ⟨fun rule hrule => ⟨hall rule hrule, (hall rule hrule).isSome_replacement?⟩, rfl⟩,
      haction⟩

/-! ## References to tables -/

theorem compileReferences_eq_ok_iff (tables : Dict (List ValueChange)) (identifier : String)
    (references : Dict String) (action : Action) :
    (do
        let changes ← references.entries.mapM fun (property, lookup) => do
          return (property, ← findLookup tables identifier property lookup)
        return .remapValues identifier (.ofList changes) : Compiled _) = .ok action ↔
      (∀ pair ∈ references.entries, (tables.get? pair.2).isSome) ∧
        .remapValues identifier (references.filterMap tables.get?) = action := by
  have hitem : ∀ (pair : String × String) (result : String × List ValueChange),
      (do return (pair.1, ← findLookup tables identifier pair.1 pair.2) : Compiled _) =
          .ok result ↔
        True ∧ (tables.get? pair.2).map (pair.1, ·) = some result := by
    intro pair result
    simp only [bind_eq_ok_iff, pure_eq_ok_iff, true_and, Option.map_eq_some_iff, findLookup]
    cases tables.get? pair.2 <;> simp
  have hofList : Dict.ofList (references.entries.filterMap fun pair =>
      (tables.get? pair.2).map (pair.1, ·)) = references.filterMap tables.get? :=
    Dict.ofList_entries (references.filterMap tables.get?)
  simp only [bind_eq_ok_iff, pure_eq_ok_iff, mapM_eq_ok_iff hitem]
  constructor
  · rintro ⟨changes, ⟨hall, rfl⟩, rfl⟩
    exact ⟨fun pair hpair => by simpa using hall pair hpair, by rw [hofList]⟩
  · rintro ⟨hall, rfl⟩
    exact ⟨_, ⟨fun pair hpair => by simpa using hall pair hpair, rfl⟩, by rw [hofList]⟩

/-! ## Documents -/

/-- A section compiles if its rules do, to one step a rule. -/
theorem compileSection_eq_ok_iff {α : Type} {action : String → α → Compiled Action}
    {p : α → Prop} {step : String → α → Action}
    (h : ∀ identifier rule result,
      action identifier rule = .ok result ↔ p rule ∧ step identifier rule = result)
    {rules : Dict α} {actions : List Action} :
    compileSection rules action = .ok actions ↔
      (∀ pair ∈ rules.entries, p pair.2) ∧
        actions = rules.entries.map fun pair => step (Text.lowercase pair.1) pair.2 :=
  mapM_eq_ok_iff_map fun pair result => h (Text.lowercase pair.1) pair.2 result

/-- Steps that are written down as they stand. -/
theorem compilePlain_eq_ok_iff {α : Type} (step : String → α → Action) (identifier : String)
    (rule : α) (action : Action) :
    (pure (step identifier rule) : Compiled Action) = .ok action ↔
      True ∧ step identifier rule = action := by
  rw [pure_eq_ok_iff, true_and]

namespace RuleDocument

/-- Nothing is wrong with a document. -/
structure Sound (document : RuleDocument) : Prop where
  lookups : ∀ pair ∈ document.lookups.entries, ∀ row ∈ pair.2, row.change?.isSome
  states : ∀ pair ∈ document.remappedStates.entries, ∀ rule ∈ pair.2, rule.Sound
  added : ∀ pair ∈ document.addedProperties.entries, AllKinded pair.2
  references : ∀ pair ∈ document.remappedValues.entries, ∀ reference ∈ pair.2.entries,
    (document.table? reference.2).isSome

/-- The steps of the state rules. -/
def stateSteps (document : RuleDocument) : List Action :=
  document.remappedStates.entries.map fun pair =>
    .remapStates (Text.lowercase pair.1) (pair.2.filterMap StateRule.replacement?)

/-- The steps of the sections on properties in order. -/
def propertySteps (document : RuleDocument) : List Action :=
  (document.flattenedProperties.entries.map fun pair =>
    .flatten (Text.lowercase pair.1) pair.2.compile) ++
  (document.addedProperties.entries.map fun pair =>
    .addProperties (Text.lowercase pair.1) (literalProperties pair.2)) ++
  (document.removedProperties.entries.map fun pair =>
    .removeProperties (Text.lowercase pair.1) pair.2) ++
  (document.remappedValues.entries.map fun pair =>
    .remapValues (Text.lowercase pair.1) (document.tablesFor pair.2)) ++
  (document.renamedProperties.entries.map fun pair =>
    .renameProperties (Text.lowercase pair.1) pair.2)

/-- The steps of a document, section by section; the pending name comes last. -/
def steps (document : RuleDocument) : List Action :=
  document.stateSteps ++ (compileRenamedIds document.renamedIds ++ document.propertySteps) ++
    [.takeName]

/-! Only the last step is final. -/

theorem isFinal_of_mem_stateSteps {document : RuleDocument} {action : Action}
    (h : action ∈ document.stateSteps) : action.isFinal = false := by
  rcases List.mem_map.1 h with ⟨pair, -, rfl⟩
  rfl

theorem isFinal_of_mem_compileRenamedIds {renamedIds : Dict String} {action : Action}
    (h : action ∈ compileRenamedIds renamedIds) : action.isFinal = false := by
  unfold compileRenamedIds at h
  split at h
  · simp at h
  · rw [List.mem_singleton.1 h]
    rfl

theorem isFinal_of_mem_propertySteps {document : RuleDocument} {action : Action}
    (h : action ∈ document.propertySteps) : action.isFinal = false := by
  simp only [propertySteps, List.mem_append, List.mem_map] at h
  rcases h with (((h | h) | h) | h) | h
  all_goals
    rcases h with ⟨pair, -, rfl⟩
    rfl

/-- A document compiles exactly if it is sound, and then to its steps. -/
theorem compile_eq_ok_iff {document : RuleDocument} {schema : Schema} :
    document.compile = .ok schema ↔
      document.Sound ∧ schema = ⟨document.version, document.steps, none⟩ := by
  have htable : (document.lookups.map LookupRow.changes).get? = document.table? :=
    funext fun lookup => Dict.get?_map _ document.lookups lookup
  constructor
  · intro h
    -- the sections compile one after the other
    rcases bind_eq_ok_iff.1 h with ⟨tables, htables, h⟩
    rcases bind_eq_ok_iff.1 h with ⟨remapped, hremapped, h⟩
    rcases bind_eq_ok_iff.1 h with ⟨flattened, hflattened, h⟩
    rcases bind_eq_ok_iff.1 h with ⟨added, hadded, h⟩
    rcases bind_eq_ok_iff.1 h with ⟨removed, hremoved, h⟩
    rcases bind_eq_ok_iff.1 h with ⟨changed, hchanged, h⟩
    rcases bind_eq_ok_iff.1 h with ⟨renamed, hrenamed, h⟩
    rcases compileLookups_eq_ok_iff.1 htables with ⟨hlookups, rfl⟩
    rcases (compileSection_eq_ok_iff compileStateRules_eq_ok_iff).1 hremapped with ⟨hstates, rfl⟩
    rcases (compileSection_eq_ok_iff (compilePlain_eq_ok_iff _)).1 hflattened with ⟨-, rfl⟩
    rcases (compileSection_eq_ok_iff compileAdded_eq_ok_iff).1 hadded with ⟨hadds, rfl⟩
    rcases (compileSection_eq_ok_iff (compilePlain_eq_ok_iff _)).1 hremoved with ⟨-, rfl⟩
    obtain ⟨hrefs, rfl⟩ :=
      (compileSection_eq_ok_iff (compileReferences_eq_ok_iff _)).1 hchanged
    rcases (compileSection_eq_ok_iff (compilePlain_eq_ok_iff _)).1 hrenamed with ⟨-, rfl⟩
    obtain rfl := pure_eq_ok_iff.1 h
    rw [htable] at hrefs
    refine ⟨⟨hlookups, hstates, hadds, hrefs⟩, ?_⟩
    simp only [htable, steps, stateSteps, propertySteps, tablesFor, List.append_assoc]
  · rintro ⟨⟨hlookups, hstates, hadds, hrefs⟩, rfl⟩
    rw [← htable] at hrefs
    refine bind_eq_ok_iff.2 ⟨_, compileLookups_eq_ok_iff.2 ⟨hlookups, rfl⟩, ?_⟩
    refine bind_eq_ok_iff.2
      ⟨_, (compileSection_eq_ok_iff compileStateRules_eq_ok_iff).2 ⟨hstates, rfl⟩, ?_⟩
    refine bind_eq_ok_iff.2
      ⟨_, (compileSection_eq_ok_iff (compilePlain_eq_ok_iff _)).2 ⟨fun _ _ => trivial, rfl⟩, ?_⟩
    refine bind_eq_ok_iff.2
      ⟨_, (compileSection_eq_ok_iff compileAdded_eq_ok_iff).2 ⟨hadds, rfl⟩, ?_⟩
    refine bind_eq_ok_iff.2
      ⟨_, (compileSection_eq_ok_iff (compilePlain_eq_ok_iff _)).2 ⟨fun _ _ => trivial, rfl⟩, ?_⟩
    refine bind_eq_ok_iff.2
      ⟨_, (compileSection_eq_ok_iff (compileReferences_eq_ok_iff _)).2 ⟨hrefs, rfl⟩, ?_⟩
    refine bind_eq_ok_iff.2
      ⟨_, (compileSection_eq_ok_iff (compilePlain_eq_ok_iff _)).2 ⟨fun _ _ => trivial, rfl⟩, ?_⟩
    simp only [htable, steps, stateSteps, propertySteps, tablesFor, pure_eq_ok_iff,
      List.append_assoc]

end RuleDocument
end BlockData
