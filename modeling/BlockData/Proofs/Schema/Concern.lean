import BlockData.Proofs.Schema.Effect

/-!
# Rules for other blocks

What a document does to a block depends on the rules whose key is its identifier up to letter
case, and on the lookup tables that they refer to.

* `RuleDocument.about` keeps these rules and drops all others;
* `compile_about` says that what is left compiles, `effect_about` that it does the same to the
  block;
* `effect_of_not_concerns` says that a document without such rules gives a block the name that
  is pending and does nothing else.
-/

namespace BlockData

namespace Dict

variable {α : Type}

/-- The entries whose key is an identifier up to letter case. -/
def about (rules : Dict α) (identifier : String) : Dict α :=
  ⟨rules.entries.filter fun pair => Text.lowercase pair.1 = identifier,
    List.Nodup.sublist (List.filter_sublist.map _) rules.distinct⟩

theorem mem_of_mem_about {rules : Dict α} {identifier : String} {pair : String × α}
    (h : pair ∈ (rules.about identifier).entries) : pair ∈ rules.entries :=
  (List.mem_filter.1 h).1

/-- The entries that are kept are those that concern the block. -/
@[simp] theorem concerning_about (rules : Dict α) (identifier : String) :
    (rules.about identifier).concerning identifier = rules.concerning identifier := by
  simp [about, concerning, List.filter_filter]

/-- No entry concerns a block if no key is its identifier. -/
theorem concerning_eq_nil {rules : Dict α} {identifier : String}
    (h : ∀ key ∈ rules.keys, Text.lowercase key ≠ identifier) :
    rules.concerning identifier = [] := by
  rw [concerning, List.map_eq_nil_iff, List.filter_eq_nil_iff]
  intro pair hpair hkey
  exact h pair.1 (List.mem_map_of_mem hpair) (of_decide_eq_true hkey)

end Dict

namespace RuleDocument

/-! ## Rules that are left -/

/-- The document with no rules but those whose key is an identifier up to letter case.  Lookup
tables have names for keys and are all kept. -/
def about (document : RuleDocument) (identifier : String) : RuleDocument where
  version := document.version
  lookups := document.lookups
  remappedStates := document.remappedStates.about identifier
  renamedIds := document.renamedIds.about identifier
  flattenedProperties := document.flattenedProperties.about identifier
  addedProperties := document.addedProperties.about identifier
  removedProperties := document.removedProperties.about identifier
  remappedValues := document.remappedValues.about identifier
  renamedProperties := document.renamedProperties.about identifier

/-- Rules that are dropped take their defects with them, and the others get none. -/
theorem Sound.about {document : RuleDocument} (h : document.Sound) (identifier : String) :
    (document.about identifier).Sound where
  lookups := h.lookups
  states := fun pair hpair => h.states pair (Dict.mem_of_mem_about hpair)
  added := fun pair hpair => h.added pair (Dict.mem_of_mem_about hpair)
  references := fun pair hpair => h.references pair (Dict.mem_of_mem_about hpair)

/-- What is left of a document that compiles does so, too. -/
theorem compile_about {document : RuleDocument} {schema : Schema}
    (h : document.compile = .ok schema) (identifier : String) :
    ∃ reduced, (document.about identifier).compile = .ok reduced :=
  ⟨_, compile_eq_ok_iff.2 ⟨(compile_eq_ok_iff.1 h).1.about identifier, rfl⟩⟩

/-- Rules for other blocks have no part in the effect on a block. -/
theorem effect_about (document : RuleDocument) (state : BlockState) :
    (document.about state.identifier).effect state = document.effect state := by
  -- tables are kept, and the rules for the block are those that are selected
  have hlookUp : (document.about state.identifier).lookUpValues = document.lookUpValues := rfl
  have hid : (document.about state.identifier).newId? state.identifier =
      document.newId? state.identifier := by
    simp [newId?, about]
  have hrule : (document.about state.identifier).stateRule? state.identifier =
      document.stateRule? state.identifier := by
    funext properties
    simp [stateRule?, about]
  have hflattened : (document.about state.identifier).flattenedProperties.concerning
      state.identifier = document.flattenedProperties.concerning state.identifier :=
    Dict.concerning_about _ _
  have hchange : (document.about state.identifier).changeProperties state.identifier =
      document.changeProperties state.identifier := by
    funext properties
    simp only [changeProperties, hlookUp]
    simp [about]
  simp only [effect, hid, hrule, hflattened, hchange]

/-! ## Documents without rules for a block -/

/-- The keys of all rules, section by section. -/
def ruleKeys (document : RuleDocument) : List String :=
  document.remappedStates.keys ++ document.renamedIds.keys ++
    document.flattenedProperties.keys ++ document.addedProperties.keys ++
    document.removedProperties.keys ++ document.remappedValues.keys ++
    document.renamedProperties.keys

/-- Some rule has an identifier for its key, up to letter case. -/
def Concerns (document : RuleDocument) (identifier : String) : Prop :=
  identifier ∈ document.ruleKeys.map Text.lowercase

instance (document : RuleDocument) (identifier : String) :
    Decidable (document.Concerns identifier) :=
  inferInstanceAs (Decidable (_ ∈ _))

/-- A document without rules for a block gives it the name that is pending, if there is one. -/
theorem effect_of_not_concerns {document : RuleDocument} {state : BlockState}
    (h : ¬ document.Concerns state.identifier) : document.effect state = state.takePending := by
  have hkeys : ∀ key ∈ document.ruleKeys, Text.lowercase key ≠ state.identifier := by
    intro key hkey heq
    exact h (List.mem_map.2 ⟨key, hkey, heq⟩)
  simp only [ruleKeys, List.mem_append, or_imp, forall_and] at hkeys
  rcases hkeys with ⟨⟨⟨⟨⟨⟨hstates, hids⟩, hflattened⟩, hadded⟩, hremoved⟩, hvalues⟩, hrenamed⟩
  rcases state with ⟨identifier, properties, pending⟩
  have hid : document.newId? identifier = none := by
    rw [newId?, Dict.concerning_eq_nil hids]
    rfl
  rw [BlockState.takePending_eq]
  cases properties with
  | none => simp only [effect, hid, Option.none_or]
  | some properties =>
    -- no section has anything to do
    have hrule : document.stateRule? identifier properties = none := by
      rw [stateRule?, Dict.concerning_eq_nil hstates]
      rfl
    have hchange : document.changeProperties identifier properties = properties := by
      simp only [changeProperties, Dict.concerning_eq_nil hadded,
        Dict.concerning_eq_nil hremoved, Dict.concerning_eq_nil hvalues,
        Dict.concerning_eq_nil hrenamed, List.foldl_nil]
    simp only [effect, hrule, Dict.concerning_eq_nil hflattened, flattenAll, hid, hchange,
      Option.none_or]

end RuleDocument
end BlockData
