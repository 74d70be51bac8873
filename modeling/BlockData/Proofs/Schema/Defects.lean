import BlockData.Proofs.Failure
import BlockData.Proofs.Schema.Steps

/-!
# Defects of documents

All that can be wrong with a rule document, in the order in which compiling meets it: lookup
tables first, then the sections of state rules, of added properties and of changed values, each
in document order.  The first defect is the error of compiling, and there is no other error.

* `RuleDocument.HasDefect` says which defects a document has, and by which error each is named;
* `RuleDocument.defects` lists them in order, and `mem_defects_iff` says that it misses none;
* `first_defect_is_reported` is about compiling.
-/

namespace BlockData

open Failure

/-! ## Literals -/

/-- A literal has none of the known kinds. -/
def Literal.Kindless (literal : Literal) : Prop :=
  literal.int = none ∧ literal.byte = none ∧ literal.string = none

instance (literal : Literal) : Decidable literal.Kindless :=
  inferInstanceAs (Decidable (_ ∧ _))

/-- What is wrong with a literal at a place. -/
def Literal.defects (place : LiteralPlace) (literal : Literal) : List CompileError :=
  if literal.Kindless then [.unknownValueKind place] else []

/-- What is wrong with literals, each at its place. -/
def literalDefects (place : String → LiteralPlace) (literals : Dict Literal) :
    List CompileError :=
  literals.entries.flatMap fun pair => pair.2.defects (place pair.1)

theorem Literal.value?_eq_none_iff (literal : Literal) :
    literal.value? = none ↔ literal.Kindless := by
  rcases literal with ⟨int, byte, string⟩
  cases int <;> cases byte <;> cases string <;> simp [value?, Kindless]

theorem Literal.reports_compile (place : LiteralPlace) (literal : Literal) :
    Reports (literal.compile place) (literal.defects place) := by
  unfold Literal.compile Literal.defects
  cases hvalue : literal.value? with
  | none =>
    rw [if_pos (literal.value?_eq_none_iff.1 hvalue)]
    exact reports_error _ []
  | some value =>
    have hkind : ¬ literal.Kindless := by
      rw [← literal.value?_eq_none_iff, hvalue]
      exact Option.some_ne_none value
    rw [if_neg hkind]
    exact reports_ok value

theorem reports_compileProperties (place : String → LiteralPlace) (literals : Dict Literal) :
    Reports (compileProperties place literals) (literalDefects place literals) := by
  have hitem : ∀ pair : String × Literal,
      Reports (do return (pair.1, ← pair.2.compile (place pair.1)))
        (pair.2.defects (place pair.1)) :=
    fun pair => (pair.2.reports_compile (place pair.1)).andReturn (pair.1, ·)
  exact (Reports.mapM hitem literals.entries).andReturn Dict.ofList

/-! ## Lookup tables and state rules -/

/-- What is wrong with a row of a lookup table: the old literal comes first. -/
def LookupRow.defects (table : String) (row : LookupRow) : List CompileError :=
  row.old.defects (.lookupTable table) ++ row.new.defects (.lookupTable table)

theorem LookupRow.reports_compile (table : String) (row : LookupRow) :
    Reports (row.compile table) (row.defects table) :=
  (row.old.reports_compile _).bind fun old _ =>
    (row.new.reports_compile _).andReturn (ValueChange.mk old)

theorem reports_compileLookups (lookups : Dict (List LookupRow)) :
    Reports (compileLookups lookups)
      (lookups.entries.flatMap fun pair => pair.2.flatMap (·.defects pair.1)) := by
  have hitem : ∀ pair : String × List LookupRow,
      Reports (do return (pair.1, ← pair.2.mapM (·.compile pair.1)))
        (pair.2.flatMap (·.defects pair.1)) :=
    fun pair => (Reports.mapM (LookupRow.reports_compile pair.1) pair.2).andReturn (pair.1, ·)
  exact (Reports.mapM hitem lookups.entries).andReturn Dict.ofList

/-- What is wrong with a state rule: a missing name comes before the literals, and the old state
before the new one. -/
def StateRule.defects (identifier : String) (rule : StateRule) : List CompileError :=
  (if rule.newName = none ∧ rule.newFlattenedName = none then [.missingNewName identifier]
    else []) ++
  literalDefects (.oldState identifier) (rule.oldState.getD .empty) ++
  literalDefects (.newState identifier) (rule.newState.getD .empty)

theorem StateRule.newName?_eq_none_iff (rule : StateRule) :
    rule.newName? = none ↔ rule.newName = none ∧ rule.newFlattenedName = none := by
  unfold StateRule.newName?
  cases rule.newName <;> cases rule.newFlattenedName <;> simp

theorem StateRule.reports_compile (identifier : String) (rule : StateRule) :
    Reports (rule.compile identifier) (rule.defects identifier) := by
  unfold StateRule.compile StateRule.defects
  cases hname : rule.newName? with
  | none =>
    -- without a name the literals are not looked at
    rw [if_pos (rule.newName?_eq_none_iff.1 hname), List.append_assoc]
    exact reports_error _ _
  | some name =>
    have hnamed : ¬ (rule.newName = none ∧ rule.newFlattenedName = none) := by
      rw [← rule.newName?_eq_none_iff, hname]
      exact Option.some_ne_none name
    rw [if_neg hnamed, List.nil_append]
    refine (reports_compileProperties _ _).bind fun oldState _ => ?_
    exact (reports_compileProperties _ _).andReturn
      (Replacement.mk oldState · rule.copiedState name)

/-! ## Sections -/

/-- What is wrong with a section is wrong in the order of its entries. -/
theorem reports_compileSection {α : Type} {action : String → α → Compiled Action}
    {defects : String → α → List CompileError}
    (h : ∀ identifier rule, Reports (action identifier rule) (defects identifier rule))
    (rules : Dict α) :
    Reports (compileSection rules action)
      (rules.entries.flatMap fun pair => defects (Text.lowercase pair.1) pair.2) := by
  have hitem : ∀ pair : String × α, Reports (action (Text.lowercase pair.1) pair.2)
      (defects (Text.lowercase pair.1) pair.2) :=
    fun pair => h (Text.lowercase pair.1) pair.2
  exact Reports.mapM hitem rules.entries

/-- Nothing can be wrong with a section that is taken as it stands. -/
theorem reports_compilePlain {α : Type} (step : String → α → Action) (rules : Dict α) :
    Reports (compileSection rules fun identifier rule => return step identifier rule) [] := by
  have hitem : ∀ pair : String × α,
      Reports (return step (Text.lowercase pair.1) pair.2 : Compiled Action) [] :=
    fun pair => reports_ok (step (Text.lowercase pair.1) pair.2)
  have h := Reports.mapM hitem rules.entries
  rwa [List.flatMap_eq_nil_iff.2 fun _ _ => rfl] at h

namespace RuleDocument

/-- What is wrong with the references of a block's properties: they lead to no lookup table. -/
def referenceDefects (document : RuleDocument) (identifier : String)
    (references : Dict String) : List CompileError :=
  references.entries.flatMap fun pair =>
    if pair.2 ∈ document.lookups.keys then [] else [.unknownLookup identifier pair.1 pair.2]

/-- All that is wrong with a document, in order. -/
def defects (document : RuleDocument) : List CompileError :=
  (document.lookups.entries.flatMap fun pair => pair.2.flatMap (·.defects pair.1)) ++
  (document.remappedStates.entries.flatMap fun pair =>
    pair.2.flatMap (·.defects (Text.lowercase pair.1))) ++
  (document.addedProperties.entries.flatMap fun pair =>
    literalDefects (.addedProperties (Text.lowercase pair.1)) pair.2) ++
  (document.remappedValues.entries.flatMap fun pair =>
    document.referenceDefects (Text.lowercase pair.1) pair.2)

/-- A reference leads to a compiled table if there is a table of its name. -/
theorem reports_findLookup {document : RuleDocument} {tables : Dict (List ValueChange)}
    (h : compileLookups document.lookups = .ok tables) (identifier property lookup : String) :
    Reports (findLookup tables identifier property lookup)
      (if lookup ∈ document.lookups.keys then [] else
        [.unknownLookup identifier property lookup]) := by
  rcases compileLookups_eq_ok_iff.1 h with ⟨-, rfl⟩
  have hkey : lookup ∈ document.lookups.keys ↔ (document.lookups.get? lookup).isSome :=
    (Entries.isSome_get? document.lookups.entries lookup).symm
  unfold findLookup
  rw [Dict.get?_map]
  cases hfound : document.lookups.get? lookup with
  | none =>
    rw [if_neg (by rw [hkey, hfound]; exact Bool.false_ne_true)]
    exact reports_error _ []
  | some rows =>
    rw [if_pos (by rw [hkey, hfound]; rfl)]
    exact reports_ok _

/-- Compiling a document reports what is wrong with it. -/
theorem reports_compile (document : RuleDocument) :
    Reports document.compile document.defects := by
  -- the sections in which something can be wrong
  have hstates := reports_compileSection
    (fun identifier (rules : List StateRule) =>
      (Reports.mapM (StateRule.reports_compile identifier) rules).andReturn
        (Action.remapStates identifier))
    document.remappedStates
  have hadded := reports_compileSection
    (fun identifier literals =>
      (reports_compileProperties (.addedProperties identifier) literals).andReturn
        (Action.addProperties identifier))
    document.addedProperties
  have hchanged : ∀ tables, compileLookups document.lookups = .ok tables →
      Reports (compileSection document.remappedValues fun identifier lookups => do
          let changes ← lookups.entries.mapM fun pair => do
            return (pair.1, ← findLookup tables identifier pair.1 pair.2)
          return .remapValues identifier (.ofList changes))
        (document.remappedValues.entries.flatMap fun pair =>
          document.referenceDefects (Text.lowercase pair.1) pair.2) := by
    intro tables htables
    refine reports_compileSection (fun identifier references => ?_) document.remappedValues
    have hitem := fun pair : String × String =>
      (reports_findLookup htables identifier pair.1 pair.2).andReturn (pair.1, ·)
    exact (Reports.mapM hitem references.entries).andReturn
      fun changes => Action.remapValues identifier (.ofList changes)
  unfold RuleDocument.compile defects
  simp only [List.append_assoc]
  -- the sections in the order in which they are compiled
  refine (reports_compileLookups document.lookups).bind fun tables htables => ?_
  refine hstates.bind fun remapped _ => ?_
  refine (reports_compilePlain _ _).bind_of_nil fun flattened => ?_
  refine hadded.bind fun added _ => ?_
  refine (reports_compilePlain _ _).bind_of_nil fun removed => ?_
  rw [← List.append_nil (document.remappedValues.entries.flatMap _)]
  refine (hchanged tables htables).bind fun changed _ => ?_
  exact (reports_compilePlain _ _).andReturn _

/-- A document is sound exactly if nothing is wrong with it. -/
theorem sound_iff_defects_eq_nil {document : RuleDocument} :
    document.Sound ↔ document.defects = [] := by
  have hreports := document.reports_compile
  constructor
  · intro hsound
    have hok := compile_eq_ok_iff.2 ⟨hsound, rfl⟩
    refine List.head?_eq_none_iff.1 (Option.eq_none_iff_forall_ne_some.2 fun error herror => ?_)
    rw [(hreports error).2 herror] at hok
    simp at hok
  · intro hnil
    rw [hnil] at hreports
    rcases hreports.exists_ok with ⟨schema, hschema⟩
    exact (compile_eq_ok_iff.1 hschema).1

/-! ## Which defects there are -/

/-- A document has the defect that an error names. -/
inductive HasDefect (document : RuleDocument) : CompileError → Prop where
  | lookupRow {table : String} {rows : List LookupRow} {row : LookupRow}
      (hrows : (table, rows) ∈ document.lookups.entries) (hrow : row ∈ rows)
      (hkind : row.old.Kindless ∨ row.new.Kindless) :
      HasDefect document (.unknownValueKind (.lookupTable table))
  | newName {key : String} {rules : List StateRule} {rule : StateRule}
      (hrules : (key, rules) ∈ document.remappedStates.entries) (hrule : rule ∈ rules)
      (hname : rule.newName = none) (hflattened : rule.newFlattenedName = none) :
      HasDefect document (.missingNewName (Text.lowercase key))
  | oldState {key property : String} {rules : List StateRule} {rule : StateRule}
      {literals : Dict Literal} {literal : Literal}
      (hrules : (key, rules) ∈ document.remappedStates.entries) (hrule : rule ∈ rules)
      (hliterals : rule.oldState = some literals)
      (hliteral : (property, literal) ∈ literals.entries) (hkind : literal.Kindless) :
      HasDefect document (.unknownValueKind (.oldState (Text.lowercase key) property))
  | newState {key property : String} {rules : List StateRule} {rule : StateRule}
      {literals : Dict Literal} {literal : Literal}
      (hrules : (key, rules) ∈ document.remappedStates.entries) (hrule : rule ∈ rules)
      (hliterals : rule.newState = some literals)
      (hliteral : (property, literal) ∈ literals.entries) (hkind : literal.Kindless) :
      HasDefect document (.unknownValueKind (.newState (Text.lowercase key) property))
  | added {key property : String} {literals : Dict Literal} {literal : Literal}
      (hliterals : (key, literals) ∈ document.addedProperties.entries)
      (hliteral : (property, literal) ∈ literals.entries) (hkind : literal.Kindless) :
      HasDefect document (.unknownValueKind (.addedProperties (Text.lowercase key) property))
  | reference {key property lookup : String} {references : Dict String}
      (hreferences : (key, references) ∈ document.remappedValues.entries)
      (hreference : (property, lookup) ∈ references.entries)
      (hlookup : lookup ∉ document.lookups.keys) :
      HasDefect document (.unknownLookup (Text.lowercase key) property lookup)

end RuleDocument

theorem Literal.mem_defects_iff {place : LiteralPlace} {literal : Literal}
    {error : CompileError} :
    error ∈ literal.defects place ↔ literal.Kindless ∧ error = .unknownValueKind place := by
  unfold Literal.defects
  split <;> simp_all

theorem mem_literalDefects_iff {place : String → LiteralPlace} {literals : Dict Literal}
    {error : CompileError} :
    error ∈ literalDefects place literals ↔
      ∃ pair ∈ literals.entries, pair.2.Kindless ∧ error = .unknownValueKind (place pair.1) := by
  simp only [literalDefects, List.mem_flatMap, Literal.mem_defects_iff]

/-- Literals that are left out have no defect. -/
theorem mem_literalDefects_getD_iff {place : String → LiteralPlace}
    {literals : Option (Dict Literal)} {error : CompileError} :
    error ∈ literalDefects place (literals.getD .empty) ↔
      ∃ given, literals = some given ∧
        ∃ pair ∈ given.entries, pair.2.Kindless ∧ error = .unknownValueKind (place pair.1) := by
  rw [mem_literalDefects_iff]
  cases literals with
  | none => simp [Dict.empty]
  | some given => simp

namespace RuleDocument

/-- The list of defects misses none. -/
theorem mem_defects_iff {document : RuleDocument} {error : CompileError} :
    error ∈ document.defects ↔ document.HasDefect error := by
  simp only [defects, List.mem_append, List.mem_flatMap]
  constructor
  · -- by the section in which the error stands
    rintro (((⟨pair, hpair, row, hrow, h⟩ | ⟨pair, hpair, rule, hrule, h⟩) |
      ⟨pair, hpair, h⟩) | ⟨pair, hpair, h⟩)
    · simp only [LookupRow.defects, List.mem_append, Literal.mem_defects_iff, ← or_and_right] at h
      rcases h with ⟨hkind, rfl⟩
      exact .lookupRow hpair hrow hkind
    · simp only [StateRule.defects, List.mem_append, mem_literalDefects_getD_iff] at h
      rcases h with (h | ⟨literals, hliterals, literal, hliteral, hkind, rfl⟩) |
        ⟨literals, hliterals, literal, hliteral, hkind, rfl⟩
      · split at h
        · next hnone =>
          rw [List.mem_singleton.1 h]
          exact .newName hpair hrule hnone.1 hnone.2
        · simp at h
      · exact .oldState hpair hrule hliterals hliteral hkind
      · exact .newState hpair hrule hliterals hliteral hkind
    · rcases mem_literalDefects_iff.1 h with ⟨literal, hliteral, hkind, rfl⟩
      exact .added hpair hliteral hkind
    · rcases List.mem_flatMap.1 h with ⟨reference, hreference, h⟩
      split at h
      · simp at h
      · next hlookup =>
        rw [List.mem_singleton.1 h]
        exact .reference hpair hreference hlookup
  · intro h
    -- each kind of defect has its section
    cases h with
    | lookupRow hrows hrow hkind =>
      refine .inl (.inl (.inl ⟨_, hrows, _, hrow, ?_⟩))
      simpa only [LookupRow.defects, List.mem_append, Literal.mem_defects_iff, and_true]
    | newName hrules hrule hname hflattened =>
      refine .inl (.inl (.inr ⟨_, hrules, _, hrule, ?_⟩))
      simp [StateRule.defects, hname, hflattened]
    | oldState hrules hrule hliterals hliteral hkind =>
      refine .inl (.inl (.inr ⟨_, hrules, _, hrule, ?_⟩))
      simp only [StateRule.defects, List.mem_append, mem_literalDefects_getD_iff]
      exact .inl (.inr ⟨_, hliterals, _, hliteral, hkind, rfl⟩)
    | newState hrules hrule hliterals hliteral hkind =>
      refine .inl (.inl (.inr ⟨_, hrules, _, hrule, ?_⟩))
      simp only [StateRule.defects, List.mem_append, mem_literalDefects_getD_iff]
      exact .inr ⟨_, hliterals, _, hliteral, hkind, rfl⟩
    | added hliterals hliteral hkind =>
      exact .inl (.inr ⟨_, hliterals, mem_literalDefects_iff.2 ⟨_, hliteral, hkind, rfl⟩⟩)
    | reference hreferences hreference hlookup =>
      refine .inr ⟨_, hreferences, List.mem_flatMap.2 ⟨_, hreference, ?_⟩⟩
      rw [if_neg hlookup]
      exact List.mem_singleton_self _

end RuleDocument

/-! ## Messages -/

/-- A part stands somewhere in a text. -/
def Mentions (text part : String) : Prop :=
  ∃ before after, text = before ++ part ++ after

theorem mentions_self (text : String) : Mentions text text :=
  ⟨"", "", by simp⟩

theorem Mentions.append {text part : String} (h : Mentions text part) (rest : String) :
    Mentions (text ++ rest) part := by
  rcases h with ⟨before, after, rfl⟩
  exact ⟨before, after ++ rest, String.append_assoc⟩

theorem Mentions.prepend {text part : String} (h : Mentions text part) (first : String) :
    Mentions (first ++ text) part := by
  rcases h with ⟨before, after, rfl⟩
  exact ⟨first ++ before, after, by simp only [String.append_assoc]⟩

/-- The names that lead to a literal. -/
def LiteralPlace.names : LiteralPlace → List String
  | lookupTable name => [name]
  | oldState identifier property => [identifier, "oldState", property]
  | newState identifier property => [identifier, "newState", property]
  | addedProperties identifier property => [identifier, "addedProperties", property]

/-- The names that lead to a defect. -/
def CompileError.names : CompileError → List String
  | missingNewName identifier => [identifier]
  | unknownValueKind place => place.names
  | unknownLookup identifier property lookup => [identifier, property, lookup]

/-- A place in a section of a block mentions the block, the section and the property. -/
theorem mentions_section {identifier separator name property : String}
    (h : Mentions separator name) :
    ∀ part ∈ [identifier, name, property], Mentions (identifier ++ separator ++ property) part := by
  intro part hpart
  simp only [List.mem_cons, List.not_mem_nil, or_false] at hpart
  rcases hpart with rfl | rfl | rfl
  · exact ((mentions_self part).append separator).append property
  · exact (h.prepend identifier).append property
  · exact (mentions_self part).prepend (identifier ++ separator)

theorem LiteralPlace.mentions_text (place : LiteralPlace) :
    ∀ name ∈ place.names, Mentions place.text name := by
  cases place with
  | lookupTable table =>
    intro name hname
    rw [List.mem_singleton.1 hname]
    exact (mentions_self table).prepend "remappedPropertyValuesIndex."
  | oldState identifier property => exact mentions_section ⟨" ", ".", rfl⟩
  | newState identifier property => exact mentions_section ⟨" ", ".", rfl⟩
  | addedProperties identifier property => exact mentions_section ⟨" ", ".", rfl⟩

/-- The message of an error mentions all names that lead to the defect. -/
theorem CompileError.mentions_message (error : CompileError) :
    ∀ name ∈ error.names, Mentions error.message name := by
  cases error with
  | missingNewName identifier =>
    intro name hname
    rw [List.mem_singleton.1 hname]
    exact (mentions_self identifier).prepend "no new name or flattened name specified for "
  | unknownValueKind place =>
    intro name hname
    exact ((place.mentions_text name hname).prepend "unknown value kind in ").append
      " (expected one of int, byte, string)"
  | unknownLookup identifier property lookup =>
    intro name hname
    have hidentifier := (mentions_self identifier).append " property "
    have hproperty := (mentions_self property).prepend (identifier ++ " property ")
    have hlookup := (mentions_self lookup).prepend
      (identifier ++ " property " ++ property ++ " references unknown value lookup '")
    simp only [names, List.mem_cons, List.not_mem_nil, or_false] at hname
    rcases hname with rfl | rfl | rfl
    · exact (((hidentifier.append property).append _).append lookup).append "'"
    · exact ((hproperty.append _).append lookup).append "'"
    · exact hlookup.append "'"

namespace RuleDocument

/-- A document compiles exactly if it has no defect.  Otherwise the error is the first of its
defects, in the order in which they are listed, and its message mentions the names that lead to
this defect. -/
theorem first_defect_is_reported (document : RuleDocument) :
    ((∃ error, document.compile = .error error) ↔ ∃ error, document.HasDefect error) ∧
    (∀ error, document.compile = .error error ↔ document.defects.head? = some error) ∧
    (∀ error, error ∈ document.defects ↔ document.HasDefect error) ∧
    ∀ error, document.compile = .error error →
      ∀ name ∈ error.names, Mentions error.message name := by
  have hreports := document.reports_compile
  refine ⟨?_, hreports, fun error => mem_defects_iff, fun error _ => error.mentions_message⟩
  rw [hreports.exists_error_iff]
  simp only [mem_defects_iff]

end RuleDocument

/-- A document with a defect in three sections. -/
def crookedDocument : RuleDocument :=
  { RuleDocument.unchanged ⟨1, 20, 0, 0⟩ with
    lookups := .ofList [("sides", [⟨⟨some 0, none, none⟩, ⟨some 1, none, none⟩⟩]),
      ("unused", [⟨⟨some 0, none, none⟩, ⟨none, none, none⟩⟩])]
    remappedStates := .ofList [("X:Log", [
      ⟨some (.ofList [("kind", ⟨none, none, none⟩)]), none, [], none, none⟩])]
    remappedValues := .ofList [("x:LOG", .ofList [("side", "gone")])] }

/-- The lookup table that nothing refers to is met first, and then the name that is missing. -/
theorem first_defect_of_crookedDocument :
    crookedDocument.compile = .error (.unknownValueKind (.lookupTable "unused")) ∧
    Mentions (CompileError.unknownValueKind (.lookupTable "unused")).message "unused" ∧
    crookedDocument.defects =
      [.unknownValueKind (.lookupTable "unused"), .missingNewName "x:log",
        .unknownValueKind (.oldState "x:log" "kind"), .unknownLookup "x:log" "side" "gone"] := by
  have hdefects : crookedDocument.defects =
      [.unknownValueKind (.lookupTable "unused"), .missingNewName "x:log",
        .unknownValueKind (.oldState "x:log" "kind"), .unknownLookup "x:log" "side" "gone"] := by
    decide +kernel
  have h := RuleDocument.first_defect_is_reported crookedDocument
  have herror := (h.2.1 (.unknownValueKind (.lookupTable "unused"))).2 (by rw [hdefects]; rfl)
  exact ⟨herror, h.2.2.2 _ herror "unused" List.mem_cons_self, hdefects⟩

end BlockData
