import BlockData.Proofs.Json.Described
import BlockData.Proofs.Json.Outline
import BlockData.Proofs.Rule.Text
import BlockData.Proofs.Schema.Steps
import BlockData.Rule.JsonSchema

/-!
# The JSON schema of rule documents is sound

The schema describes rule documents for other programs, and asks for enough: a text whose value is
valid under it is read as a document that nothing is wrong with, as long as its references lead to
lookup tables, of which the schema does not speak.

* `describes_value`, `describes_flattenedName`, `describes_row` and `describes_stateRule` say of one
  part of a document each what the values write that are valid there;
* `exists_sound_document` puts the parts together;
* `resolves_references` is about the definitions that the parts refer to;
* `valid_texts_compile` is the result for texts.
-/

namespace BlockData

open Json (Describes Slot WritesList WritesDict valid validAll validMembers pointerTo isArrayOf
  isObjectOf propertyNames presents_of_fields)

namespace RuleDocument

variable {refers : String → Json → Bool}

-- schemas are unfolded to their keywords, and these to what they ask for
attribute [local simp] Json.record Json.text Json.Outline.value Json.Outline.memberValues
  Json.Outline.itemValues word names valid validAll validMembers propertyNames

/-! ## Simple schemas -/

@[simp] theorem valid_typeSchema (type : String) :
    valid refers (typeSchema type) = Json.hasType type := by
  funext value
  simp [typeSchema]

@[simp] theorem valid_definedSchema (name : String) :
    valid refers (definedSchema name) = refers (pointerTo name) := by
  funext value
  simp [definedSchema, pointerTo]

@[simp] theorem valid_mapSchema (schema : Json.Outline) :
    valid refers (mapSchema schema).value = isObjectOf (valid refers schema.value) := by
  funext value
  simp [mapSchema, isObjectOf]

@[simp] theorem valid_arraySchema (schema : Json.Outline) :
    valid refers (arraySchema schema).value = isArrayOf (valid refers schema.value) := by
  funext value
  simp [arraySchema, isArrayOf]

@[simp] theorem valid_textsSchema :
    valid refers textsSchema = isArrayOf (Json.hasType "string") := by
  funext value
  simp [textsSchema, isArrayOf]

/-- Whether a value is an integer between two bounds. -/
def isIntegerBetween (low high : Int) (value : Json) : Bool :=
  value.hasType "integer" && (value.numeral?.all ((low : ℚ) ≤ ·.value) &&
    value.numeral?.all (·.value ≤ (high : ℚ)))

@[simp] theorem valid_integerSchema (low high : Int) :
    valid refers (integerSchema low high) = isIntegerBetween low high := by
  funext value
  simp [integerSchema, isIntegerBetween, Json.int, Number.Numeral.value_ofInt]

theorem describes_text : Describes (Json.hasType "string") TextWritten fun _ => True := by
  intro value hproper h
  obtain ⟨s, rfl⟩ := Json.exists_text_of_hasType hproper h
  exact ⟨s, rfl, trivial⟩

/-- Between its bounds, a proper integer is one of fixed width. -/
theorem describes_integer {α : Type} {toInt : α → Int} {low high : Int}
    (hwidth : ∀ i, low ≤ i → i ≤ high → ∃ n, toInt n = i) :
    Describes (isIntegerBetween low high) (IntWritten toInt) fun _ => True := by
  intro value hproper h
  obtain ⟨htype, hlow, hhigh⟩ : value.hasType "integer" ∧
      value.numeral?.all ((low : ℚ) ≤ ·.value) ∧
      value.numeral?.all (·.value ≤ (high : ℚ)) := by
    simpa [isIntegerBetween] using h
  obtain ⟨i, rfl⟩ := Json.exists_int_of_hasType hproper htype
  have hlow : low ≤ i := by simpa [Json.int, Json.numeral?, Number.Numeral.value_ofInt] using hlow
  have hhigh : i ≤ high := by
    simpa [Json.int, Json.numeral?, Number.Numeral.value_ofInt] using hhigh
  obtain ⟨n, rfl⟩ := hwidth i hlow hhigh
  exact ⟨n, rfl, trivial⟩

theorem describes_int32 : Describes (isIntegerBetween (-2147483648) 2147483647)
    (IntWritten Int32.toInt) fun _ => True :=
  describes_integer fun i hlow hhigh =>
    ⟨.ofInt i, Int32.toInt_ofInt_of_le (by simpa using hlow) (by omega)⟩

theorem describes_int8 : Describes (isIntegerBetween (-128) 127)
    (IntWritten Int8.toInt) fun _ => True :=
  describes_integer fun i hlow hhigh =>
    ⟨.ofInt i, Int8.toInt_ofInt_of_le (by simpa using hlow) (by omega)⟩

theorem describes_uint8 : Describes (isIntegerBetween 0 255)
    (IntWritten fun n : UInt8 => n.toNat) fun _ => True :=
  describes_integer fun i hlow hhigh => by
    have hbyte : (UInt8.ofNat i.toNat).toNat = i.toNat :=
      UInt8.toNat_ofNat_of_lt (show i.toNat < 256 by omega)
    exact ⟨.ofNat i.toNat, by omega⟩

/-! ## Literals -/

/-- A literal of one kind is an object with one member. -/
theorem exists_field_of_literal {kind : String} {schema value : Json} (hproper : value.isProper)
    (h : valid refers (literalSchema kind schema).value value) :
    ∃ members v, value = .object members ∧ value.field kind = some v ∧ v.isProper ∧
      valid refers schema v ∧ ∀ name, name ≠ kind → value.field name = none := by
  obtain ⟨htype, hkind, hpass, hothers⟩ : value.hasType "object" ∧ value.hasMember (some kind) ∧
      value.membersPass (some kind) (valid refers schema) ∧
      ∀ member ∈ value.members, member.1 = some kind := by
    simpa [literalSchema] using h
  obtain ⟨members, rfl⟩ := Json.exists_object_of_hasType htype
  obtain ⟨v, hv⟩ := Option.isSome_iff_exists.1 (Json.isSome_field hkind)
  refine ⟨members, v, rfl, hv, Json.isProper_of_field hproper hv, Json.pass_of_field hpass hv, ?_⟩
  intro name hname
  refine Option.eq_none_iff_forall_ne_some.2 fun other hother => hname ?_
  exact Option.some.inj (hothers _ (Json.mem_of_field hother))

/-- A value with fields for the three kinds presents the literal of what they write. -/
theorem presented_of_kinds {literal : Literal} {members : List (Quotation × Json)}
    (hproper : (Json.object members).isProper)
    (hint : (Slot.optional "int" (IntWritten Int32.toInt) literal.int).Holds
      ((Json.object members).field "int"))
    (hbyte : (Slot.optional "byte" (IntWritten Int8.toInt) literal.byte).Holds
      ((Json.object members).field "byte"))
    (hstring : (Slot.optional "string" TextWritten literal.string).Holds
      ((Json.object members).field "string")) :
    literal.Presented (.object members) :=
  presents_of_fields hproper (by simp [Literal.slots, Slot.optional])
    (.cons hint (.cons hbyte (.cons hstring .nil)))

/-- A literal of exactly one kind is a literal that has a kind. -/
theorem describes_value : Describes (valid refers valueSchema.value) Literal.Presented
    (·.value?.isSome) := by
  intro value hproper h
  -- exactly one of the literals fits, so that one of them does
  have hkinds : valid refers (literalSchema "int" (integerSchema (-2147483648) 2147483647)).value
        value ∨ valid refers (literalSchema "byte" (integerSchema (-128) 127)).value value ∨
        valid refers (literalSchema "string" (typeSchema "string")).value value := by
    have hone : (Json.validEach refers [
        (literalSchema "int" (integerSchema (-2147483648) 2147483647)).value,
        (literalSchema "byte" (integerSchema (-128) 127)).value,
        (literalSchema "string" (typeSchema "string")).value] value).count true = 1 := by
      simpa [valueSchema] using h
    simpa using Json.exists_valid_of_count hone
  obtain hint | hbyte | hstring := hkinds
  · obtain ⟨members, v, rfl, hv, hvproper, hvalid, hothers⟩ := exists_field_of_literal hproper hint
    obtain ⟨n, hn, -⟩ := describes_int32 hvproper (by simpa using hvalid)
    exact ⟨⟨some n, none, none⟩, presented_of_kinds hproper (Slot.holds_some hv hn)
      (Slot.holds_none (hothers _ (by decide))) (Slot.holds_none (hothers _ (by decide))), rfl⟩
  · obtain ⟨members, v, rfl, hv, hvproper, hvalid, hothers⟩ := exists_field_of_literal hproper hbyte
    obtain ⟨n, hn, -⟩ := describes_int8 hvproper (by simpa using hvalid)
    exact ⟨⟨none, some n, none⟩, presented_of_kinds hproper
      (Slot.holds_none (hothers _ (by decide))) (Slot.holds_some hv hn)
      (Slot.holds_none (hothers _ (by decide))), rfl⟩
  · obtain ⟨members, v, rfl, hv, hvproper, hvalid, hothers⟩ :=
      exists_field_of_literal hproper hstring
    obtain ⟨s, hs, -⟩ := describes_text hvproper (by simpa using hvalid)
    exact ⟨⟨none, none, some s⟩, presented_of_kinds hproper
      (Slot.holds_none (hothers _ (by decide))) (Slot.holds_none (hothers _ (by decide)))
      (Slot.holds_some hv hs), rfl⟩

/-! ## References -/

/-- What the definitions describe that the sections refer to. -/
structure Refers (refers : String → Json → Bool) : Prop where
  component : Describes (refers (pointerTo "versionComponent"))
    (IntWritten fun n : UInt8 => n.toNat) fun _ => True
  value : Describes (refers (pointerTo "valueLit")) Literal.Presented (·.value?.isSome)
  stateMap : Describes (refers (pointerTo "stateMap")) (WritesDict Literal.Presented) AllKinded
  flattenedName : Describes (refers (pointerTo "flattenRule")) FlattenedName.Presented
    fun _ => True

/-! ## Records -/

theorem describes_flattenedName :
    Describes (valid refers flattenedNameSchema.value) FlattenedName.Presented fun _ => True := by
  intro value hproper h
  obtain ⟨htype, ⟨hhead, hproperty, htail⟩, hheads, hproperties, htails, hreplacements⟩ :
      value.hasType "object" ∧
      (value.hasMember (some "prefix") ∧ value.hasMember (some "flattenedProperty") ∧
        value.hasMember (some "suffix")) ∧
      value.membersPass (some "prefix") (Json.hasType "string") ∧
      value.membersPass (some "flattenedProperty") (Json.hasType "string") ∧
      value.membersPass (some "suffix") (Json.hasType "string") ∧
      value.membersPass (some "flattenedValueRemaps") (isObjectOf (Json.hasType "string")) := by
    simpa [flattenedNameSchema, and_assoc] using h
  obtain ⟨members, rfl⟩ := Json.exists_object_of_hasType htype
  obtain ⟨head, hhead, -⟩ := describes_text.required hproper hhead hheads
  obtain ⟨property, hproperty, -⟩ := describes_text.required hproper hproperty hproperties
  obtain ⟨tail, htail, -⟩ := describes_text.required hproper htail htails
  obtain ⟨replacements, hreplacements, -⟩ := describes_text.dict.optional hproper hreplacements
  refine ⟨⟨head, property, tail, replacements⟩, ?_, trivial⟩
  exact presents_of_fields hproper (by simp [FlattenedName.slots, Slot.required, Slot.optional])
    (.cons hhead (.cons hproperty (.cons htail (.cons hreplacements .nil))))

/-- The changes of a valid row have kinds. -/
theorem describes_row (hrefers : Refers refers) :
    Describes (valid refers rowSchema.value) LookupRow.Presented (·.change?.isSome) := by
  intro value hproper h
  obtain ⟨htype, ⟨hold, hnew⟩, holds, hnews⟩ : value.hasType "object" ∧
      (value.hasMember (some "old") ∧ value.hasMember (some "new")) ∧
      value.membersPass (some "old") (refers (pointerTo "valueLit")) ∧
      value.membersPass (some "new") (refers (pointerTo "valueLit")) := by
    simpa [rowSchema, and_assoc] using h
  obtain ⟨members, rfl⟩ := Json.exists_object_of_hasType htype
  obtain ⟨old, hold, holdKind⟩ := hrefers.value.required hproper hold holds
  obtain ⟨new, hnew, hnewKind⟩ := hrefers.value.required hproper hnew hnews
  obtain ⟨oldValue, holdValue⟩ := Option.isSome_iff_exists.1 holdKind
  obtain ⟨newValue, hnewValue⟩ := Option.isSome_iff_exists.1 hnewKind
  refine ⟨⟨old, new⟩, ?_, by simp [LookupRow.change?, holdValue, hnewValue]⟩
  exact presents_of_fields hproper (by simp [LookupRow.slots, Slot.required])
    (.cons hold (.cons hnew .nil))

theorem isSome_newName? {rule : StateRule}
    (h : rule.newName.isSome ∨ rule.newFlattenedName.isSome) : rule.newName?.isSome := by
  obtain ⟨old, new, copied, name, flattened⟩ := rule
  cases name <;> cases flattened <;> simp_all [StateRule.newName?]

theorem allKinded_getD {content : Option (Dict Literal)} (h : ∀ d ∈ content, AllKinded d) :
    AllKinded (content.getD .empty) := by
  cases content with
  | none => simp [AllKinded, Dict.empty]
  | some d => exact h d rfl

/-- A state that is valid where one is optional is null or a state map. -/
theorem null_or_stateMap {value : Json} (h : valid refers optionalStateSchema value) :
    value.hasType "null" ∨ refers (pointerTo "stateMap") value := by
  have hone : (Json.validEach refers [typeSchema "null", definedSchema "stateMap"] value).count
      true = 1 := by
    simpa [optionalStateSchema] using h
  simpa using Json.exists_valid_of_count hone

/-- Nothing is wrong with a valid state rule. -/
theorem describes_stateRule (hrefers : Refers refers) :
    Describes (valid refers stateRuleSchema.value) StateRule.Presented StateRule.Sound := by
  intro value hproper h
  obtain ⟨htype, ⟨holds, hnews, hcopied, hnames, hflattened⟩, hname⟩ : value.hasType "object" ∧
      (value.membersPass (some "oldState") (valid refers optionalStateSchema) ∧
        value.membersPass (some "newState") (valid refers optionalStateSchema) ∧
        value.membersPass (some "copiedState") (isArrayOf (Json.hasType "string")) ∧
        value.membersPass (some "newName") (Json.hasType "string") ∧
        value.membersPass (some "newFlattenedName") (refers (pointerTo "flattenRule"))) ∧
      (value.hasMember (some "newName") ∨ value.hasMember (some "newFlattenedName")) := by
    simpa [stateRuleSchema, Json.validEach, and_assoc] using h
  obtain ⟨members, rfl⟩ := Json.exists_object_of_hasType htype
  -- the states may be null, which stands for one that is missing
  obtain ⟨old, hold, holdKinded⟩ :=
    hrefers.stateMap.nullable (fun _ => null_or_stateMap) hproper holds
  obtain ⟨new, hnew, hnewKinded⟩ :=
    hrefers.stateMap.nullable (fun _ => null_or_stateMap) hproper hnews
  obtain ⟨copied, hcopied, -⟩ :=
    describes_text.list.defaulted (List.forall_mem_nil _) hproper hcopied
  obtain ⟨name, hnewName, -, hisName⟩ := describes_text.optional hproper hnames
  obtain ⟨flattened, hnewFlattened, -, hisFlattened⟩ :=
    hrefers.flattenedName.optional hproper hflattened
  -- one of the names has to be there, whichever it is
  have hnamed : name.isSome ∨ flattened.isSome := by
    rw [hisName, hisFlattened]
    exact hname.imp Json.isSome_field Json.isSome_field
  refine ⟨⟨old, new, copied, name, flattened⟩, ?_, isSome_newName? hnamed,
    allKinded_getD holdKinded, allKinded_getD hnewKinded⟩
  exact presents_of_fields hproper (by simp [StateRule.slots, Slot.defaulted, Slot.optional])
    (.cons hold (.cons hnew (.cons hcopied (.cons hnewName (.cons hnewFlattened .nil)))))

/-! ## Documents -/

/-- The names of the lookup tables that the properties of blocks refer to. -/
def lookupsNamed (value : Json) : List String :=
  ((value.field "remappedPropertyValues").elim [] Json.members).flatMap fun block =>
    block.2.members.filterMap fun property => property.2.asText?

/-- The names of the lookup tables that there are. -/
def lookupsThere (value : Json) : List Quotation :=
  ((value.field "remappedPropertyValuesIndex").elim [] Json.members).map (·.1)

/-- The names that references give are among those that the value of the document names. -/
theorem mem_lookupsNamed {value : Json} {references : Dict (Dict String)}
    (h : (Slot.section "remappedPropertyValues" (WritesDict TextWritten) references).Holds
      (value.field "remappedPropertyValues")) :
    ∀ pair ∈ references.entries, ∀ reference ∈ pair.2.entries,
      reference.2 ∈ lookupsNamed value := by
  intro pair hpair reference hreference
  cases hfield : value.field "remappedPropertyValues" with
  | none =>
    rw [hfield] at h
    obtain rfl : references = .empty := h
    exact absurd hpair List.not_mem_nil
  | some blocks =>
    rw [hfield] at h
    -- go down from the blocks to the text of the reference
    have hblocks : WritesDict (WritesDict TextWritten) references blocks := h
    obtain ⟨block, hblock, -, hproperties⟩ := hblocks.exists_member hpair
    obtain ⟨property, hproperty, -, htext⟩ := hproperties.exists_member hreference
    have hread : property.2.asText? = some reference.2 := reads_text htext
    rw [lookupsNamed, hfield]
    exact List.mem_flatMap.2 ⟨block, hblock, List.mem_filterMap.2 ⟨property, hproperty, hread⟩⟩

/-- A lookup table that the value of the document has is one of the document. -/
theorem mem_keys_of_mem_lookupsThere {value : Json} {lookups : Dict (List LookupRow)}
    (h : (Slot.section "remappedPropertyValuesIndex" (WritesList LookupRow.Presented)
      lookups).Holds (value.field "remappedPropertyValuesIndex"))
    {name : String} (hname : some name ∈ lookupsThere value) : name ∈ lookups.keys := by
  obtain ⟨member, hmember, hnamed⟩ := List.mem_map.1 hname
  cases hfield : value.field "remappedPropertyValuesIndex" with
  | none =>
    rw [hfield] at hmember
    exact absurd hmember List.not_mem_nil
  | some tables =>
    rw [hfield] at h hmember
    have hwritten : WritesDict (WritesList LookupRow.Presented) lookups tables := h
    obtain ⟨pair, hpair, hkey, -⟩ := hwritten.exists_entry hmember
    obtain rfl : pair.1 = name := Option.some.inj (hkey.symm.trans hnamed)
    exact List.mem_map_of_mem hpair

/-- What a section writes, which may be missing. -/
theorem exists_section {α : Type} {test : Json → Bool} {Writes : α → Json → Prop} {P : α → Prop}
    (h : Describes test Writes P) {name : String} {value : Json} (hproper : value.isProper)
    (hpass : value.membersPass (some name) (isObjectOf test)) :
    ∃ d, (Slot.section name Writes d).Holds (value.field name) ∧ ∀ pair ∈ d.entries, P pair.2 :=
  h.dict.defaulted (List.forall_mem_nil _) hproper hpass

/-- A valid value whose references lead to tables presents a document that nothing is wrong
with. -/
theorem exists_sound_document (hrefers : Refers refers) {value : Json} (hproper : value.isProper)
    (h : valid refers jsonSchema.value value)
    (hlookups : ∀ name ∈ lookupsNamed value, some name ∈ lookupsThere value) :
    ∃ document : RuleDocument, document.Presented value ∧ document.Sound := by
  -- what the schema asks of an object, member by member
  obtain ⟨htype, ⟨hmajor, hminor, hpatch, hrevision⟩, hmajors, hminors, hpatches, hrevisions,
      hlookup, hstates, hids, hflattened, hadded, hremoved, hvalues, hrenamed⟩ :
      value.hasType "object" ∧
      (value.hasMember (some "maxVersionMajor") ∧ value.hasMember (some "maxVersionMinor") ∧
        value.hasMember (some "maxVersionPatch") ∧ value.hasMember (some "maxVersionRevision")) ∧
      value.membersPass (some "maxVersionMajor") (refers (pointerTo "versionComponent")) ∧
      value.membersPass (some "maxVersionMinor") (refers (pointerTo "versionComponent")) ∧
      value.membersPass (some "maxVersionPatch") (refers (pointerTo "versionComponent")) ∧
      value.membersPass (some "maxVersionRevision") (refers (pointerTo "versionComponent")) ∧
      value.membersPass (some "remappedPropertyValuesIndex")
        (isObjectOf (isArrayOf (valid refers rowSchema.value))) ∧
      value.membersPass (some "remappedStates")
        (isObjectOf (isArrayOf (valid refers stateRuleSchema.value))) ∧
      value.membersPass (some "renamedIds") (isObjectOf (Json.hasType "string")) ∧
      value.membersPass (some "flattenedProperties")
        (isObjectOf (refers (pointerTo "flattenRule"))) ∧
      value.membersPass (some "addedProperties") (isObjectOf (refers (pointerTo "stateMap"))) ∧
      value.membersPass (some "removedProperties")
        (isObjectOf (isArrayOf (Json.hasType "string"))) ∧
      value.membersPass (some "remappedPropertyValues")
        (isObjectOf (isObjectOf (Json.hasType "string"))) ∧
      value.membersPass (some "renamedProperties")
        (isObjectOf (isObjectOf (Json.hasType "string"))) := by
    simpa [jsonSchema, sectionSchemas, and_assoc] using h
  obtain ⟨members, rfl⟩ := Json.exists_object_of_hasType htype
  -- the four numbers have to be there, and each of the sections may be missing
  obtain ⟨major, hmajor, -⟩ := hrefers.component.required hproper hmajor hmajors
  obtain ⟨minor, hminor, -⟩ := hrefers.component.required hproper hminor hminors
  obtain ⟨patch, hpatch, -⟩ := hrefers.component.required hproper hpatch hpatches
  obtain ⟨revision, hrevision, -⟩ := hrefers.component.required hproper hrevision hrevisions
  obtain ⟨lookups, hlookup, hchanges⟩ :=
    exists_section (describes_row hrefers).list hproper hlookup
  obtain ⟨states, hstates, hsound⟩ :=
    exists_section (describes_stateRule hrefers).list hproper hstates
  obtain ⟨ids, hids, -⟩ := exists_section describes_text hproper hids
  obtain ⟨flattened, hflattened, -⟩ := exists_section hrefers.flattenedName hproper hflattened
  obtain ⟨added, hadded, hkinded⟩ := exists_section hrefers.stateMap hproper hadded
  obtain ⟨removed, hremoved, -⟩ := exists_section describes_text.list hproper hremoved
  obtain ⟨references, hreferences, -⟩ := exists_section describes_text.dict hproper hvalues
  obtain ⟨renamed, hrenamed, -⟩ := exists_section describes_text.dict hproper hrenamed
  let document : RuleDocument := ⟨⟨major, minor, patch, revision⟩, lookups, states, ids, flattened,
    added, removed, references, renamed⟩
  refine ⟨document, ?_, hchanges, hsound, hkinded, ?_⟩
  · -- these are all the fields of a document
    have hnames : (document.slots.map Slot.name).Nodup := by
      rw [document.names_slots]
      decide
    refine presents_of_fields hproper hnames
      (.cons hmajor (.cons hminor (.cons hpatch (.cons hrevision ?_))))
    exact .cons hlookup (.cons hstates (.cons hids (.cons hflattened (.cons hadded
      (.cons hremoved (.cons hreferences (.cons hrenamed .nil)))))))
  · -- a name that a property refers to is found by hypothesis
    intro pair hpair reference hreference
    have hnamed := mem_lookupsNamed hreferences pair hpair reference hreference
    rw [table?, Option.isSome_map]
    exact (Entries.isSome_get? _ _).2 (mem_keys_of_mem_lookupsThere hlookup (hlookups _ hnamed))

/-! ## Definitions -/

theorem definitions_jsonSchema : jsonSchema.value.definitions =
    [(some "versionComponent", integerSchema 0 255), (some "valueLit", valueSchema.value),
      (some "stateMap", (mapSchema (.line (definedSchema "valueLit"))).value),
      (some "flattenRule", flattenedNameSchema.value)] := by
  simp [jsonSchema, Json.definitions, definitionSchemas]

theorem mem_definitions_iff {name : String} {schema : Json} :
    (some name, schema) ∈ jsonSchema.value.definitions ↔
      name = "versionComponent" ∧ schema = integerSchema 0 255 ∨
      name = "valueLit" ∧ schema = valueSchema.value ∨
      name = "stateMap" ∧ schema = (mapSchema (.line (definedSchema "valueLit"))).value ∨
      name = "flattenRule" ∧ schema = flattenedNameSchema.value := by
  rw [definitions_jsonSchema]
  simp only [List.mem_cons, Prod.mk.injEq, Option.some.injEq, List.not_mem_nil, or_false]

theorem mem_definitions_valueLit :
    (some "valueLit", valueSchema.value) ∈ jsonSchema.value.definitions :=
  mem_definitions_iff.2 (.inr (.inl ⟨rfl, rfl⟩))

/-- If references lead to the definitions, each of these describes what the sections take it for. -/
theorem refers_of_resolves (h : jsonSchema.value.Resolves refers) : Refers refers := by
  have hvalue : Describes (refers (pointerTo "valueLit")) Literal.Presented (·.value?.isSome) := by
    rw [h mem_definitions_valueLit]
    exact describes_value
  refine ⟨?_, hvalue, ?_, ?_⟩
  · rw [h (mem_definitions_iff.2 (.inl ⟨rfl, rfl⟩)), valid_integerSchema]
    exact describes_uint8
  · rw [h (mem_definitions_iff.2 (.inr (.inr (.inl ⟨rfl, rfl⟩)))), valid_mapSchema,
      Json.Outline.value, valid_definedSchema]
    exact hvalue.dict
  · rw [h (mem_definitions_iff.2 (.inr (.inr (.inr ⟨rfl, rfl⟩))))]
    exact describes_flattenedName

/-- Under the pointer to a definition is what it describes, at the next depth. -/
theorem refersTo_definition {name : String} {schema : Json}
    (h : (some name, schema) ∈ jsonSchema.value.definitions) (depth : Nat) :
    jsonSchema.value.refersTo (depth + 1) (pointerTo name) =
      valid (jsonSchema.value.refersTo depth) schema := by
  have hfound : jsonSchema.value.definition? (pointerTo name) = some schema := by
    obtain ⟨rfl, rfl⟩ | ⟨rfl, rfl⟩ | ⟨rfl, rfl⟩ | ⟨rfl, rfl⟩ := mem_definitions_iff.1 h
    all_goals simp [Json.definition?, definitions_jsonSchema, pointerTo]
  funext value
  rw [Json.refersTo, hfound, Option.any_some]

/-- Literals are described without references. -/
theorem valid_valueSchema (refers refers' : String → Json → Bool) :
    valid refers valueSchema.value = valid refers' valueSchema.value := by
  funext value
  simp [valueSchema, literalSchema, Json.validEach]

theorem valid_flattenedNameSchema (refers refers' : String → Json → Bool) :
    valid refers flattenedNameSchema.value = valid refers' flattenedNameSchema.value := by
  funext value
  simp [flattenedNameSchema]

/-- The references lead to the definitions: only state maps refer to another one, which refers to
none. -/
theorem resolves_references : jsonSchema.value.Resolves jsonSchema.value.references := by
  have hdepth : jsonSchema.value.references = jsonSchema.value.refersTo 4 := by
    rw [Json.references, definitions_jsonSchema]
    rfl
  have hvalue : jsonSchema.value.refersTo 3 (pointerTo "valueLit") =
      jsonSchema.value.refersTo 4 (pointerTo "valueLit") := by
    rw [refersTo_definition mem_definitions_valueLit,
      refersTo_definition mem_definitions_valueLit, valid_valueSchema]
  intro name schema h
  rw [hdepth, refersTo_definition h]
  obtain ⟨-, rfl⟩ | ⟨-, rfl⟩ | ⟨-, rfl⟩ | ⟨-, rfl⟩ := mem_definitions_iff.1 h
  · rw [valid_integerSchema, valid_integerSchema]
  · exact valid_valueSchema _ _
  · rw [valid_mapSchema, valid_mapSchema, Json.Outline.value, valid_definedSchema,
      valid_definedSchema, hvalue]
  · exact valid_flattenedNameSchema _ _

/-! ## Texts -/

theorem parse?_jsonSchemaText : Json.parse? jsonSchemaText = some jsonSchema.value := by
  refine Json.parse?_eq_some_iff.2 (Json.Outline.spelledBy_print ?_)
  decide +kernel

/-- A text whose value is valid under the schema, and refers to lookup tables that are there, is
read as a document and compiles. -/
theorem valid_texts_compile :
    Json.parse? jsonSchemaText = some jsonSchema.value ∧
      ∀ (value : Json) (text : String), value.isProper → jsonSchema.value.validates value →
        (∀ name ∈ lookupsNamed value, some name ∈ lookupsThere value) →
        value.SpelledBy text.toList →
        ∃ (document : RuleDocument) (schema : Schema), read? text = some document ∧
          document.compile = .ok schema ∧ (Schema.read text).value = .ok schema := by
  refine ⟨parse?_jsonSchemaText, fun value text hproper hvalid hlookups htext => ?_⟩
  obtain ⟨document, hpresented, hsound⟩ :=
    exists_sound_document (refers_of_resolves resolves_references) hproper hvalid hlookups
  have hread : read? text = some document := read?_of_presented hpresented htext
  have hcompile : document.compile = .ok ⟨document.version, document.steps, none⟩ :=
    compile_eq_ok_iff.2 ⟨hsound, rfl⟩
  refine ⟨document, _, hread, hcompile, ?_⟩
  rw [Schema.read, hread]
  simp only [Schema.ofDocument, hcompile]
  rfl

/-- A document with a member that the schema does not speak of, a state that is null and a reference
to a table. -/
def torchValue : Json :=
  .record [("maxVersionMajor", .int 1), ("maxVersionMinor", .int 20), ("maxVersionPatch", .int 0),
    ("maxVersionRevision", .int 255),
    ("note", .array [.number ⟨false, 1, [5], none⟩, .int (-2), .null]),
    ("remappedPropertyValues", .record [("x:torch", .record [("on", .text "lit")])]),
    ("remappedPropertyValuesIndex", .record [("lit", .array [
      .record [("old", .record [("byte", .int 0)]),
        ("new", .record [("string", .text "Off")])]])]),
    ("remappedStates", .record [("x:Torch", .array [
      .record [("oldState", .null),
        ("newState", .record [("age", .record [("int", .int (-1))])]),
        ("newName", .text "x:lamp")]])])]

/-- Its text without white space compiles. -/
theorem valid_text_of_torch_compiles :
    torchValue.isProper ∧ jsonSchema.value.validates torchValue ∧
      ∃ (document : RuleDocument) (schema : Schema), read? torchValue.compact = some document ∧
        document.compile = .ok schema ∧
        (Schema.read torchValue.compact).value = .ok schema := by
  have hproper : torchValue.isProper := by decide +kernel
  have hvalid : jsonSchema.value.validates torchValue := by decide +kernel
  have hlookups : ∀ name ∈ lookupsNamed torchValue, some name ∈ lookupsThere torchValue := by
    decide +kernel
  have htext : torchValue.SpelledBy torchValue.compact.toList :=
    Json.spelledBy_print .compact (by decide +kernel)
  exact ⟨hproper, hvalid, valid_texts_compile.2 _ _ hproper hvalid hlookups htext⟩

end RuleDocument
end BlockData
