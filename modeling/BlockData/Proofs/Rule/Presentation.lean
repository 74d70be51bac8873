import BlockData.Proofs.Json.Decoder
import BlockData.Proofs.Json.Record
import BlockData.Proofs.Json.Spelling
import BlockData.Schema.Compile

/-!
# Rule documents in all their presentations

A rule document and each of the records inside it may be presented as an object or as an array,
each in its own way, and a value may be spelled with white space and escapes.  Whichever text is
chosen, it is read as the document that it presents, and compiles to the same schema.

* `RuleDocument.Presented` is the relation of documents to the values that present them, built
  from one such relation for each record;
* `RuleDocument.read_presentation` is the result for texts.
-/

namespace BlockData

open Json (Slot Reads Presents WritesList WritesDict required_of_holds defaulted_of_holds
  optional_of_holds fields?_of_presents)

/-! ## Texts and numbers -/

/-- A text is written as itself. -/
def TextWritten (s : String) (value : Json) : Prop :=
  value = .text s

/-- An integer of fixed width is written as the integer. -/
def IntWritten {α : Type} (toInt : α → Int) (n : α) (value : Json) : Prop :=
  value = .int (toInt n)

theorem reads_text : Reads Json.asText? TextWritten := by
  rintro s _ rfl
  rfl

theorem reads_int8 : Reads Json.asInt8? (IntWritten Int8.toInt) := by
  rintro n _ rfl
  exact Json.asInt8?_int n

theorem reads_int32 : Reads Json.asInt32? (IntWritten Int32.toInt) := by
  rintro n _ rfl
  exact Json.asInt32?_int n

theorem reads_uint8 : Reads Json.asUInt8? (IntWritten fun n : UInt8 => n.toNat) := by
  rintro n _ rfl
  exact Json.asUInt8?_int n

/-! ## Literals -/

/-- The fields of a literal. -/
def Literal.slots (literal : Literal) : List Slot :=
  [.optional "int" (IntWritten Int32.toInt) literal.int,
    .optional "byte" (IntWritten Int8.toInt) literal.byte,
    .optional "string" TextWritten literal.string]

/-- The values that present a literal. -/
def Literal.Presented (literal : Literal) : Json → Prop :=
  Presents literal.slots

theorem reads_literal : Reads Literal.ofJson? Literal.Presented := by
  intro literal value h
  obtain ⟨fields, hfields, hholds⟩ := fields?_of_presents (by simp [Literal.slots, Slot.optional]) h
  obtain _ | ⟨hint, _ | ⟨hbyte, _ | ⟨hstring, _ | _⟩⟩⟩ := hholds
  have hint := optional_of_holds reads_int32 rfl hint
  have hbyte := optional_of_holds reads_int8 rfl hbyte
  have hstring := optional_of_holds reads_text rfl hstring
  simp only [Literal.slots, List.map_cons, List.map_nil, Slot.optional] at hfields
  simp [Literal.ofJson?, hfields, hint, hbyte, hstring]

/-! ## Rows -/

/-- The fields of a row. -/
def LookupRow.slots (row : LookupRow) : List Slot :=
  [.required "old" Literal.Presented row.old, .required "new" Literal.Presented row.new]

/-- The values that present a row. -/
def LookupRow.Presented (row : LookupRow) : Json → Prop :=
  Presents row.slots

theorem reads_lookupRow : Reads LookupRow.ofJson? LookupRow.Presented := by
  intro row value h
  obtain ⟨fields, hfields, hholds⟩ :=
    fields?_of_presents (by simp [LookupRow.slots, Slot.required]) h
  obtain _ | ⟨hold, _ | ⟨hnew, _ | _⟩⟩ := hholds
  have hold := required_of_holds reads_literal hold
  have hnew := required_of_holds reads_literal hnew
  simp only [LookupRow.slots, List.map_cons, List.map_nil, Slot.required] at hfields
  simp [LookupRow.ofJson?, hfields, hold, hnew]

/-! ## Flattened names -/

/-- The fields of a flattened name. -/
def FlattenedName.slots (name : FlattenedName) : List Slot :=
  [.required "prefix" TextWritten name.head,
    .required "flattenedProperty" TextWritten name.property,
    .required "suffix" TextWritten name.tail,
    .optional "flattenedValueRemaps" (WritesDict TextWritten) name.replacements]

/-- The values that present a flattened name. -/
def FlattenedName.Presented (name : FlattenedName) : Json → Prop :=
  Presents name.slots

theorem reads_flattenedName : Reads FlattenedName.ofJson? FlattenedName.Presented := by
  intro name value h
  obtain ⟨fields, hfields, hholds⟩ :=
    fields?_of_presents (by simp [FlattenedName.slots, Slot.required, Slot.optional]) h
  obtain _ | ⟨hhead, _ | ⟨hproperty, _ | ⟨htail, _ | ⟨hreplacements, _ | _⟩⟩⟩⟩ := hholds
  have hhead := required_of_holds reads_text hhead
  have hproperty := required_of_holds reads_text hproperty
  have htail := required_of_holds reads_text htail
  have hreplacements := optional_of_holds reads_text.dict rfl hreplacements
  simp only [FlattenedName.slots, List.map_cons, List.map_nil, Slot.required, Slot.optional]
    at hfields
  simp [FlattenedName.ofJson?, hfields, hhead, hproperty, htail, hreplacements]

/-! ## State rules -/

/-- The fields of a state rule. -/
def StateRule.slots (rule : StateRule) : List Slot :=
  [.optional "oldState" (WritesDict Literal.Presented) rule.oldState,
    .optional "newState" (WritesDict Literal.Presented) rule.newState,
    .defaulted "copiedState" [] (WritesList TextWritten) rule.copiedState,
    .optional "newName" TextWritten rule.newName,
    .optional "newFlattenedName" FlattenedName.Presented rule.newFlattenedName]

/-- The values that present a state rule. -/
def StateRule.Presented (rule : StateRule) : Json → Prop :=
  Presents rule.slots

theorem reads_stateRule : Reads StateRule.ofJson? StateRule.Presented := by
  intro rule value h
  obtain ⟨fields, hfields, hholds⟩ :=
    fields?_of_presents (by simp [StateRule.slots, Slot.defaulted, Slot.optional]) h
  obtain _ | ⟨hold, _ | ⟨hnew, _ | ⟨hcopied, _ | ⟨hname, _ | ⟨hflattened, _ | _⟩⟩⟩⟩⟩ := hholds
  have hold := optional_of_holds reads_literal.dict rfl hold
  have hnew := optional_of_holds reads_literal.dict rfl hnew
  have hcopied := defaulted_of_holds reads_text.list hcopied
  have hname := optional_of_holds reads_text rfl hname
  have hflattened := optional_of_holds reads_flattenedName rfl hflattened
  simp only [StateRule.slots, List.map_cons, List.map_nil, Slot.defaulted, Slot.optional]
    at hfields
  simp [StateRule.ofJson?, hfields, hold, hnew, hcopied, hname, hflattened]

/-! ## Documents -/

/-- A dictionary that is empty if it is missing. -/
def Json.Slot.section {α : Type} (name : String) (Writes : α → Json → Prop) (d : Dict α) : Slot :=
  .defaulted name .empty (WritesDict Writes) d

/-- One of the four numbers of a version. -/
def Json.Slot.component (name : String) (n : UInt8) : Slot :=
  .required name (IntWritten fun n : UInt8 => n.toNat) n

/-- The fields of a document. -/
def RuleDocument.slots (document : RuleDocument) : List Slot :=
  [.component "maxVersionMajor" document.version.major,
    .component "maxVersionMinor" document.version.minor,
    .component "maxVersionPatch" document.version.patch,
    .component "maxVersionRevision" document.version.revision,
    .section "remappedPropertyValuesIndex" (WritesList LookupRow.Presented) document.lookups,
    .section "remappedStates" (WritesList StateRule.Presented) document.remappedStates,
    .section "renamedIds" TextWritten document.renamedIds,
    .section "flattenedProperties" FlattenedName.Presented document.flattenedProperties,
    .section "addedProperties" (WritesDict Literal.Presented) document.addedProperties,
    .section "removedProperties" (WritesList TextWritten) document.removedProperties,
    .section "remappedPropertyValues" (WritesDict TextWritten) document.remappedValues,
    .section "renamedProperties" (WritesDict TextWritten) document.renamedProperties]

/-- The values that present a document. -/
def RuleDocument.Presented (document : RuleDocument) : Json → Prop :=
  Presents document.slots

theorem RuleDocument.names_slots (document : RuleDocument) :
    document.slots.map Slot.name = fieldNames :=
  rfl

theorem reads_ruleDocument : Reads RuleDocument.ofJson? RuleDocument.Presented := by
  intro document value h
  have hnames : (document.slots.map Slot.name).Nodup := by
    rw [document.names_slots]
    decide
  obtain ⟨fields, hfields, hholds⟩ := fields?_of_presents hnames h
  rw [document.names_slots] at hfields
  -- the fields come in the order of the slots
  obtain _ | ⟨hmajor, _ | ⟨hminor, _ | ⟨hpatch, _ | ⟨hrevision, hsections⟩⟩⟩⟩ := hholds
  obtain _ | ⟨hlookups, _ | ⟨hstates, _ | ⟨hids, _ | ⟨hflattened, hsections⟩⟩⟩⟩ := hsections
  obtain _ | ⟨hadded, _ | ⟨hremoved, _ | ⟨hvalues, _ | ⟨hrenamed, _ | _⟩⟩⟩⟩ := hsections
  have hmajor := required_of_holds reads_uint8 hmajor
  have hminor := required_of_holds reads_uint8 hminor
  have hpatch := required_of_holds reads_uint8 hpatch
  have hrevision := required_of_holds reads_uint8 hrevision
  have hlookups := defaulted_of_holds reads_lookupRow.list.dict hlookups
  have hstates := defaulted_of_holds reads_stateRule.list.dict hstates
  have hids := defaulted_of_holds reads_text.dict hids
  have hflattened := defaulted_of_holds reads_flattenedName.dict hflattened
  have hadded := defaulted_of_holds reads_literal.dict.dict hadded
  have hremoved := defaulted_of_holds reads_text.list.dict hremoved
  have hvalues := defaulted_of_holds reads_text.dict.dict hvalues
  have hrenamed := defaulted_of_holds reads_text.dict.dict hrenamed
  unfold RuleDocument.ofJson? dictField?
  rw [hfields]
  simp only [Option.bind_eq_bind, Option.bind_some, hmajor, hminor, hpatch, hrevision, hlookups,
    hstates, hids, hflattened, hadded, hremoved, hvalues, hrenamed, Option.pure_def]

/-- Every text that spells a value that presents a document is read as the document. -/
theorem RuleDocument.read?_of_presented {document : RuleDocument} {value : Json} {text : String}
    (h : document.Presented value) (htext : value.SpelledBy text.toList) :
    RuleDocument.read? text = some document := by
  rw [RuleDocument.read?, Json.parse?_eq_some_iff.2 htext]
  exact reads_ruleDocument h

/-- Every text that presents a document is read as the document, with the order of its
dictionaries and lists, and all of them give the same schema. -/
theorem presentation_has_no_influence {document : RuleDocument} {value other : Json}
    {text otherText : String} (hvalue : document.Presented value)
    (htext : value.SpelledBy text.toList) (hother : document.Presented other)
    (hotherText : other.SpelledBy otherText.toList) :
    RuleDocument.read? text = some document ∧ Schema.read text = Schema.read otherText := by
  have hread : RuleDocument.read? text = some document :=
    RuleDocument.read?_of_presented hvalue htext
  have hread' : RuleDocument.read? otherText = some document :=
    RuleDocument.read?_of_presented hother hotherText
  refine ⟨hread, ?_⟩
  rw [Schema.read, Schema.read, hread, hread']

/-- A row with literals of two kinds. -/
def lampRow : LookupRow :=
  ⟨⟨some 1, none, none⟩, ⟨none, none, some "on"⟩⟩

/-- A document with this row. -/
def lampDocument : RuleDocument :=
  { RuleDocument.unchanged ⟨1, 2, 3, 4⟩ with lookups := .ofList [("lit", [lampRow])] }

/-- The document as an array, with arrays inside. -/
def lampArray : Json :=
  .array [.int 1, .int 2, .int 3, .int 4,
    .record [("lit", .array [.array [.array [.int 1], .array [.null, .null, .text "on"]]])]]

/-- The document as an object the wrong way round, and among its fields others: half of a
surrogate pair and a number beyond all bounds, both with one name. -/
def lampObject : Json :=
  .record [("x", .string none), ("x", .number ⟨false, 1, [], some 999⟩),
    ("remappedPropertyValuesIndex", .record [("lit", .array [
      .record [("new", .record [("string", .text "on")]), ("old", .array [.int 1])]])]),
    ("maxVersionRevision", .int 4), ("maxVersionPatch", .int 3), ("maxVersionMinor", .int 2),
    ("maxVersionMajor", .int 1)]

theorem presented_lampArray : lampDocument.Presented lampArray := by
  have hold : lampRow.old.Presented (.array [.int 1]) :=
    @Presents.array _ [_] 2 (.cons rfl (.cons rfl (.cons rfl .nil)))
  have hnew : lampRow.new.Presented (.array [.null, .null, .text "on"]) :=
    @Presents.array _ [_, _, _] 0 (.cons rfl (.cons rfl (.cons rfl .nil)))
  have hrow : lampRow.Presented (.array [.array [.int 1], .array [.null, .null, .text "on"]]) :=
    @Presents.array _ [_, _] 0 (.cons hold (.cons hnew .nil))
  refine @Presents.array _ [_, _, _, _, _] 7 ?_
  refine .cons rfl (.cons rfl (.cons rfl (.cons rfl (.cons ?_ ?_))))
  · exact ⟨_, rfl, .cons ⟨rfl, _, rfl, .cons hrow .nil⟩ .nil⟩
  · exact .cons rfl (.cons rfl (.cons rfl (.cons rfl (.cons rfl (.cons rfl (.cons rfl .nil))))))

theorem presented_lampObject : lampDocument.Presented lampObject := by
  -- an array may end before the fields that are missing
  have hold : lampRow.old.Presented (.array [.int 1]) :=
    @Presents.array _ [_] 2 (.cons rfl (.cons rfl (.cons rfl .nil)))
  have hnew : lampRow.new.Presented (.record [("string", .text "on")]) :=
    @Presents.object _ [none, none, some (.text "on")] _ []
      (.cons rfl (.cons rfl (.cons rfl .nil))) (by simp) (.refl _)
  have hrow : lampRow.Presented
      (.record [("new", .record [("string", .text "on")]), ("old", .array [.int 1])]) :=
    @Presents.object _ [some (.array [.int 1]), some (.record [("string", .text "on")])] _ []
      (.cons hold (.cons hnew .nil)) (by simp) (.swap _ _ _)
  let lookups : Json := .record [("lit", .array [
    .record [("new", .record [("string", .text "on")]), ("old", .array [.int 1])]])]
  refine @Presents.object _ [some (.int 1), some (.int 2), some (.int 3), some (.int 4),
    some lookups, none, none, none, none, none, none, none] _
    [(some "x", .number ⟨false, 1, [], some 999⟩), (some "x", .string none)] ?_ ?_ ?_
  · refine .cons rfl (.cons rfl (.cons rfl (.cons rfl (.cons ?_ ?_))))
    · exact ⟨_, rfl, .cons ⟨rfl, _, rfl, .cons hrow .nil⟩ .nil⟩
    · exact .cons rfl (.cons rfl (.cons rfl (.cons rfl (.cons rfl (.cons rfl (.cons rfl .nil))))))
  · rw [RuleDocument.names_slots]
    simp [RuleDocument.fieldNames]
  · exact (List.reverse_perm _).symm

/-- The array without white space. -/
def lampArrayText : String :=
  "[1,2,3,4,\x7b\"lit\":[[[1],[null,null,\"on\"]]]\x7d]"

/-- The object with white space and with an escape. -/
def lampObjectText : String :=
  " \x7b\"x\" : \"\\ud800\", \"x\":1e999,\n\"remappedPropertyValuesIndex\":" ++
  "\x7b\"lit\":[\x7b\"new\":\x7b\"string\":\"\\u006fn\"\x7d,\"old\":[1]\x7d]\x7d," ++
  "\"maxVersionRevision\":4,\"maxVersionPatch\":3,\"maxVersionMinor\":2,\"maxVersionMajor\":1\x7d\t"

/-- Both texts are read as the document and give one schema. -/
theorem presentation_of_lamp_has_no_influence :
    RuleDocument.read? lampObjectText = some lampDocument ∧
      Schema.read lampObjectText = Schema.read lampArrayText := by
  have hobject : lampObject.SpelledBy lampObjectText.toList := by decide +kernel
  have harray : lampArray.SpelledBy lampArrayText.toList := by decide +kernel
  exact presentation_has_no_influence presented_lampObject hobject presented_lampArray harray

end BlockData
