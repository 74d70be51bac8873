import BlockData.Proofs.Rule.Presentation

/-!
# Rule documents are read as they are written

The object that a document is written as presents it: each field is a member, or is left out
where that stands for what is in it.  Hence the text of a document is read as the document, the
difference between an absent dictionary and an empty one included, and a text that was written
is written again when it is read.
-/

namespace BlockData

open Json (Fill presents_record writesList_ofList writesDict_ofDict)

/-! ## Strings -/

namespace Json

/-- All strings in the values of members have a text. -/
def ValuesHaveTexts (members : List (String × Json)) : Prop :=
  ∀ member ∈ members, member.2.hasTexts

@[simp] theorem hasTexts_record {members : List (String × Json)} :
    (record members).hasTexts ↔ ValuesHaveTexts members := by
  rw [record, hasTexts]
  induction members with
  | nil => simp [membersHaveTexts, ValuesHaveTexts]
  | cons member members ih =>
    simp only [ValuesHaveTexts] at ih ⊢
    simp [membersHaveTexts, ih]

@[simp] theorem hasTexts_text (s : String) : (text s).hasTexts := by
  simp [text, hasTexts]

@[simp] theorem hasTexts_int (n : Int) : (int n).hasTexts := by
  simp [int, hasTexts]

variable {α : Type} {write : α → Json}

@[simp] theorem hasTexts_ofList (h : ∀ a, (write a).hasTexts) (items : List α) :
    (ofList write items).hasTexts := by
  rw [ofList, hasTexts]
  induction items with
  | nil => rfl
  | cons item items ih => simp [itemsHaveTexts, h item, ih]

@[simp] theorem hasTexts_ofDict (h : ∀ a, (write a).hasTexts) (d : Dict α) :
    (ofDict write d).hasTexts := by
  rw [ofDict, hasTexts_record]
  intro member hmember
  obtain ⟨entry, -, rfl⟩ := List.mem_map.1 hmember
  exact h entry.2

@[simp] theorem valuesHaveTexts_append {members members' : List (String × Json)} :
    ValuesHaveTexts (members ++ members') ↔
      ValuesHaveTexts members ∧ ValuesHaveTexts members' :=
  List.forall_mem_append

@[simp] theorem valuesHaveTexts_member (name : String) (value : Json) :
    ValuesHaveTexts (member name value) ↔ value.hasTexts := by
  simp [ValuesHaveTexts, member]

@[simp] theorem valuesHaveTexts_memberIfSome (name : String) (h : ∀ a, (write a).hasTexts)
    (content : Option α) : ValuesHaveTexts (memberIfSome name write content) := by
  cases content with
  | none => simp [ValuesHaveTexts, memberIfSome]
  | some a => simp [ValuesHaveTexts, memberIfSome, h a]

@[simp] theorem valuesHaveTexts_memberUnlessNil (name : String) (h : ∀ a, (write a).hasTexts)
    (items : List α) : ValuesHaveTexts (memberUnlessNil name write items) := by
  unfold memberUnlessNil
  split
  · simp [ValuesHaveTexts]
  · simp [ValuesHaveTexts, h]

@[simp] theorem valuesHaveTexts_memberUnlessEmpty (name : String) (h : ∀ a, (write a).hasTexts)
    (d : Dict α) : ValuesHaveTexts (memberUnlessEmpty name write d) := by
  unfold memberUnlessEmpty
  split
  · simp [ValuesHaveTexts]
  · simp [ValuesHaveTexts, h]

/-- The text of a value spells it. -/
theorem spelledBy_print (layout : Layout) {value : Json} (h : value.hasTexts) :
    value.SpelledBy (value.print layout).toList := by
  have hlex := @Token.lex_render layout value h [] (by simp)
  rw [List.append_nil] at hlex
  rw [spelledBy_iff_lex, print, String.toList_ofList, hlex]

end Json

@[simp] theorem Literal.hasTexts_toJson (literal : Literal) : literal.toJson.hasTexts := by
  simp [Literal.toJson]

@[simp] theorem LookupRow.hasTexts_toJson (row : LookupRow) : row.toJson.hasTexts := by
  simp [LookupRow.toJson, Json.ValuesHaveTexts]

@[simp] theorem FlattenedName.hasTexts_toJson (name : FlattenedName) :
    name.toJson.hasTexts := by
  simp [FlattenedName.toJson]

@[simp] theorem StateRule.hasTexts_toJson (rule : StateRule) : rule.toJson.hasTexts := by
  simp [StateRule.toJson]

theorem RuleDocument.hasTexts_toJson (document : RuleDocument) :
    document.toJson.hasTexts := by
  simp [RuleDocument.toJson]

/-! ## Records -/

theorem textWritten (s : String) : TextWritten s (.text s) :=
  rfl

theorem intWritten {α : Type} (toInt : α → Int) (n : α) : IntWritten toInt n (.int (toInt n)) :=
  rfl

theorem Literal.presented_toJson (literal : Literal) : literal.Presented literal.toJson := by
  rw [Literal.toJson, List.append_assoc]
  apply presents_record
  apply Fill.cons (.memberIfSome (intWritten Int32.toInt) _)
  apply Fill.cons (.memberIfSome (intWritten Int8.toInt) _)
  exact .memberIfSome textWritten _

theorem LookupRow.presented_toJson (row : LookupRow) : row.Presented row.toJson := by
  apply presents_record
  apply @Fill.cons [_] [_]
  · exact .member row.old.presented_toJson
  · exact .member row.new.presented_toJson

theorem FlattenedName.presented_toJson (name : FlattenedName) : name.Presented name.toJson := by
  simp only [FlattenedName.toJson, List.append_assoc]
  apply presents_record
  apply Fill.cons (.member (textWritten _))
  apply Fill.cons (.member (textWritten _))
  apply Fill.cons (.member (textWritten _))
  exact .memberIfSome (writesDict_ofDict textWritten) _

theorem StateRule.presented_toJson (rule : StateRule) : rule.Presented rule.toJson := by
  simp only [StateRule.toJson, List.append_assoc]
  apply presents_record
  apply Fill.cons (.memberIfSome (writesDict_ofDict Literal.presented_toJson) _)
  apply Fill.cons (.memberIfSome (writesDict_ofDict Literal.presented_toJson) _)
  apply Fill.cons (.memberUnlessNil textWritten _)
  apply Fill.cons (.memberIfSome textWritten _)
  exact .memberIfSome FlattenedName.presented_toJson _

/-! ## Documents -/

theorem RuleDocument.presented_toJson (document : RuleDocument) :
    document.Presented document.toJson := by
  simp only [RuleDocument.toJson, List.append_assoc]
  apply presents_record
  apply Fill.cons (.member (intWritten (fun n : UInt8 => n.toNat) _))
  apply Fill.cons (.member (intWritten (fun n : UInt8 => n.toNat) _))
  apply Fill.cons (.member (intWritten (fun n : UInt8 => n.toNat) _))
  apply Fill.cons (.member (intWritten (fun n : UInt8 => n.toNat) _))
  apply Fill.cons (.memberUnlessEmpty (writesList_ofList LookupRow.presented_toJson) _)
  apply Fill.cons (.memberUnlessEmpty (writesList_ofList StateRule.presented_toJson) _)
  apply Fill.cons (.memberUnlessEmpty textWritten _)
  apply Fill.cons (.memberUnlessEmpty FlattenedName.presented_toJson _)
  apply Fill.cons (.memberUnlessEmpty (writesDict_ofDict Literal.presented_toJson) _)
  apply Fill.cons (.memberUnlessEmpty (writesList_ofList textWritten) _)
  apply Fill.cons (.memberUnlessEmpty (writesDict_ofDict textWritten) _)
  exact .memberUnlessEmpty (writesDict_ofDict textWritten) _

/-- The text of a document spells its object. -/
theorem RuleDocument.spelledBy_text (document : RuleDocument) :
    document.toJson.SpelledBy document.text.toList :=
  Json.spelledBy_print .compact document.hasTexts_toJson

/-- A document is read from its text, and a text that was written from what was read is written
again. -/
theorem rule_document_round_trip :
    (∀ document : RuleDocument, RuleDocument.read? document.text = some document) ∧
      ∀ text : String,
        ((RuleDocument.read? text).map RuleDocument.text).bind
            (fun written => (RuleDocument.read? written).map RuleDocument.text) =
          (RuleDocument.read? text).map RuleDocument.text := by
  have hread : ∀ document : RuleDocument, RuleDocument.read? document.text = some document :=
    fun document =>
      RuleDocument.read?_of_presented document.presented_toJson document.spelledBy_text
  refine ⟨hread, ?_⟩
  intro text
  cases RuleDocument.read? text with
  | none => rfl
  | some document =>
    rw [Option.map_some, Option.bind_some, hread, Option.map_some]

end BlockData
