import BlockData.Proofs.Json.Record
import BlockData.Proofs.Json.Schema
import Mathlib.Data.List.Nodup

/-!
# What valid values write

Whether a value is valid under a schema is a test.  `Describes test Writes P` says that each proper
value that passes the test writes something, and something with the property `P`.  Tests of items
give one of arrays, tests of members one of objects, and tests of the members with the names of its
slots say that an object presents a record (`presents_of_fields`).
-/

namespace BlockData.Json

variable {α : Type} {test : Json → Bool} {Writes : α → Json → Prop} {P : α → Prop}

/-- Whether a value is an array whose items pass a test. -/
def isArrayOf (test : Json → Bool) (value : Json) : Bool :=
  value.hasType "array" && value.items.all test

/-- Whether a value is an object whose members pass a test. -/
def isObjectOf (test : Json → Bool) (value : Json) : Bool :=
  value.hasType "object" && value.members.all fun member => test member.2

/-- Every proper value that passes a test writes something that has a property. -/
def Describes (test : Json → Bool) (Writes : α → Json → Prop) (P : α → Prop) : Prop :=
  ∀ ⦃value : Json⦄, value.isProper → test value → ∃ a, Writes a value ∧ P a

/-! ## Types -/

theorem exists_text_of_hasType {value : Json} (hproper : value.isProper)
    (h : value.hasType "string") : ∃ s, value = .text s := by
  cases value with
  | string content =>
    obtain ⟨s, rfl⟩ := Option.isSome_iff_exists.1 hproper
    exact ⟨s, rfl⟩
  | _ => simp [hasType] at h

/-- A proper integer is written as such, so that its numeral is that of the integer. -/
theorem exists_int_of_hasType {value : Json} (hproper : value.isProper)
    (h : value.hasType "integer") : ∃ i, value = .int i := by
  cases value with
  | number n =>
    have hint : n.value.isInt := by simpa [hasType] using h
    have hplain : n.isPlain := by simpa [isProper, hint] using hproper
    obtain ⟨i, rfl⟩ := Number.Numeral.exists_eq_ofInt hplain
    exact ⟨i, rfl⟩
  | _ => simp [hasType] at h

theorem exists_array_of_hasType {value : Json} (h : value.hasType "array") :
    ∃ items, value = .array items := by
  cases value with
  | array items => exact ⟨items, rfl⟩
  | _ => simp [hasType] at h

theorem exists_object_of_hasType {value : Json} (h : value.hasType "object") :
    ∃ members, value = .object members := by
  cases value with
  | object members => exact ⟨members, rfl⟩
  | _ => simp [hasType] at h

theorem eq_null_of_hasType {value : Json} (h : value.hasType "null") : value = .null := by
  cases value with
  | null => rfl
  | _ => simp [hasType] at h

/-! ## Lists and dictionaries -/

theorem exists_forall₂ {β : Type} {r : α → β → Prop} {items : List β}
    (h : ∀ item ∈ items, ∃ a, r a item) : ∃ values, List.Forall₂ r values items := by
  induction items with
  | nil => exact ⟨[], .nil⟩
  | cons item items ih =>
    obtain ⟨⟨a, ha⟩, hrest⟩ := List.forall_mem_cons.1 h
    obtain ⟨values, hvalues⟩ := ih hrest
    exact ⟨a :: values, .cons ha hvalues⟩

theorem exists_of_forall₂_of_mem {β : Type} {r : α → β → Prop} {values : List α} {items : List β}
    (h : List.Forall₂ r values items) {a : α} (ha : a ∈ values) : ∃ item ∈ items, r a item := by
  induction h with
  | nil => simp at ha
  | cons hfirst _ ih =>
    obtain rfl | hrest := List.mem_cons.1 ha
    · exact ⟨_, List.mem_cons_self, hfirst⟩
    · obtain ⟨item, hitem, hr⟩ := ih hrest
      exact ⟨item, List.mem_cons_of_mem _ hitem, hr⟩

/-- Each entry of a dictionary is written as a member. -/
theorem WritesDict.exists_member {d : Dict α} {value : Json} (h : WritesDict Writes d value)
    {pair : String × α} (hpair : pair ∈ d.entries) :
    ∃ member ∈ value.members, member.1 = some pair.1 ∧ Writes pair.2 member.2 := by
  obtain ⟨members, rfl, hmembers⟩ := h
  exact exists_of_forall₂_of_mem hmembers hpair

/-- Each member is what an entry of the dictionary is written as. -/
theorem WritesDict.exists_entry {d : Dict α} {value : Json} (h : WritesDict Writes d value)
    {member : Quotation × Json} (hmember : member ∈ value.members) :
    ∃ pair ∈ d.entries, member.1 = some pair.1 ∧ Writes pair.2 member.2 := by
  obtain ⟨members, rfl, hmembers⟩ := h
  exact exists_of_forall₂_of_mem hmembers.flip hmember

/-- An array whose items pass a test writes a list. -/
theorem Describes.list (h : Describes test Writes P) :
    Describes (isArrayOf test) (WritesList Writes) fun values => ∀ a ∈ values, P a := by
  intro value hproper hvalid
  obtain ⟨htype, hitems⟩ := Bool.and_eq_true_iff.1 hvalid
  obtain ⟨items, rfl⟩ := exists_array_of_hasType htype
  have hwritten : ∀ item ∈ items, ∃ a, P a ∧ Writes a item := by
    intro item hitem
    obtain ⟨a, ha, hP⟩ :=
      h (isProper_array_iff.1 hproper item hitem) (List.all_eq_true.1 hitems item hitem)
    exact ⟨a, hP, ha⟩
  obtain ⟨values, hvalues⟩ := exists_forall₂ hwritten
  obtain ⟨hP, hvalues⟩ := (List.forall₂_and_left _ _).1 hvalues
  exact ⟨values, ⟨items, rfl, hvalues⟩, hP⟩

/-- An object whose members pass a test writes a dictionary. -/
theorem Describes.dict (h : Describes test Writes P) :
    Describes (isObjectOf test) (WritesDict Writes) fun d => ∀ pair ∈ d.entries, P pair.2 := by
  intro value hproper hvalid
  obtain ⟨htype, hmembers⟩ := Bool.and_eq_true_iff.1 hvalid
  obtain ⟨members, rfl⟩ := exists_object_of_hasType htype
  obtain ⟨hnames, hall⟩ := isProper_object_iff.1 hproper
  have hwritten : ∀ member ∈ members, ∃ pair : String × α,
      P pair.2 ∧ member.1 = some pair.1 ∧ Writes pair.2 member.2 := by
    intro member hmember
    obtain ⟨hname, hvalue⟩ := hall member hmember
    obtain ⟨key, hkey⟩ := Option.isSome_iff_exists.1 hname
    obtain ⟨a, ha, hP⟩ := h hvalue (List.all_eq_true.1 hmembers member hmember)
    exact ⟨(key, a), hP, hkey, ha⟩
  obtain ⟨entries, hentries⟩ := exists_forall₂ hwritten
  obtain ⟨hP, hentries⟩ := (List.forall₂_and_left _ _).1 hentries
  -- the keys are the names of the members, and so distinct
  have hkeys : (Entries.keys entries).map some = members.map (·.1) := by
    rw [Entries.keys, List.map_map, ← List.forall₂_eq_eq_eq, List.forall₂_map_left_iff,
      List.forall₂_map_right_iff]
    exact hentries.imp fun _ _ hboth => hboth.1.symm
  have hdistinct : Entries.Distinct entries := List.Nodup.of_map some (hkeys ▸ hnames)
  exact ⟨⟨entries, hdistinct⟩, ⟨members, rfl, hentries⟩, hP⟩

/-! ## Fields -/

section Fields

variable {name : String} {value : Json}

theorem mem_of_field {v : Json} (h : value.field name = some v) :
    (some name, v) ∈ value.members := by
  obtain ⟨member, hfound, rfl⟩ := Option.map_eq_some_iff.1 h
  have hname : member.1 = some name := by simpa using List.find?_some hfound
  exact hname ▸ List.mem_of_find?_eq_some hfound

theorem isProper_of_field (hproper : value.isProper) {v : Json} (h : value.field name = some v) :
    v.isProper := by
  cases value with
  | object members => exact ((isProper_object_iff.1 hproper).2 _ (mem_of_field h)).2
  | _ => simp [field, members] at h

theorem pass_of_field (hpass : value.membersPass (some name) test) {v : Json}
    (h : value.field name = some v) : test v := by
  have hmember := List.all_eq_true.1 hpass _ (mem_of_field h)
  simpa using hmember

theorem isSome_field {members : List (Quotation × Json)}
    (h : (Json.object members).hasMember (some name)) :
    ((Json.object members).field name).isSome := by
  obtain ⟨member, hmember, hname⟩ : ∃ member ∈ members, member.1 = some name := by
    simpa [hasMember] using h
  rw [field, Option.isSome_map, List.find?_isSome]
  exact ⟨member, hmember, by simp [hname]⟩

end Fields

/-! ## Slots -/

section Slots

variable {name : String} {members : List (Quotation × Json)}

theorem Slot.holds_none {value : Json} (h : value.field name = none) :
    (Slot.optional name Writes none).Holds (value.field name) := by
  rw [h]
  rfl

theorem Slot.holds_some {value v : Json} {a : α} (h : value.field name = some v)
    (ha : Writes a v) : (Slot.optional name Writes (some a)).Holds (value.field name) := by
  rw [h]
  exact ha

/-- What a field that must be there writes. -/
theorem Describes.required (h : Describes test Writes P) (hproper : (Json.object members).isProper)
    (hmember : (Json.object members).hasMember (some name))
    (hpass : (Json.object members).membersPass (some name) test) :
    ∃ a, (Slot.required name Writes a).Holds ((Json.object members).field name) ∧ P a := by
  obtain ⟨v, hv⟩ := Option.isSome_iff_exists.1 (isSome_field hmember)
  obtain ⟨a, ha, hP⟩ := h (isProper_of_field hproper hv) (pass_of_field hpass hv)
  exact ⟨a, by rwa [hv], hP⟩

variable {value : Json}

/-- What a field writes that stands for something if it is missing. -/
theorem Describes.defaulted (h : Describes test Writes P) {missing : α} (hmissing : P missing)
    (hproper : value.isProper) (hpass : value.membersPass (some name) test) :
    ∃ a, (Slot.defaulted name missing Writes a).Holds (value.field name) ∧ P a := by
  cases hfield : value.field name with
  | none => exact ⟨missing, rfl, hmissing⟩
  | some v => exact h (isProper_of_field hproper hfield) (pass_of_field hpass hfield)

/-- What a field writes that may be missing. -/
theorem Describes.optional (h : Describes test Writes P) (hproper : value.isProper)
    (hpass : value.membersPass (some name) test) :
    ∃ content, (Slot.optional name Writes content).Holds (value.field name) ∧
      (∀ a ∈ content, P a) ∧ content.isSome = (value.field name).isSome := by
  cases hfield : value.field name with
  | none => exact ⟨none, rfl, by simp, rfl⟩
  | some v =>
    obtain ⟨a, ha, hP⟩ := h (isProper_of_field hproper hfield) (pass_of_field hpass hfield)
    exact ⟨some a, ha, by simpa using hP, rfl⟩

/-- What a field writes that may be missing or null. -/
theorem Describes.nullable (h : Describes test Writes P) {test' : Json → Bool}
    (htest : ∀ v, test' v → v.hasType "null" ∨ test v) (hproper : value.isProper)
    (hpass : value.membersPass (some name) test') :
    ∃ content, (Slot.optional name Writes content).Holds (value.field name) ∧
      ∀ a ∈ content, P a := by
  cases hfield : value.field name with
  | none => exact ⟨none, rfl, by simp⟩
  | some v =>
    obtain hnull | hv := htest v (pass_of_field hpass hfield)
    · exact ⟨none, eq_null_of_hasType hnull, by simp⟩
    · obtain ⟨a, ha, hP⟩ := h (isProper_of_field hproper hfield) hv
      exact ⟨some a, ha, by simpa using hP⟩

end Slots

/-! ## Records -/

/-- In an object with distinct names, the members with one name are its field. -/
theorem filter_name_eq {members : List (Quotation × Json)} (hnames : (members.map (·.1)).Nodup)
    (name : String) :
    members.filter (·.1 = some name) =
      ((Json.object members).field name).toList.map (some name, ·) := by
  induction members with
  | nil => rfl
  | cons member members ih =>
    obtain ⟨hfirst, hrest⟩ := List.nodup_cons.1 hnames
    by_cases hname : member.1 = some name
    · have hnone : members.filter (·.1 = some name) = [] := by
        refine List.filter_eq_nil_iff.2 fun other hother heq => ?_
        have hsame : other.1 = member.1 := by simpa [hname] using heq
        exact hfirst (List.mem_map.2 ⟨other, hother, hsame⟩)
      rw [List.filter_cons_of_pos (by simpa using hname), hnone, field_object_cons, if_pos hname,
        ← hname]
      rfl
    · rw [List.filter_cons_of_neg (by simpa using hname), field_object_cons, if_neg hname, ih hrest]

/-- The members of an object with distinct names are those that fill slots, and others. -/
theorem perm_given {slots : List Slot} {members : List (Quotation × Json)}
    (hmembers : (members.map (·.1)).Nodup) (hslots : (slots.map Slot.name).Nodup) :
    members.Perm
      (given slots (slots.map fun slot => (Json.object members).field slot.name) ++
        members.filter fun member => member.1 ∉ slots.map fun slot => some slot.name) := by
  induction slots with
  | nil => simp [given]
  | cons slot slots ih =>
    obtain ⟨hslot, hrest⟩ := List.nodup_cons.1 hslots
    let value := Json.object members
    let rest := given slots (slots.map fun slot => value.field slot.name)
    let others := members.filter fun member => member.1 ∉ slots.map fun slot => some slot.name
    have hgiven : given (slot :: slots) ((slot :: slots).map fun slot => value.field slot.name) =
        (value.field slot.name).toList.map (some slot.name, ·) ++ rest := by
      cases hfield : value.field slot.name <;> simp [given, hfield, rest]
    -- of the other members, those with the name of the first slot are its field
    have hfirst : others.filter (·.1 = some slot.name) =
        (value.field slot.name).toList.map (some slot.name, ·) := by
      rw [← filter_name_eq hmembers, List.filter_filter]
      refine List.filter_congr fun member _ => ?_
      by_cases hname : member.1 = some slot.name
      · have hnone : ∀ other ∈ slots, other.name ≠ slot.name :=
          fun other hother heq => hslot (List.mem_map.2 ⟨other, hother, heq⟩)
        simpa [hname] using hnone
      · simp [hname]
    have hothers : others.filter (fun member => !decide (member.1 = some slot.name)) =
        members.filter fun member =>
          member.1 ∉ (slot :: slots).map fun slot => some slot.name := by
      rw [List.filter_filter]
      refine List.filter_congr fun member _ => ?_
      simp
    have hsplit : others.Perm
        (others.filter (·.1 = some slot.name) ++
          others.filter fun member => !decide (member.1 = some slot.name)) :=
      (List.filter_append_perm _ others).symm
    rw [hfirst, hothers] at hsplit
    rw [hgiven, List.append_assoc]
    exact (ih hrest).trans ((hsplit.append_left rest).trans (List.perm_append_comm_assoc _ _ _))

/-- An object presents a record if what it has under the names of the slots may stand there. -/
theorem presents_of_fields {slots : List Slot} {members : List (Quotation × Json)}
    (hproper : (Json.object members).isProper) (hslots : (slots.map Slot.name).Nodup)
    (hholds : List.Forall₂ Slot.Holds slots
      (slots.map fun slot => (Json.object members).field slot.name)) :
    Presents slots (.object members) := by
  obtain ⟨hmembers, htexts⟩ := isProper_object_iff.1 hproper
  refine .object hholds (fun member hmember => ?_) (perm_given hmembers hslots)
  obtain ⟨hmem, hother⟩ := List.mem_filter.1 hmember
  obtain ⟨name, hname⟩ := Option.isSome_iff_exists.1 (htexts member hmem).1
  refine ⟨name, hname, fun hslots => ?_⟩
  obtain ⟨slot, hslot, rfl⟩ := List.mem_map.1 hslots
  have hmem : member.1 ∈ slots.map fun slot => some slot.name :=
    List.mem_map.2 ⟨slot, hslot, hname.symm⟩
  exact absurd hmem (by simpa using hother)

end BlockData.Json
