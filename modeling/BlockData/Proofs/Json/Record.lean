import BlockData.Json.Decoder
import BlockData.Json.Encoder
import BlockData.Proofs.Dict
import Mathlib.Data.List.Forall2

/-!
# Records in all their presentations

A record may be presented as an object, with its fields in any order and among members that do
not matter, or as an array of its fields.  A `Slot` is a field as one record fills it: what may
stand there, and whether it may be missing.  `Presents slots` is the set of values that present
a record with these slots, and whichever of them is chosen, the reader of fields finds a value
for each slot that may stand there, or nothing where it may be missing (`fields?_of_presents`).
-/

namespace BlockData.Json

variable {α : Type}

/-- What a reader makes of values that write `a` is `a`. -/
def Reads (value? : Json → Option α) (Writes : α → Json → Prop) : Prop :=
  ∀ ⦃a : α⦄ ⦃value : Json⦄, Writes a value → value? value = some a

/-! ## Lists and dictionaries -/

theorem mapM_of_forall₂ {β γ : Type} {f : β → Option γ} {items : List β} {values : List γ}
    (h : List.Forall₂ (fun item value => f item = some value) items values) :
    items.mapM f = some values := by
  induction h with
  | nil => rfl
  | cons hitem _ ih => simp [hitem, ih]

/-- A list is written as the array of what writes its items. -/
def WritesList (Writes : α → Json → Prop) (items : List α) (value : Json) : Prop :=
  ∃ values, value = .array values ∧ List.Forall₂ Writes items values

/-- A dictionary is written as the object of what writes its values, in its order. -/
def WritesDict (Writes : α → Json → Prop) (d : Dict α) (value : Json) : Prop :=
  ∃ members, value = .object members ∧
    List.Forall₂ (fun (key, a) (name, value) => name = some key ∧ Writes a value)
      d.entries members

variable {value? : Json → Option α} {Writes : α → Json → Prop}

theorem Reads.list (hreads : Reads value? Writes) : Reads (asList? value?) (WritesList Writes) := by
  rintro items _ ⟨values, rfl, hvalues⟩
  exact mapM_of_forall₂ (hvalues.flip.imp fun _ _ h => hreads h)

theorem Reads.dict (hreads : Reads value? Writes) : Reads (asDict? value?) (WritesDict Writes) := by
  rintro d _ ⟨members, rfl, hmembers⟩
  have hpairs : (Json.object members).asPairs? value? = some d.entries := by
    refine mapM_of_forall₂ (hmembers.flip.imp ?_)
    rintro ⟨name, value⟩ ⟨key, a⟩ ⟨rfl, ha⟩
    simp [hreads ha]
  rw [asDict?, hpairs, Option.map_some, Dict.ofList_entries]

/-! ## Slots -/

/-- A field as a record fills it. -/
structure Slot where
  /-- The name that it has in an object. -/
  name : String
  /-- The values that write what is in the field. -/
  Writes : Json → Prop
  /-- What is in the field is what a missing one stands for. -/
  Omissible : Prop

namespace Slot

/-- A field that must be there. -/
def required (name : String) (Writes : α → Json → Prop) (a : α) : Slot :=
  ⟨name, Writes a, False⟩

/-- A field that stands for a value of its own if it is missing. -/
def defaulted (name : String) (missing : α) (Writes : α → Json → Prop) (a : α) : Slot :=
  ⟨name, Writes a, a = missing⟩

/-- A field that may be missing or null. -/
def optional (name : String) (Writes : α → Json → Prop) (content : Option α) : Slot where
  name := name
  Writes value :=
    match content with
    | none => value = .null
    | some a => Writes a value
  Omissible := content = none

/-- What stands in a field may stand in the slot. -/
def Holds (slot : Slot) : Field → Prop
  | none => slot.Omissible
  | some value => slot.Writes value

end Slot

theorem required_of_holds {name : String} {a : α} {field : Field} (hreads : Reads value? Writes)
    (h : (Slot.required name Writes a).Holds field) : required value? field = some a := by
  cases field with
  | none => exact h.elim
  | some value => exact hreads h

theorem defaulted_of_holds {name : String} {missing a : α} {field : Field}
    (hreads : Reads value? Writes) (h : (Slot.defaulted name missing Writes a).Holds field) :
    defaulted missing value? field = some a := by
  cases field with
  | none =>
    obtain rfl : a = missing := h
    rfl
  | some value => exact hreads h

theorem optional_of_holds {name : String} {content : Option α} {field : Field}
    (hreads : Reads value? Writes) (hnull : value? .null = none)
    (h : (Slot.optional name Writes content).Holds field) :
    optional value? field = some content := by
  cases field with
  | none =>
    obtain rfl : content = none := h
    rfl
  | some value =>
    cases content with
    | none =>
      obtain rfl : value = .null := h
      rfl
    | some a =>
      have hread : value? value = some a := hreads h
      -- null is no value, so that it is not taken for none
      have hvalue : value ≠ .null := by
        rintro rfl
        simp [hnull] at hread
      simp [optional, hread]

/-! ## Records -/

/-- The members of the fields that are given. -/
def given : List Slot → List Field → List (Quotation × Json)
  | [], _ => []
  | _ :: _, [] => []
  | slot :: slots, some value :: fields => (some slot.name, value) :: given slots fields
  | _ :: slots, none :: fields => given slots fields

/-- The values that present a record. -/
inductive Presents (slots : List Slot) : Json → Prop where
  /-- An object: the fields in any order, and among them any members with other names. -/
  | object {fields : List Field} {members other : List (Quotation × Json)}
      (hfields : List.Forall₂ Slot.Holds slots fields)
      (hother : ∀ member ∈ other, ∃ name, member.1 = some name ∧ name ∉ slots.map Slot.name)
      (horder : members.Perm (given slots fields ++ other)) :
      Presents slots (.object members)
  /-- An array: the fields in order, of which the last ones may be missing. -/
  | array {items : List Json} {missing : Nat}
      (hfields : List.Forall₂ Slot.Holds slots (items.map some ++ List.replicate missing none)) :
      Presents slots (.array items)

theorem membersNamed_append (name : String) (first second : List (Quotation × Json)) :
    membersNamed name (first ++ second) = membersNamed name first ++ membersNamed name second :=
  List.filterMap_append

theorem membersNamed_eq_nil {name : String} {members : List (Quotation × Json)}
    (h : ∀ member ∈ members, member.1 ≠ some name) : membersNamed name members = [] := by
  rw [membersNamed, List.filterMap_eq_nil_iff]
  intro member hmember
  exact if_neg (h member hmember)

/-- The members that are given are named for their slots. -/
theorem name_of_mem_given {slots : List Slot} {fields : List Field} {member : Quotation × Json}
    (h : member ∈ given slots fields) : ∃ name ∈ slots.map Slot.name, member.1 = some name := by
  fun_induction given slots fields with
  | case1 | case2 => simp at h
  | case3 slot slots value fields ih =>
    rcases List.mem_cons.1 h with rfl | hrest
    · exact ⟨slot.name, by simp, rfl⟩
    · obtain ⟨name, hname, heq⟩ := ih hrest
      exact ⟨name, List.mem_cons_of_mem _ hname, heq⟩
  | case4 slot slots fields ih =>
    obtain ⟨name, hname, heq⟩ := ih h
    exact ⟨name, List.mem_cons_of_mem _ hname, heq⟩

/-- No field is found under a name that no slot has. -/
theorem membersNamed_given_of_notMem {name : String} {slots : List Slot} {fields : List Field}
    (h : name ∉ slots.map Slot.name) : membersNamed name (given slots fields) = [] := by
  apply membersNamed_eq_nil
  intro member hmember heq
  obtain ⟨other, hother, heq'⟩ := name_of_mem_given hmember
  obtain rfl : name = other := Option.some.inj (heq.symm.trans heq')
  exact h hother

/-- Each field is found among those that are given. -/
theorem membersNamed_given {slots : List Slot} {fields : List Field}
    (hnames : (slots.map Slot.name).Nodup) :
    ∀ pair ∈ slots.zip fields,
      membersNamed pair.1.name (given slots fields) = pair.2.toList := by
  fun_induction given slots fields with
  -- by whether the field is given
  | case1 | case2 => simp
  | case3 slot slots value fields ih =>
    obtain ⟨hslot, hrest⟩ := List.nodup_cons.1 hnames
    rintro pair hpair
    rcases List.mem_cons.1 hpair with rfl | htail
    · have hnone : membersNamed slot.name (given slots fields) = [] :=
        membersNamed_given_of_notMem hslot
      simpa [membersNamed] using hnone
    · have hne : slot.name ≠ pair.1.name := by
        rintro heq
        exact hslot (heq ▸ List.mem_map_of_mem (List.of_mem_zip htail).1)
      have htail' := ih hrest pair htail
      simpa [membersNamed, hne] using htail'
  | case4 slot slots fields ih =>
    obtain ⟨hslot, hrest⟩ := List.nodup_cons.1 hnames
    rintro pair hpair
    rcases List.mem_cons.1 hpair with rfl | htail
    · exact membersNamed_given_of_notMem hslot
    · exact ih hrest pair htail

/-- A field is given at most once if its members, in any order, are no more than one. -/
theorem fieldNamed?_of_perm {name : String} {members : List (Quotation × Json)} {field : Field}
    (h : (membersNamed name members).Perm field.toList) :
    fieldNamed? members name = some field := by
  unfold fieldNamed?
  cases field with
  | none => rw [List.perm_nil.1 h]
  | some value => rw [List.perm_singleton.1 h]

/-- However a record is presented, the reader of fields finds what each slot may hold. -/
theorem fields?_of_presents {slots : List Slot} {value : Json}
    (hnames : (slots.map Slot.name).Nodup) (h : Presents slots value) :
    ∃ fields, value.fields? (slots.map Slot.name) = some fields ∧
      List.Forall₂ Slot.Holds slots fields := by
  cases h with
  | @object fields members other hfields hother horder =>
    refine ⟨fields, ?_, hfields⟩
    have htexts : members.all (·.1.isSome) := by
      rw [List.all_eq_true]
      intro member hmember
      rcases List.mem_append.1 (horder.mem_iff.1 hmember) with hgiven | hmore
      · obtain ⟨name, -, heq⟩ := name_of_mem_given hgiven
        simp [heq]
      · obtain ⟨name, heq, -⟩ := hother member hmore
        simp [heq]
    -- among the members in any order, those with the name of a slot are its field
    have hfound : ∀ pair ∈ slots.zip fields, fieldNamed? members pair.1.name = some pair.2 := by
      intro pair hpair
      have hslot : pair.1.name ∈ slots.map Slot.name :=
        List.mem_map_of_mem (List.of_mem_zip hpair).1
      have hnone : membersNamed pair.1.name other = [] := by
        apply membersNamed_eq_nil
        intro member hmember heq
        obtain ⟨name, heq', hname⟩ := hother member hmember
        obtain rfl : pair.1.name = name := Option.some.inj (heq.symm.trans heq')
        exact hname hslot
      have hperm : (membersNamed pair.1.name members).Perm pair.2.toList := by
        have hmoved := horder.filterMap fun (name, value) =>
          if name = some pair.1.name then some value else none
        change List.Perm _ (membersNamed pair.1.name (given slots fields ++ other)) at hmoved
        rwa [membersNamed_append, membersNamed_given hnames pair hpair, hnone,
          List.append_nil] at hmoved
      exact fieldNamed?_of_perm hperm
    rw [fields?, if_pos htexts, List.mapM_map]
    exact mapM_of_forall₂ (List.forall₂_iff_zip.2 ⟨hfields.length_eq, fun hpair => hfound _ hpair⟩)
  | @array items missing hfields =>
    refine ⟨_, ?_, hfields⟩
    have hlength : slots.length = items.length + missing := by
      simpa using hfields.length_eq
    simp [fields?, hlength]

/-! ## Records as they are written -/

theorem given_append {slots slots' : List Slot} {fields fields' : List Field}
    (h : slots.length = fields.length) :
    given (slots ++ slots') (fields ++ fields') = given slots fields ++ given slots' fields' := by
  fun_induction given slots fields with
  | case1 fields =>
    obtain rfl := List.length_eq_zero_iff.1 h.symm
    rfl
  | case2 => simp at h
  | case3 slot slots value fields ih =>
    have hlength : slots.length = fields.length := Nat.succ.inj h
    simp [given, ih hlength]
  | case4 slot slots fields ih =>
    have hlength : slots.length = fields.length := Nat.succ.inj h
    simp [given, ih hlength]

theorem writesList_ofList {write : α → Json} (h : ∀ a, Writes a (write a)) (items : List α) :
    WritesList Writes items (ofList write items) := by
  refine ⟨_, rfl, ?_⟩
  rw [List.forall₂_map_right_iff]
  exact List.forall₂_same.2 fun a _ => h a

theorem writesDict_ofDict {write : α → Json} (h : ∀ a, Writes a (write a)) (d : Dict α) :
    WritesDict Writes d (ofDict write d) := by
  refine ⟨_, rfl, ?_⟩
  rw [Entries.mapValues, List.map_map, List.forall₂_map_right_iff]
  exact List.forall₂_same.2 fun entry _ => ⟨rfl, h entry.2⟩

/-- Members that fill slots, each in its turn. -/
def Fill (members : List (String × Json)) (slots : List Slot) : Prop :=
  ∃ fields, List.Forall₂ Slot.Holds slots fields ∧
    given slots fields = members.map fun (name, value) => (some name, value)

namespace Fill

/-- A slot is filled in front of others. -/
theorem cons {members members' : List (String × Json)} {slot : Slot} {slots : List Slot}
    (h : Fill members [slot]) (h' : Fill members' slots) :
    Fill (members ++ members') (slot :: slots) := by
  obtain ⟨fields, hfields, hgiven⟩ := h
  obtain ⟨fields', hfields', hgiven'⟩ := h'
  refine ⟨fields ++ fields', List.rel_append hfields hfields', ?_⟩
  have hboth := @given_append [slot] slots fields fields' hfields.length_eq
  rw [hgiven, hgiven'] at hboth
  rw [List.map_append]
  exact hboth

variable {name : String}

theorem member {a : α} {value : Json} (h : Writes a value) :
    Fill (member name value) [.required name Writes a] :=
  ⟨[some value], .cons h .nil, rfl⟩

theorem memberIfSome {write : α → Json} (h : ∀ a, Writes a (write a)) (content : Option α) :
    Fill (memberIfSome name write content) [.optional name Writes content] := by
  cases content with
  | none => exact ⟨[none], .cons rfl .nil, rfl⟩
  | some a => exact ⟨[some (write a)], .cons (h a) .nil, rfl⟩

theorem memberUnlessNil {write : α → Json} (h : ∀ a, Writes a (write a)) (items : List α) :
    Fill (memberUnlessNil name write items) [.defaulted name [] (WritesList Writes) items] := by
  unfold Json.memberUnlessNil
  split
  · next hempty => exact ⟨[none], .cons (List.isEmpty_iff.1 hempty) .nil, rfl⟩
  · exact ⟨[some (ofList write items)], .cons (writesList_ofList h items) .nil, rfl⟩

theorem memberUnlessEmpty {write : α → Json} (h : ∀ a, Writes a (write a)) (d : Dict α) :
    Fill (memberUnlessEmpty name write d) [.defaulted name .empty (WritesDict Writes) d] := by
  unfold Json.memberUnlessEmpty
  split
  · next hempty =>
    have hmissing : d = .empty := Dict.ext (List.isEmpty_iff.1 hempty)
    exact ⟨[none], .cons hmissing .nil, rfl⟩
  · exact ⟨[some (ofDict write d)], .cons (writesDict_ofDict h d) .nil, rfl⟩

end Fill

/-- A record is presented by the object of members that fill its slots. -/
theorem presents_record {slots : List Slot} {members : List (String × Json)}
    (h : Fill members slots) : Presents slots (record members) := by
  obtain ⟨fields, hfields, hgiven⟩ := h
  refine @Presents.object slots fields _ [] hfields (by simp) ?_
  rw [List.append_nil, hgiven]

end BlockData.Json
