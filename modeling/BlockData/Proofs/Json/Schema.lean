import BlockData.Json.Decoder
import Mathlib.Algebra.Order.Ring.Rat
import Mathlib.Data.Nat.Cast.Order.Ring
import Mathlib.Tactic.NormNum

/-!
# Validity under JSON schemas

A JSON schema is a JSON object whose members are keywords, each of which asks something of the
values that are valid under the schema.  The keywords here are those that the schema of rule
documents uses, with the meaning that draft 7 of JSON Schema gives them.  Other members, such as a
title, ask for nothing.

* `valid` says which values are valid under a schema, where `refers` says which are under the
  schemas that it refers to;
* `validates` looks the references up in the definitions of the schema, and should be so that they
  lead there (`Resolves`);
* `isProper` holds of the values that a schema is meant for.
-/

namespace BlockData

/-! ## Numbers -/

namespace Number.Numeral

/-- The number that a numeral writes. -/
def value (n : Numeral) : ℚ :=
  (if n.negative then -1 else 1) *
    (n.whole + ofDigits n.fraction / 10 ^ n.fraction.length) * 10 ^ n.exponent.getD 0

/-- Whether a numeral has no fraction, no exponent and no sign in front of zero. -/
def isPlain (n : Numeral) : Bool :=
  n.fraction.isEmpty && n.exponent.isNone && !(n.negative && n.whole == 0)

theorem value_ofInt (i : Int) : (ofInt i).value = i := by
  have habs : (if i < 0 then -1 else 1) * (i.natAbs : ℚ) = i := by
    rw [Nat.cast_natAbs, Int.cast_abs]
    split
    · next hneg => rw [abs_of_neg (by exact_mod_cast hneg), neg_one_mul, neg_neg]
    · next hpos => rw [abs_of_nonneg (by exact_mod_cast not_lt.1 hpos), one_mul]
  simpa [value, ofInt, ofDigits] using habs

/-- A plain numeral is that of an integer. -/
theorem exists_eq_ofInt {n : Numeral} (h : n.isPlain) : ∃ i : Int, n = ofInt i := by
  obtain ⟨negative, whole, fraction, exponent⟩ := n
  simp only [isPlain, Bool.and_eq_true, List.isEmpty_iff, Option.isNone_iff_eq_none,
    Bool.not_eq_true', Bool.and_eq_false_iff, beq_eq_false_iff_ne] at h
  obtain ⟨⟨rfl, rfl⟩, hzero⟩ := h
  cases negative with
  | false => exact ⟨whole, by simp [ofInt]⟩
  | true =>
    have hwhole : whole ≠ 0 := by simpa using hzero
    exact ⟨-whole, by simp [ofInt]; omega⟩

end Number.Numeral

open Number (Numeral)

namespace Json

/-! ## Parts of a value -/

/-- The items of an array. -/
def items : Json → List Json
  | .array items => items
  | _ => []

/-- The members of an object. -/
def members : Json → List (Quotation × Json)
  | .object members => members
  | _ => []

@[simp] theorem members_object (members : List (Quotation × Json)) :
    (Json.object members).members = members := rfl

/-- The numeral of a number. -/
def numeral? : Json → Option Numeral
  | .number n => some n
  | _ => none

/-- The value of the first member with a name. -/
def field (name : String) (value : Json) : Field :=
  (value.members.find? fun member => member.1 == some name).map (·.2)

@[simp] theorem field_object_nil (name : String) : (Json.object []).field name = none := rfl

@[simp] theorem field_object_cons (name : String) (member : Quotation × Json)
    (members : List (Quotation × Json)) :
    (Json.object (member :: members)).field name =
      if member.1 = some name then some member.2 else (Json.object members).field name := by
  by_cases h : member.1 = some name <;> simp [field, h]

/-! ## Keywords -/

/-- Whether a value is of a type. -/
def hasType (type : String) : Json → Bool
  | .null => type == "null"
  | .bool _ => type == "boolean"
  | .number n => type == "number" || (type == "integer" && n.value.isInt)
  | .string _ => type == "string"
  | .array _ => type == "array"
  | .object _ => type == "object"

/-- Whether a value, if it is an object, has a member with a name. -/
def hasMember (name : Quotation) : Json → Bool
  | .object members => (members.map (·.1)).contains name
  | _ => true

/-- Whether the members with a name pass a test. -/
def membersPass (name : Quotation) (test : Json → Bool) (value : Json) : Bool :=
  value.members.all fun member => member.1 != name || test member.2

/-- The names that a schema gives under `properties`. -/
def propertyNames (schema : Json) : List Quotation :=
  ((schema.field "properties").elim [] members).map (·.1)

mutual

/-- Whether a value is valid under a schema.  A schema that refers to another one says nothing
else. -/
def valid (refers : String → Json → Bool) : Json → Json → Bool
  | .bool b, _ => b
  | .object keywords, value =>
    match field "$ref" (.object keywords) with
    | some (.string (some pointer)) => refers pointer value
    | _ => validAll refers (propertyNames (.object keywords)) keywords value
  | _, _ => false

/-- Whether a value is as each of the keywords asks, of which `known` are the names under
`properties`. -/
def validAll (refers : String → Json → Bool) (known : List Quotation) :
    List (Quotation × Json) → Json → Bool
  | [], _ => true
  | (keyword, argument) :: rest, value =>
    (match keyword, argument with
      | some "type", .string (some type) => value.hasType type
      | some "minimum", .number bound => value.numeral?.all (bound.value ≤ ·.value)
      | some "maximum", .number bound => value.numeral?.all (·.value ≤ bound.value)
      | some "items", schema => value.items.all (valid refers schema)
      | some "required", .array names => names.all fun
          | .string name => value.hasMember name
          | _ => true
      | some "properties", .object schemas => validMembers refers schemas value
      | some "additionalProperties", schema =>
        value.members.all fun member => known.contains member.1 || valid refers schema member.2
      | some "oneOf", .array schemas => (validEach refers schemas value).count true == 1
      | some "anyOf", .array schemas => (validEach refers schemas value).contains true
      | _, _ => true) && validAll refers known rest value

/-- Whether the members of a value are valid under the schemas for their names. -/
def validMembers (refers : String → Json → Bool) : List (Quotation × Json) → Json → Bool
  | [], _ => true
  | (name, schema) :: rest, value =>
    value.membersPass name (valid refers schema) && validMembers refers rest value

/-- Under which schemas a value is valid. -/
def validEach (refers : String → Json → Bool) : List Json → Json → List Bool
  | [], _ => []
  | schema :: rest, value => valid refers schema value :: validEach refers rest value

end

theorem validEach_eq_map (refers : String → Json → Bool) (schemas : List Json) (value : Json) :
    validEach refers schemas value = schemas.map (valid refers · value) := by
  induction schemas with
  | nil => rw [validEach, List.map_nil]
  | cons schema rest ih => rw [validEach, ih, List.map_cons]

/-- A value that is valid under exactly one of some schemas is valid under one. -/
theorem exists_valid_of_count {refers : String → Json → Bool} {schemas : List Json} {value : Json}
    (h : (validEach refers schemas value).count true = 1) :
    ∃ schema ∈ schemas, valid refers schema value := by
  have htrue : true ∈ validEach refers schemas value := List.count_pos_iff.1 (by omega)
  rw [validEach_eq_map] at htrue
  exact List.mem_map.1 htrue

/-! ## References -/

/-- The pointer to a definition. -/
def pointerTo (name : String) : String :=
  "#/definitions/" ++ name

/-- The definitions of a schema. -/
def definitions (root : Json) : List (Quotation × Json) :=
  (root.field "definitions").elim [] members

/-- The definition that a pointer refers to. -/
def definition? (root : Json) (pointer : String) : Option Json :=
  (root.definitions.find? fun member => member.1.map pointerTo == some pointer).map (·.2)

/-- References lead to the definitions of a schema: what is valid under the pointer to a definition
is what is valid under the definition. -/
def Resolves (root : Json) (refers : String → Json → Bool) : Prop :=
  ∀ ⦃name : String⦄ ⦃schema : Json⦄, (some name, schema) ∈ root.definitions →
    refers (pointerTo name) = valid refers schema

/-- Whether a value is valid under the definition that a pointer refers to, where definitions
refer to each other fewer than `depth` times in a row. -/
def refersTo (root : Json) : Nat → String → Json → Bool
  | 0, _, _ => false
  | depth + 1, pointer, value =>
    (root.definition? pointer).any fun schema => valid (refersTo root depth) schema value

/-- Whether a value is valid under the definition that a pointer refers to.  If none leads back to
itself, no more definitions follow each other than there are. -/
def references (root : Json) : String → Json → Bool :=
  root.refersTo root.definitions.length

/-- Whether a value is valid under a schema with its definitions. -/
def validates (root value : Json) : Bool :=
  valid root.references root value

/-! ## Proper values -/

mutual

/-- Whether a value is what a schema is meant for: its strings are texts, the names in its objects
are distinct, and its integers are written plainly. -/
def isProper : Json → Bool
  | .null | .bool _ => true
  | .number n => !n.value.isInt || n.isPlain
  | .string content => content.isSome
  | .array items => itemsAreProper items
  | .object members => decide (members.map (·.1)).Nodup && membersAreProper members

/-- Whether all items are proper. -/
def itemsAreProper : List Json → Bool
  | [] => true
  | item :: items => isProper item && itemsAreProper items

/-- Whether all members are proper, with texts for names. -/
def membersAreProper : List (Quotation × Json) → Bool
  | [] => true
  | (name, value) :: members => name.isSome && isProper value && membersAreProper members

end

theorem itemsAreProper_iff {items : List Json} :
    itemsAreProper items ↔ ∀ item ∈ items, item.isProper := by
  induction items with
  | nil => simp [itemsAreProper]
  | cons item items ih => simp [itemsAreProper, ih]

theorem membersAreProper_iff {members : List (Quotation × Json)} :
    membersAreProper members ↔ ∀ member ∈ members, member.1.isSome ∧ member.2.isProper := by
  induction members with
  | nil => simp [membersAreProper]
  | cons member members ih => simp [membersAreProper, ih, and_assoc]

theorem isProper_array_iff {items : List Json} :
    (Json.array items).isProper ↔ ∀ item ∈ items, item.isProper := by
  rw [isProper, itemsAreProper_iff]

theorem isProper_object_iff {members : List (Quotation × Json)} :
    (Json.object members).isProper ↔
      (members.map (·.1)).Nodup ∧ ∀ member ∈ members, member.1.isSome ∧ member.2.isProper := by
  rw [isProper, Bool.and_eq_true, decide_eq_true_iff, membersAreProper_iff]

end Json
end BlockData
