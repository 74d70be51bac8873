import BlockData.Json.Decoder
import BlockData.Proofs.Json.Parser

/-!
# Numbers and lists are decoded as they are encoded

An integer of fixed width is found again in the JSON integer of its value, and a list in the
array of its items.  An array of integers and an object with one member have the depth and
the strings of what is in them.
-/

namespace BlockData.Json

/-! ## Integers -/

theorem asIntBetween?_int {low high n : Int} (hlow : low ≤ n) (hhigh : n ≤ high) :
    (int n).asIntBetween? low high = some n := by
  simp [int, asIntBetween?, Number.Numeral.toInt?_ofInt, hlow, hhigh]

theorem asInt8?_int (n : Int8) : (int n.toInt).asInt8? = some n := by
  have hlow := n.le_toInt
  have hhigh := n.toInt_lt
  rw [asInt8?, asIntBetween?_int (by omega) (by omega), Option.map_some, Int8.ofInt_toInt]

theorem asInt16?_int (n : Int16) : (int n.toInt).asInt16? = some n := by
  have hlow := n.le_toInt
  have hhigh := n.toInt_lt
  rw [asInt16?, asIntBetween?_int (by omega) (by omega), Option.map_some, Int16.ofInt_toInt]

theorem asInt32?_int (n : Int32) : (int n.toInt).asInt32? = some n := by
  have hlow := n.le_toInt
  have hhigh := n.toInt_lt
  rw [asInt32?, asIntBetween?_int (by omega) (by omega), Option.map_some, Int32.ofInt_toInt]

theorem asInt64?_int (n : Int64) : (int n.toInt).asInt64? = some n := by
  have hlow := n.le_toInt
  have hhigh := n.toInt_lt
  rw [asInt64?, asIntBetween?_int (by omega) (by omega), Option.map_some, Int64.ofInt_toInt]

theorem asUInt8?_int (n : UInt8) : (int n.toNat).asUInt8? = some n := by
  have hhigh := n.toNat_lt
  rw [asUInt8?, asIntBetween?_int (by omega) (by omega), Option.map_some, Int.toNat_natCast,
    UInt8.ofNat_toNat]

/-! ## Lists -/

variable {α : Type}

/-- Items that are found again one by one are found again in their array. -/
theorem asList?_map {item : α → Json} {item? : Json → Option α}
    (h : ∀ a, item? (item a) = some a) (items : List α) :
    (Json.array (items.map item)).asList? item? = some items := by
  rw [asList?]
  induction items with
  | nil => rfl
  | cons a items ih => simp [h, ih]

/-- An array of integers holds no strings. -/
theorem itemsHaveTexts_map_int (value : α → Int) (items : List α) :
    itemsHaveTexts (items.map fun a => int (value a)) := by
  induction items with
  | nil => rfl
  | cons a items ih => simpa [itemsHaveTexts, int, hasTexts] using ih

/-- Nothing is open inside an array of integers. -/
theorem itemsDepth_map_int (value : α → Int) (items : List α) :
    itemsDepth (items.map fun a => int (value a)) = 0 := by
  induction items with
  | nil => rfl
  | cons a items ih => simpa [itemsDepth, int, depth] using ih

/-! ## Objects with one member -/

theorem hasTexts_record_singleton (name : String) (value : Json) :
    (record [(name, value)]).hasTexts = value.hasTexts := by
  simp [record, hasTexts, membersHaveTexts]

theorem depth_record_singleton (name : String) (value : Json) :
    (record [(name, value)]).depth = value.depth + 1 := by
  simp [record, depth, membersDepth]

end BlockData.Json
