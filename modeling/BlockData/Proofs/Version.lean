import BlockData.Version

/-!
# Packed versions

The packed word of a version is the number of the version, so that versions correspond to words,
and to the signed fields that block states keep.

* `ofPacked_packed` and `packed_ofPacked` say that nothing is lost on the way to a word or back,
  `ofStored_stored` and `stored_ofStored` the same of fields;
* words are ordered as versions are (`packed_lt_iff`), and fields as well, except that the negative
  ones come after all others (`ofStored_lt_iff`).
-/

namespace BlockData.Version

/-- The packed word is the number of the version. -/
theorem toNat_packed (v : Version) : v.packed.toNat = v.number := by
  have hmajor := v.major.toNat_lt
  have hminor := v.minor.toNat_lt
  have hpatch := v.patch.toNat_lt
  have hrevision := v.revision.toNat_lt
  have hwords : v.packed.toNat =
      v.major.toNat <<< 24 ||| v.minor.toNat <<< 16 ||| v.patch.toNat <<< 8 |||
        v.revision.toNat := by
    simp only [packed, UInt32.toNat_or, UInt32.toNat_shiftLeft, UInt8.toNat_toUInt32,
      Nat.shiftLeft_eq]
    have h24 : (24 : UInt32).toNat % 32 = 24 := rfl
    have h16 : (16 : UInt32).toNat % 32 = 16 := rfl
    have h8 : (8 : UInt32).toNat % 32 = 8 := rfl
    rw [h24, h16, h8, Nat.mod_eq_of_lt (by omega), Nat.mod_eq_of_lt (by omega),
      Nat.mod_eq_of_lt (by omega)]
  -- each component lies below the bits of those before it
  have htwo : v.major.toNat <<< 24 ||| v.minor.toNat <<< 16 =
      (v.major.toNat * 256 + v.minor.toNat) <<< 16 := by
    rw [← Nat.shiftLeft_add_eq_or_of_lt (by rw [Nat.shiftLeft_eq]; omega)]
    simp only [Nat.shiftLeft_eq]
    omega
  have hthree : (v.major.toNat * 256 + v.minor.toNat) <<< 16 ||| v.patch.toNat <<< 8 =
      ((v.major.toNat * 256 + v.minor.toNat) * 256 + v.patch.toNat) <<< 8 := by
    rw [← Nat.shiftLeft_add_eq_or_of_lt (by rw [Nat.shiftLeft_eq]; omega)]
    simp only [Nat.shiftLeft_eq]
    omega
  rw [hwords, htwo, hthree, ← Nat.shiftLeft_add_eq_or_of_lt (by omega), Nat.shiftLeft_eq]
  unfold number
  omega

/-- The version whose components are the bytes of a word has the word as its number. -/
theorem number_ofPacked (word : UInt32) : (ofPacked word).number = word.toNat := by
  have hword := word.toNat_lt
  have hmajor : (word >>> 24).toUInt8.toNat = word.toNat / 2 ^ 24 % 256 := by
    simp [Nat.shiftRight_eq_div_pow]
  have hminor : (word >>> 16).toUInt8.toNat = word.toNat / 2 ^ 16 % 256 := by
    simp [Nat.shiftRight_eq_div_pow]
  have hpatch : (word >>> 8).toUInt8.toNat = word.toNat / 2 ^ 8 % 256 := by
    simp [Nat.shiftRight_eq_div_pow]
  have hrevision : word.toUInt8.toNat = word.toNat % 256 := UInt32.toNat_toUInt8 word
  simp only [ofPacked, number, hmajor, hminor, hpatch, hrevision]
  omega

/-- A version is known by its number. -/
theorem eq_of_number_eq {a b : Version} (h : a.number = b.number) : a = b := by
  rcases a with ⟨amajor, aminor, apatch, arevision⟩
  rcases b with ⟨bmajor, bminor, bpatch, brevision⟩
  have := aminor.toNat_lt
  have := apatch.toNat_lt
  have := arevision.toNat_lt
  have := bminor.toNat_lt
  have := bpatch.toNat_lt
  have := brevision.toNat_lt
  simp only [number] at h
  simp only [mk.injEq, ← UInt8.toNat_inj]
  omega

theorem le_refl (v : Version) : v ≤ v :=
  (le_iff_number_le v v).2 (Nat.le_refl _)

theorem le_antisymm {a b : Version} (hab : a ≤ b) (hba : b ≤ a) : a = b := by
  rw [le_iff_number_le] at hab hba
  exact eq_of_number_eq (Nat.le_antisymm hab hba)

/-- The later one of two versions. -/
instance : Max Version := maxOfLe

theorem max_eq_right {a b : Version} (h : a ≤ b) : max a b = b :=
  if_pos h

theorem max_eq_left {a b : Version} (h : b ≤ a) : max a b = a := by
  by_cases hab : a ≤ b
  · rw [max_eq_right hab, le_antisymm hab h]
  · exact if_neg hab

/-- No version is beyond the one whose components are all as great as they can be. -/
theorem le_greatest (v : Version) : v ≤ ⟨255, 255, 255, 255⟩ := by
  have hbound : v.number < 2 ^ 32 := by
    rw [← toNat_packed]
    exact v.packed.toNat_lt
  have hgreatest : number ⟨255, 255, 255, 255⟩ = 2 ^ 32 - 1 := rfl
  rw [le_iff_number_le, hgreatest]
  omega

/-! ## Components -/

/-- The components of a version. -/
def components (v : Version) : List UInt8 :=
  [v.major, v.minor, v.patch, v.revision]

/-- Versions are in the lexicographic order of their components. -/
theorem components_lt_iff {a b : Version} : a.components < b.components ↔ a < b := by
  simp only [components, List.cons_lt_cons_iff, List.not_lt_nil, and_false, or_false]
  rfl

/-! ## Words -/

/-- The bytes of the packed word are the components. -/
theorem ofPacked_packed (v : Version) : ofPacked v.packed = v :=
  eq_of_number_eq (by rw [number_ofPacked, toNat_packed])

/-- The components of a word make up the word. -/
theorem packed_ofPacked (word : UInt32) : (ofPacked word).packed = word := by
  rw [← UInt32.toNat_inj, toNat_packed, number_ofPacked]

theorem packed_lt_iff {a b : Version} : a.packed < b.packed ↔ a < b := by
  rw [UInt32.lt_iff_toNat_lt, toNat_packed, toNat_packed, lt_iff_number_lt]

theorem packed_le_iff {a b : Version} : a.packed ≤ b.packed ↔ a ≤ b := by
  rw [UInt32.le_iff_toNat_le, toNat_packed, toNat_packed, le_iff_number_le]

/-! ## Signed fields -/

/-- The word of a version that is read from a signed field has the bits of the field. -/
theorem packed_ofStored (field : Int32) : (ofStored field).packed = field.toUInt32 := by
  rw [ofStored, packed_ofPacked]

theorem toUInt32_stored (v : Version) : v.stored.toUInt32 = v.packed := by
  rw [stored, UInt32.toUInt32_toInt32]

/-- A version is found again in its signed field. -/
theorem ofStored_stored (v : Version) : ofStored v.stored = v := by
  rw [ofStored, toUInt32_stored, ofPacked_packed]

/-- A signed field is found again from the version in it. -/
theorem stored_ofStored (field : Int32) : (ofStored field).stored = field := by
  rw [stored, packed_ofStored, Int32.toInt32_toUInt32]

/-- A field that is written is the one that was read exactly if the version is. -/
theorem stored_eq_iff {v : Version} {field : Int32} : v.stored = field ↔ v = ofStored field := by
  constructor
  · rintro rfl
    exact (ofStored_stored v).symm
  · rintro rfl
    exact stored_ofStored field

/-- The number of the version in a field is the field's remainder by 2 to the power of 32. -/
theorem number_ofStored (field : Int32) :
    ((ofStored field).number : Int) = field.toInt % 0x100000000 := by
  have hbits : (ofStored field).number = field.toBitVec.toNat := by
    rw [← toNat_packed, packed_ofStored]
    rfl
  have hsigned : field.toInt = field.toBitVec.toInt := rfl
  have hbound := field.toBitVec.isLt
  rw [hbits, hsigned, BitVec.toInt_eq_toNat_cond]
  split <;> omega

/-- Fields of one sign are ordered as the versions in them are, and the negative ones come after
all others. -/
theorem ofStored_lt_iff {x y : Int32} :
    ofStored x < ofStored y ↔ (0 ≤ x ∧ y < 0) ∨ ((x < 0 ↔ y < 0) ∧ x < y) := by
  have hx := number_ofStored x
  have hy := number_ofStored y
  have hxleast := x.le_toInt
  have hyleast := y.le_toInt
  have hxbound := x.toInt_lt
  have hybound := y.toInt_lt
  have hzero : (0 : Int32).toInt = 0 := rfl
  rw [lt_iff_number_lt, Int32.le_iff_toInt_le, Int32.lt_iff_toInt_lt, Int32.lt_iff_toInt_lt,
    Int32.lt_iff_toInt_lt, hzero]
  -- the remainder moves the negative numbers behind all others and keeps their order
  omega

end BlockData.Version
