import BlockData.Text.Blank

/-!
# Versions of the block-state format

A version has four components of one byte each.  It is written with dots, packed
into one 32-bit word, and ordered component by component.

* `Version.read` accepts three or four components; a missing revision is zero;
* `Version.text` writes all four;
* versions are ordered as the numbers that their components are the digits of, in
  base 256 (`Version.lt_iff_number_lt`).
-/

namespace BlockData

/-- A version of the block-state format. -/
structure Version where
  major : UInt8
  minor : UInt8
  patch : UInt8
  revision : UInt8
  deriving DecidableEq, Repr, Inhabited

namespace Version

/-- The version before which there is none. -/
def zero : Version := ⟨0, 0, 0, 0⟩

/-! ## Packed form -/

/-- The four components in one word, the major one in the highest byte. -/
def packed (v : Version) : UInt32 :=
  v.major.toUInt32 <<< 24 ||| v.minor.toUInt32 <<< 16 ||| v.patch.toUInt32 <<< 8 |||
    v.revision.toUInt32

/-- The version whose components are the bytes of a word. -/
def ofPacked (word : UInt32) : Version :=
  ⟨(word >>> 24).toUInt8, (word >>> 16).toUInt8, (word >>> 8).toUInt8, word.toUInt8⟩

/-- The packed word as a block state stores it, in a signed field. -/
def stored (v : Version) : Int32 :=
  v.packed.toInt32

/-- The version in a signed field, which is read by its bits. -/
def ofStored (field : Int32) : Version :=
  ofPacked field.toUInt32

/-! ## Order -/

/-- Component by component, the major one first. -/
instance : LT Version where
  lt a b :=
    a.major < b.major ∨ a.major = b.major ∧
      (a.minor < b.minor ∨ a.minor = b.minor ∧
        (a.patch < b.patch ∨ a.patch = b.patch ∧ a.revision < b.revision))

instance : LE Version where
  le a b := ¬ b < a

instance (a b : Version) : Decidable (a < b) :=
  inferInstanceAs (Decidable (_ ∨ _))

instance (a b : Version) : Decidable (a ≤ b) :=
  inferInstanceAs (Decidable (¬ _))

/-- The number that the components are the digits of, in base 256. -/
def number (v : Version) : Nat :=
  ((v.major.toNat * 256 + v.minor.toNat) * 256 + v.patch.toNat) * 256 + v.revision.toNat

theorem lt_iff_number_lt (a b : Version) : a < b ↔ a.number < b.number := by
  have := a.minor.toNat_lt
  have := a.patch.toNat_lt
  have := a.revision.toNat_lt
  have := b.minor.toNat_lt
  have := b.patch.toNat_lt
  have := b.revision.toNat_lt
  show (_ ∨ _ ∧ (_ ∨ _ ∧ (_ ∨ _ ∧ _))) ↔ _
  simp only [number, UInt8.lt_iff_toNat_lt, ← UInt8.toNat_inj]
  omega

theorem le_iff_number_le (a b : Version) : a ≤ b ↔ a.number ≤ b.number := by
  show ¬ b < a ↔ _
  rw [lt_iff_number_lt]
  omega

theorem le_total (a b : Version) : a ≤ b ∨ b ≤ a := by
  simp only [le_iff_number_le]
  omega

theorem le_trans {a b c : Version} (hab : a ≤ b) (hbc : b ≤ c) : a ≤ c := by
  simp only [le_iff_number_le] at *
  omega

theorem not_le {a b : Version} : ¬ a ≤ b ↔ b < a := by
  rw [le_iff_number_le, lt_iff_number_lt]
  omega

/-! ## Dotted form -/

/-- Why a text is no version. -/
inductive ReadError where
  /-- There are not three or four components. -/
  | componentCount (text : String)
  /-- A component is no number below 256; the first such one is named. -/
  | invalidComponent (text component : String)
  deriving DecidableEq, Repr

/-- The message that reports the error. -/
def ReadError.message : ReadError → String
  | .componentCount text => s!"version '{text}' must have 3 or 4 dot-separated components"
  | .invalidComponent text component =>
    s!"version '{text}' has invalid component '{component}'"

/-- The number written by decimal digits. -/
def decimalValue (digits : List Char) : Nat :=
  digits.foldl (fun n c => 10 * n + (c.toNat - '0'.toNat)) 0

/-- A component is one or more decimal digits, of value below 256; a plus sign may
stand before it. -/
def component? (part : List Char) : Option UInt8 :=
  let digits := if part.head? = some '+' then part.tail else part
  if digits ≠ [] ∧ digits.all Char.isDigit ∧ decimalValue digits < 256 then
    some (UInt8.ofNat (decimalValue digits))
  else
    none

/-- A component of the version written `text`. -/
def component (text : String) (part : List Char) : Except ReadError UInt8 :=
  match component? part with
  | some value => .ok value
  | none => .error (.invalidComponent text (String.ofList part))

/-- Read a version in dotted form.  White space around it does not count. -/
def read (text : String) : Except ReadError Version :=
  match Text.splitAt '.' (Text.trim text.toList) with
  | [major, minor, patch] => do
    return ⟨← component text major, ← component text minor, ← component text patch, 0⟩
  | [major, minor, patch, revision] => do
    return ⟨← component text major, ← component text minor, ← component text patch,
      ← component text revision⟩
  | _ => .error (.componentCount text)

/-- A version in dotted form, with all four components. -/
def text (v : Version) : String :=
  let major := v.major.toNat
  let minor := v.minor.toNat
  let patch := v.patch.toNat
  let revision := v.revision.toNat
  s!"{major}.{minor}.{patch}.{revision}"

end Version
end BlockData
