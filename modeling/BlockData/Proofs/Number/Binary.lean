import BlockData.Proofs.Number.Rounding

/-!
# Words and the numbers that they stand for

The fields of a word are its sign, its exponent and its fraction, and a number is packed into
them and unpacked again.  A number within a bound stays within it on the way, what is no `NaN`
does not become one, and a word has a numeral exactly if it stands for a finite number.
-/

namespace BlockData.Number

open Float.Model (UnpackedFloat)
open Float.Model.UnpackedFloat (unpackExponent unpackMantissa packComponents)

/-! ## Fields -/

theorem toNat_unpackExponent {spec : Float.Model.Format} (word : BitVec spec.numBits) :
    (unpackExponent word).toNat =
      word.toNat / 2 ^ spec.mantissaBitsWithoutImplicit % 2 ^ spec.exponentBits := by
  have hpos := spec.he
  have hwidth : spec.mantissaBitsWithoutImplicit + spec.exponentBits - 1 -
      spec.mantissaBitsWithoutImplicit + 1 = spec.exponentBits := by omega
  rw [unpackExponent, BitVec.toNat_cast, BitVec.extractLsb_toNat, Nat.shiftRight_eq_div_pow,
    hwidth]

theorem toNat_unpackMantissa {spec : Float.Model.Format} (word : BitVec spec.numBits) :
    (unpackMantissa word).toNat = word.toNat % 2 ^ spec.mantissaBitsWithoutImplicit := by
  have hpos := spec.hm
  have hwidth : spec.mantissaBitsWithoutImplicit - 1 - 0 + 1 =
      spec.mantissaBitsWithoutImplicit := by omega
  rw [unpackMantissa, BitVec.toNat_cast, BitVec.extractLsb_toNat, Nat.shiftRight_zero, hwidth]

theorem eq_neg_one_iff {w : Nat} (v : BitVec w) : v = -1#w ↔ v.toNat = 2 ^ w - 1 := by
  rw [← BitVec.toNat_inj, BitVec.neg_one_eq_allOnes, BitVec.toNat_allOnes]

theorem eq_zero_iff {w : Nat} (v : BitVec w) : v = 0#w ↔ v.toNat = 0 := by
  rw [← BitVec.toNat_inj, BitVec.toNat_ofNat, Nat.zero_mod]

/-! ## Packing -/

/-- The components of a finite number: the exponent is that of the smallest numbers, unless the
mantissa is full. -/
theorem pack_finite {m : Nat} {e : Int} (s : UnpackedFloat.Sign) (hpos : 0 < m) (hmost : e ≤ 971) :
    UnpackedFloat.pack .binary64 (.finite s m e hpos) =
      if m.log2 + 1 = 53 then
        packComponents .binary64 s (BitVec.ofNat _ (e + 1075).toNat) (BitVec.ofNat _ m)
      else packComponents .binary64 s 0#_ (BitVec.ofNat _ m) := by
  have hbiased : (e + Float.Model.Format.binary64.exponentBias +
      Float.Model.Format.binary64.mantissaBitsWithoutImplicit).toNat = (e + 1075).toNat := by
    show (e + (1023 : Nat) + (52 : Nat)).toNat = _
    omega
  have hfits : ¬ 2 ^ Float.Model.Format.binary64.exponentBits ≤ (e + 1075).toNat + 1 := by
    show ¬ 2 ^ 11 ≤ _
    omega
  simp only [UnpackedFloat.pack, hbiased]
  rw [if_neg hfits]
  rfl

/-- The first bit of a full mantissa is left out of the word, and is put back in front of the
fraction. -/
theorem unpack_pack_full {m : Nat} {e : Int} (s : UnpackedFloat.Sign) (hpos : 0 < m)
    (hbits : 2 ^ 52 ≤ m) (hbits' : m < 2 ^ 53) (hleast : -1074 ≤ e) (hmost : e ≤ 971) :
    ∃ s' hpos', UnpackedFloat.unpack .binary64
      (UnpackedFloat.pack .binary64 (.finite s m e hpos)) = .finite s' m e hpos' := by
  have hlog : m.log2 + 1 = 53 := by
    have hlower := (Nat.le_log2 (Nat.ne_of_gt hpos)).2 hbits
    have hupper := (Nat.log2_lt (Nat.ne_of_gt hpos)).2 hbits'
    omega
  have hexponent : (BitVec.ofNat 11 (e + 1075).toNat).toNat = (e + 1075).toNat :=
    Nat.mod_eq_of_lt (by omega)
  -- the hidden bit comes back in front of the fraction
  have hmantissa : (1#1 ++ BitVec.ofNat 52 m).toNat = m := by
    rw [BitVec.toNat_append, ← Nat.shiftLeft_add_eq_or_of_lt (BitVec.ofNat 52 m).isLt,
      BitVec.toNat_ofNat, Nat.shiftLeft_eq, BitVec.toNat_ofNat]
    omega
  -- the exponent is neither the last one nor the least
  have hfinite : ¬ BitVec.ofNat 11 (e + 1075).toNat = -1#11 := by
    rw [eq_neg_one_iff, hexponent]
    omega
  have hnormal : ¬ BitVec.ofNat 11 (e + 1075).toNat = 0#11 := by
    rw [eq_zero_iff, hexponent]
    omega
  have hbias : ((e + 1075).toNat : Int) - ((1023 : Nat) + (52 : Nat)) = e := by omega
  rw [pack_finite s hpos hmost, if_pos hlog]
  simp only [UnpackedFloat.unpack, UnpackedFloat.unpackExponent_packComponents,
    UnpackedFloat.unpackMantissa_packComponents]
  rw [if_neg hfinite, if_neg hnormal]
  simp only [UnpackedFloat.finite.injEq]
  refine ⟨_, hpos, rfl, hmantissa, ?_⟩
  show ((BitVec.ofNat 11 (e + 1075).toNat).toNat : Int) - ((1023 : Nat) + (52 : Nat)) = e
  rw [hexponent, hbias]

/-- A mantissa that is not full stays within its bound, in the least unit. -/
theorem unpack_subnormal_within {m bound : Nat} {top : Int} (s : UnpackedFloat.Sign)
    (hbits : m < 2 ^ 52) (h : Below m (-1074) bound top) :
    Within bound top (UnpackedFloat.unpack .binary64
      (packComponents .binary64 s 0#_ (BitVec.ofNat _ m))) := by
  have hmantissa : (BitVec.ofNat 52 m).toNat = m := Nat.mod_eq_of_lt hbits
  have hfinite : ¬ 0#11 = -1#11 := by decide
  simp only [UnpackedFloat.unpack, UnpackedFloat.unpackExponent_packComponents,
    UnpackedFloat.unpackMantissa_packComponents]
  rw [if_neg hfinite, if_pos trivial]
  split
  · trivial
  · show (BitVec.ofNat 52 m).toNat < 2 ^ 53 ∧
      -1074 ≤ ((0#11).toNat : Int) - ((1023 : Nat) + (52 : Nat)) + 1 ∧
      Below (BitVec.ofNat 52 m).toNat
        (((0#11).toNat : Int) - ((1023 : Nat) + (52 : Nat)) + 1) bound top
    rw [hmantissa]
    exact ⟨by omega, by decide, h⟩

/-- What is within a bound that a word can hold stays within it when it is packed. -/
theorem unpack_pack_within {bound : Nat} {top : Int} {x : UnpackedFloat} (h : Within bound top x)
    (htop : top ≤ 971) :
    Within bound top (UnpackedFloat.unpack .binary64 (UnpackedFloat.pack .binary64 x)) := by
  cases x with
  | infinity s => exact h.elim
  | notANumber => exact h.elim
  | zero s => cases s <;> trivial
  | finite s m e hpos =>
    obtain ⟨hbits, hleast, hbelow⟩ := h
    have hmost : e ≤ 971 := Int.le_trans hbelow.exponent htop
    by_cases hfull : 2 ^ 52 ≤ m
    · obtain ⟨s', hpos', heq⟩ := unpack_pack_full s hpos hfull hbits hleast hmost
      rw [heq]
      exact ⟨hbits, hleast, hbelow⟩
    · have hlog := (Nat.log2_lt (Nat.ne_of_gt hpos)).2 (Nat.lt_of_not_le hfull)
      have hleast' : Below m (-1074) m e := ⟨hleast, Nat.le_mul_of_pos_right _ (Nat.two_pow_pos _)⟩
      rw [pack_finite s hpos hmost, if_neg (by omega)]
      exact unpack_subnormal_within s (Nat.lt_of_not_le hfull) (hleast'.trans hbelow)

/-! ## Numbers and no numbers -/

theorem isFinite_eq (x : UnpackedFloat) : x.isFinite = (!x.isNaN && !x.isInf) := by
  cases x <;> rfl

theorem isFinite_double (x : Float) : x.isFinite = (!x.isNaN && !x.isInf) :=
  isFinite_eq x.toModel.unpack

theorem isFinite_single (x : Float32) : x.isFinite = (!x.isNaN && !x.isInf) :=
  isFinite_eq x.toModel.unpack

variable {spec : Float.Model.Format}

/-- A word stands for a finite number exactly if its exponent is not the greatest. -/
theorem isFinite_unpack (word : BitVec spec.numBits) :
    (UnpackedFloat.unpack spec word).isFinite ↔ unpackExponent word ≠ -1#_ := by
  simp only [UnpackedFloat.unpack]
  split
  · next hlast =>
    split <;> simp [UnpackedFloat.isFinite, hlast]
  · next hlast =>
    split
    · split <;> simp [UnpackedFloat.isFinite, hlast]
    · simp [UnpackedFloat.isFinite, hlast]

theorem isNaN_unpack (word : BitVec spec.numBits) :
    (UnpackedFloat.unpack spec word).isNaN ↔
      unpackExponent word = -1#_ ∧ unpackMantissa word ≠ 0#_ := by
  simp only [UnpackedFloat.unpack]
  split
  · next hlast =>
    split
    · next hzero => simp [UnpackedFloat.isNaN, hzero]
    · next hzero => simp [UnpackedFloat.isNaN, hlast, hzero]
  · next hlast =>
    split
    · split <;> simp [UnpackedFloat.isNaN, hlast]
    · simp [UnpackedFloat.isNaN, hlast]

/-- What is a number, or infinite, is so in a word. -/
theorem not_isNaN_unpack_pack {x : UnpackedFloat} (h : ¬ x.isNaN) :
    ¬ (UnpackedFloat.unpack spec (UnpackedFloat.pack spec x)).isNaN := by
  rw [isNaN_unpack]
  rintro ⟨hlast, hfraction⟩
  have hwidth : 0 ≠ 2 ^ spec.exponentBits - 1 := by
    have hpos := spec.he
    have hlarge : 2 ^ 1 ≤ 2 ^ spec.exponentBits := Nat.pow_le_pow_right (by decide) hpos
    omega
  -- an exponent of zero is not the last one
  have hzero : ¬ (0#_ : BitVec spec.exponentBits) = -1#_ := by
    rw [eq_neg_one_iff, BitVec.toNat_ofNat, Nat.zero_mod]
    exact hwidth
  cases x with
  | notANumber => exact h rfl
  | infinity s =>
    simp [UnpackedFloat.pack, UnpackedFloat.packedInfinity] at hfraction
  | zero s =>
    simp only [UnpackedFloat.pack, UnpackedFloat.packedZero,
      UnpackedFloat.unpackExponent_packComponents] at hlast
    exact hzero hlast
  | finite s m e hpos =>
    simp only [UnpackedFloat.pack] at hlast hfraction
    split at hlast
    · next hlarge =>
      -- what is too large is packed as infinity, which has no fraction
      rw [if_pos hlarge] at hfraction
      simp [UnpackedFloat.packedInfinity] at hfraction
    · next hsmall =>
      split at hlast
      · rw [UnpackedFloat.unpackExponent_packComponents, eq_neg_one_iff, BitVec.toNat_ofNat,
          Nat.mod_eq_of_lt (by omega)] at hlast
        omega
      · rw [UnpackedFloat.unpackExponent_packComponents] at hlast
        exact hzero hlast

/-- A finite number is within the largest one. -/
theorem unpack_within {word : BitVec Float.Model.Format.binary64.numBits}
    (h : (UnpackedFloat.unpack .binary64 word).isFinite) :
    Within (2 ^ 53 - 1) 971 (UnpackedFloat.unpack .binary64 word) := by
  have hlast := (isFinite_unpack word).1 h
  have hexponent : (unpackExponent word).toNat < 2 ^ 11 := (unpackExponent word).isLt
  have hfraction : (unpackMantissa word).toNat < 2 ^ 52 := (unpackMantissa word).isLt
  have hgreatest : (unpackExponent word).toNat ≠ 2 ^ 11 - 1 := fun heq =>
    hlast ((eq_neg_one_iff _).2 heq)
  have hbelow : ∀ {m : Nat} {e : Int}, m < 2 ^ 53 → e ≤ 971 → Below m e (2 ^ 53 - 1) 971 :=
    fun hm he => ⟨he, Nat.le_trans (by omega) (Nat.le_mul_of_pos_right _ (Nat.two_pow_pos _))⟩
  simp only [UnpackedFloat.unpack]
  rw [if_neg hlast]
  split
  · next hzero =>
    -- the least exponent stands for numbers without a hidden bit
    have hleast : (unpackExponent word).toNat = 0 := (eq_zero_iff _).1 hzero
    split
    · trivial
    · show (unpackMantissa word).toNat < 2 ^ 53 ∧
        -1074 ≤ ((unpackExponent word).toNat : Int) - ((1023 : Nat) + (52 : Nat)) + 1 ∧
        Below (unpackMantissa word).toNat
          ((unpackExponent word).toNat - ((1023 : Nat) + (52 : Nat)) + 1) (2 ^ 53 - 1) 971
      exact ⟨by omega, by omega, hbelow (by omega) (by omega)⟩
  · next hzero =>
    -- the others have a hidden bit in front of the fraction
    have hleast : (unpackExponent word).toNat ≠ 0 := fun heq => hzero ((eq_zero_iff _).2 heq)
    have hmantissa : (1#1 ++ unpackMantissa word).toNat < 2 ^ (1 + 52) :=
      (1#1 ++ unpackMantissa word).isLt
    show (1#1 ++ unpackMantissa word).toNat < 2 ^ 53 ∧
      -1074 ≤ ((unpackExponent word).toNat : Int) - ((1023 : Nat) + (52 : Nat)) ∧
      Below (1#1 ++ unpackMantissa word).toNat
        ((unpackExponent word).toNat - ((1023 : Nat) + (52 : Nat))) (2 ^ 53 - 1) 971
    exact ⟨hmantissa, by omega, hbelow hmantissa (by omega)⟩

/-! ## Numerals of words -/

theorem twoTo_eq_two_pow (n : Nat) : twoTo n = 2 ^ n :=
  Nat.one_shiftLeft n

/-- A word has a value exactly if its exponent is not the greatest, and then the value has one
bit more than the fraction and an exponent in the range of the format. -/
theorem magnitude_cases (f : Format) (hpos : 0 < f.exponentBits) (word : Nat) :
    (word / 2 ^ f.fractionBits % 2 ^ f.exponentBits = 2 ^ f.exponentBits - 1 ∧
      ∀ m e, f.magnitude word ≠ .finite m e) ∨
    (word / 2 ^ f.fractionBits % 2 ^ f.exponentBits ≠ 2 ^ f.exponentBits - 1 ∧
      ∃ m e, f.magnitude word = .finite m e ∧ m < 2 ^ (f.fractionBits + 1) ∧
        e ≤ f.leastExponent + (2 ^ f.exponentBits - 3 : Nat)) := by
  have hfraction : word % 2 ^ f.fractionBits < 2 ^ f.fractionBits :=
    Nat.mod_lt _ (Nat.two_pow_pos _)
  have hexponent : word / 2 ^ f.fractionBits % 2 ^ f.exponentBits < 2 ^ f.exponentBits :=
    Nat.mod_lt _ (Nat.two_pow_pos _)
  have hlarge : 2 ^ 1 ≤ 2 ^ f.exponentBits := Nat.pow_le_pow_right (by decide) hpos
  have hdouble : 2 ^ (f.fractionBits + 1) = 2 ^ f.fractionBits * 2 := Nat.pow_succ _ _
  simp only [Format.magnitude, twoTo_eq_two_pow]
  split
  · next hzero =>
    -- zero, and the numbers without a hidden bit
    right
    exact ⟨by omega, _, _, rfl, by omega, by omega⟩
  · next hzero =>
    split
    · next hlast =>
      -- infinity, or no number
      left
      refine ⟨hlast, ?_⟩
      intro m e
      split <;> simp
    · next hlast =>
      -- the numbers with a hidden bit
      right
      exact ⟨hlast, _, _, rfl, by omega, by omega⟩

theorem isSome_numeral?_iff (f : Format) (spelling : Spelling) (word : Nat) :
    (f.numeral? spelling word).isSome ↔ ∃ m e, f.magnitude word = .finite m e := by
  unfold Format.numeral?
  cases f.magnitude word <;> simp

/-- A word has a numeral exactly if it stands for a finite number. -/
theorem isSome_numeral? {f : Format} (hexponent : f.exponentBits = spec.exponentBits)
    (hfraction : f.fractionBits = spec.mantissaBitsWithoutImplicit) (spelling : Spelling)
    (word : BitVec spec.numBits) :
    (f.numeral? spelling word.toNat).isSome ↔ (UnpackedFloat.unpack spec word).isFinite := by
  have hpos : 0 < f.exponentBits := by
    rw [hexponent]
    exact spec.he
  rw [isSome_numeral?_iff, isFinite_unpack, ne_eq, eq_neg_one_iff, toNat_unpackExponent,
    ← hexponent, ← hfraction]
  rcases magnitude_cases f hpos word.toNat with ⟨hlast, hnone⟩ | ⟨hlast, m, e, hsome, -, -⟩
  · simp [hlast, hnone]
  · simp [hlast, hsome]

theorem isSome_doubleNumeral? (x : Float) : (doubleNumeral? x).isSome ↔ x.isFinite :=
  @isSome_numeral? .binary64 .double rfl rfl .double x.toModel.toBits.toBitVec

theorem isSome_singleNumeral? (x : Float32) : (singleNumeral? x).isSome ↔ x.isFinite :=
  @isSome_numeral? .binary32 .single rfl rfl .single x.toModel.toBits.toBitVec

/-! ## Numbers of 32 bits -/

/-- Of the multiples of `2^shift`, that by `places` is nearest to `m`, and a tie goes to an even
factor. -/
structure NearestEven (m shift places : Nat) : Prop where
  nearest : 2 * ((places * 2 ^ shift : Nat) - m : Int).natAbs ≤ 2 ^ shift
  even : 2 * ((places * 2 ^ shift : Nat) - m : Int).natAbs = 2 ^ shift → places % 2 = 0

theorem nearestEven_roundShift (m shift : Nat) :
    NearestEven m shift (Format.roundShift m shift) := by
  have hparts : m / 2 ^ shift * 2 ^ shift + m % 2 ^ shift = m := Nat.div_add_mod' m (2 ^ shift)
  have hrest : m % 2 ^ shift < 2 ^ shift := Nat.mod_lt _ (Nat.two_pow_pos _)
  have hnext : (m / 2 ^ shift + 1) * 2 ^ shift = m / 2 ^ shift * 2 ^ shift + 2 ^ shift :=
    Nat.succ_mul _ _
  unfold Format.roundShift
  simp only [twoTo_eq_two_pow, Nat.shiftRight_eq_div_pow]
  split
  · next hdown => constructor <;> omega
  · next hup =>
    -- the next multiple is nearer, or as near and the quotient is odd
    constructor <;> rw [hnext] <;> omega

example : Format.roundShift 6 2 = 2 := by decide

theorem nearest_le_infinity (f : Format) (m : Nat) (e : Int) : f.nearest m e ≤ f.infinity := by
  unfold Format.nearest
  split
  · exact Nat.zero_le _
  · exact Nat.min_le_left _ _

/-- A word that is not above infinity, its sign apart, is no `NaN`. -/
theorem not_isNaN_ofBits {sign size : Nat} (hsign : sign = 0 ∨ sign = Format.single.signBit)
    (hsize : size ≤ Format.single.infinity) :
    ¬ (Float32.ofBits (UInt32.ofNat (sign + size))).isNaN := by
  apply not_isNaN_unpack_pack
  have hinfinity : Format.single.infinity = 255 * 2 ^ 23 := by decide
  have hbit : Format.single.signBit = 2 ^ 31 := by decide
  have hword : (UInt32.ofNat (sign + size)).toBitVec.toNat = sign + size := by
    show (sign + size) % 2 ^ 32 = _
    omega
  rw [isNaN_unpack, eq_neg_one_iff, ne_eq, eq_zero_iff, toNat_unpackExponent,
    toNat_unpackMantissa, hword]
  show ¬ ((sign + size) / 2 ^ 23 % 2 ^ 8 = 2 ^ 8 - 1 ∧ ¬ (sign + size) % 2 ^ 23 = 0)
  omega

/-- A finite number of 64 bits becomes a number, or infinite. -/
theorem not_isNaN_narrow {x : Float} (h : x.isFinite) : ¬ (narrow x).isNaN := by
  have hsign : (if Format.double.signBit ≤ x.toBits.toNat then Format.single.signBit else 0) = 0 ∨
      (if Format.double.signBit ≤ x.toBits.toNat then Format.single.signBit else 0) =
        Format.single.signBit := by
    split
    · exact .inr rfl
    · exact .inl rfl
  obtain ⟨m, e, hvalue⟩ := (isSome_numeral?_iff _ _ _).1 ((isSome_doubleNumeral? x).2 h)
  simp only [narrow, hvalue]
  exact not_isNaN_ofBits hsign (nearest_le_infinity _ m e)

theorem not_isNaN_singleOfNat (n : Nat) : ¬ (singleOfNat n).isNaN := by
  have hword := @not_isNaN_ofBits 0 (Format.single.nearest n 0) (.inl rfl)
    (nearest_le_infinity _ _ _)
  rwa [Nat.zero_add] at hword

/-! ## Signs -/

theorem isNaN_neg (x : UnpackedFloat) : x.neg.isNaN = x.isNaN := by
  cases x <;> rfl

theorem not_isNaN_neg_single {x : Float32} (h : ¬ x.isNaN) : ¬ (-x).isNaN := by
  apply not_isNaN_unpack_pack
  rw [isNaN_neg]
  exact h

end BlockData.Number
