import BlockData.Proofs.Number.Binary

/-!
# What numerals are read as

Reading a numeral gives a finite number or nothing, and it gives a number whenever the leading
digits with their power of ten stay a little below the largest number: the digits, the power
and their product are rounded, and each of them may grow by a unit of its last place.

* `isFinite_of_toDouble?` and `not_isNaN_of_toSingle?` are about what is read;
* `isSome_scaleUp?` is about what can be read.
-/

namespace BlockData.Number

open Float.Model (UnpackedFloat)

/-- A finite number that is at most `bound · 2^top` apart from its sign. -/
def FloatWithin (bound : Nat) (top : Int) (x : Float) : Prop :=
  Within bound top x.toModel.unpack

/-! ## Finite numbers -/

theorem FloatWithin.isFinite {bound : Nat} {top : Int} {x : Float} (h : FloatWithin bound top x) :
    x.isFinite := by
  show x.toModel.unpack.isFinite
  unfold FloatWithin at h
  cases hx : x.toModel.unpack with
  | zero s => rfl
  | finite s m e hpos => rfl
  | infinity s =>
    rw [hx] at h
    exact h.elim
  | notANumber =>
    rw [hx] at h
    exact h.elim

/-- Every finite number is within the largest one. -/
theorem within_of_isFinite {x : Float} (h : x.isFinite) : FloatWithin (2 ^ 53 - 1) 971 x :=
  unpack_within h

theorem neg_within {bound : Nat} {top : Int} {x : UnpackedFloat} (h : Within bound top x) :
    Within bound top x.neg := by
  cases x with
  | zero s => trivial
  | finite s m e hpos => exact h
  | infinity s => exact h.elim
  | notANumber => exact h.elim

theorem isFinite_neg {x : Float} (h : x.isFinite) : (-x).isFinite := by
  have hneg : FloatWithin (2 ^ 53 - 1) 971 (-x) :=
    unpack_pack_within (neg_within (within_of_isFinite h)) (Int.le_refl 971)
  exact hneg.isFinite

/-! ## Integers -/

/-- The quotient by a power of two, rounded up. -/
def roundUp (n shift : Nat) : Nat :=
  (n + 2 ^ shift - 1) / 2 ^ shift

theorem le_roundUp (n shift : Nat) : n ≤ roundUp n shift * 2 ^ shift := by
  have hpos := Nat.two_pow_pos shift
  have hrest := Nat.mod_lt (n + 2 ^ shift - 1) hpos
  have hsplit := Nat.div_add_mod (n + 2 ^ shift - 1) (2 ^ shift)
  rw [Nat.mul_comm] at hsplit
  unfold roundUp
  omega

theorem roundUp_lt (n shift : Nat) : roundUp n shift * 2 ^ shift < n + 2 ^ shift := by
  have hpos := Nat.two_pow_pos shift
  have hle := Nat.div_mul_le_self (n + 2 ^ shift - 1) (2 ^ shift)
  unfold roundUp
  omega

theorem roundUp_le {n shift bound : Nat} (h : n ≤ bound * 2 ^ shift) :
    roundUp n shift ≤ bound := by
  have hpos := Nat.two_pow_pos shift
  have hlt := roundUp_lt n shift
  apply Nat.le_of_lt_succ
  apply Nat.lt_of_mul_lt_mul_right (a := 2 ^ shift)
  rw [Nat.succ_mul]
  omega

/-- The place that the last bit of a number has, if it is to have one bit more than given. -/
def lastPlace (bits n : Nat) : Nat :=
  n.log2 - bits

theorem roundUp_lastPlace_le (bits n : Nat) :
    roundUp n (lastPlace bits n) ≤ 2 ^ (bits + 1) := by
  apply roundUp_le
  have hbits : n.log2 + 1 ≤ bits + 1 + lastPlace bits n := by
    unfold lastPlace
    omega
  calc n ≤ 2 ^ (n.log2 + 1) := Nat.le_of_lt Nat.lt_log2_self
    _ ≤ 2 ^ (bits + 1 + lastPlace bits n) := Nat.pow_le_pow_right (by decide) hbits
    _ = 2 ^ (bits + 1) * 2 ^ lastPlace bits n := Nat.pow_add _ _ _

theorem two_pow_mul_lastPlace_le {bits n : Nat} (h : lastPlace bits n ≠ 0) :
    2 ^ bits * 2 ^ lastPlace bits n ≤ n := by
  have hn : n ≠ 0 := by
    rintro rfl
    exact h (by simp [lastPlace])
  have hsplit : bits + lastPlace bits n = n.log2 := by
    unfold lastPlace at h ⊢
    omega
  rw [← Nat.pow_add, hsplit]
  exact Nat.log2_self_le hn

/-- What loses bits when it is rounded up has all its bits then. -/
theorem le_roundUp_lastPlace {bits n : Nat} (h : lastPlace bits n ≠ 0) :
    2 ^ bits ≤ roundUp n (lastPlace bits n) := by
  apply Nat.le_of_mul_le_mul_right _ (Nat.two_pow_pos (lastPlace bits n))
  exact Nat.le_trans (two_pow_mul_lastPlace_le h) (le_roundUp _ _)

/-- A number grows by a unit of its last place at most when it is rounded up. -/
theorem roundUp_lastPlace_mul_le (bits n : Nat) :
    2 ^ bits * (roundUp n (lastPlace bits n) * 2 ^ lastPlace bits n) ≤ (2 ^ bits + 1) * n := by
  have hlt := roundUp_lt n (lastPlace bits n)
  by_cases hplace : lastPlace bits n = 0
  · rw [hplace] at hlt ⊢
    calc 2 ^ bits * (roundUp n 0 * 2 ^ 0) ≤ 2 ^ bits * n := Nat.mul_le_mul_left _ (by omega)
      _ ≤ (2 ^ bits + 1) * n := Nat.mul_le_mul_right _ (Nat.le_succ _)
  · calc 2 ^ bits * (roundUp n (lastPlace bits n) * 2 ^ lastPlace bits n)
        ≤ 2 ^ bits * (n + 2 ^ lastPlace bits n) := Nat.mul_le_mul_left _ (Nat.le_of_lt hlt)
      _ = 2 ^ bits * n + 2 ^ bits * 2 ^ lastPlace bits n := Nat.mul_add _ _ _
      _ ≤ 2 ^ bits * n + n := Nat.add_le_add_left (two_pow_mul_lastPlace_le hplace) _
      _ = (2 ^ bits + 1) * n := (Nat.succ_mul _ _).symm

theorem below_shiftLeft {m bound : Nat} {e top : Int} (h : Below m e bound top) (shift : Nat) :
    Below (m <<< shift) (e - shift) bound top where
  exponent := by
    have hexponent := h.exponent
    omega
  mantissa := by
    have hexponent := h.exponent
    have hsplit : (top - (e - shift)).toNat = (top - e).toNat + shift := by omega
    rw [Nat.shiftLeft_eq, hsplit, Nat.pow_add, ← Nat.mul_assoc]
    exact Nat.mul_le_mul_right _ h.mantissa

/-- An integer is rounded within every bound with 53 bits. -/
theorem toFloat_within {n : UInt64} {bound shift : Nat} (h : n.toNat ≤ bound * 2 ^ shift)
    (hbound : bound < 2 ^ 53) (hshift : shift ≤ 971) : FloatWithin bound shift n.toFloat := by
  have hbelow : Below n.toNat 0 bound shift := ⟨by omega, by simpa using h⟩
  apply unpack_pack_within _ (by omega)
  show Within bound shift (UnpackedFloat.normalize .binary64 (n.toNat : Int) 0 .positive)
  unfold UnpackedFloat.normalize
  split
  · next hnegative =>
    rw [Int.compare_eq_lt] at hnegative
    omega
  · trivial
  · rw [Int.toNat_natCast]
    exact roundWithAccuracy_within _ (below_shiftLeft hbelow _) hbound (by omega)

/-! ## Powers of ten -/

/-- The place that the last bit of a power of ten has. -/
def powerShift (n : Nat) : Nat :=
  lastPlace 52 (10 ^ n)

theorem powerShift_le {n : Nat} (h : n ≤ 308) : powerShift n ≤ 971 := by
  have hlog : (10 ^ n).log2 < 1024 := by
    rw [Nat.log2_lt (Nat.ne_of_gt (Nat.pow_pos (by decide)))]
    calc 10 ^ n ≤ 10 ^ 308 := Nat.pow_le_pow_right (by decide) h
      _ < 2 ^ 1024 := by decide +kernel
  unfold powerShift lastPlace
  omega

theorem roundUp_power_lt {n : Nat} (h : n ≤ 308) : roundUp (10 ^ n) (powerShift n) < 2 ^ 53 := by
  have hall : ∀ n < 309, roundUp (10 ^ n) (powerShift n) < 2 ^ 53 := by decide +kernel
  exact hall n (Nat.lt_succ_of_le h)

theorem one_shiftLeft_mul (m shift : Nat) : 1 <<< shift * m = m <<< shift := by
  rw [Nat.one_shiftLeft, Nat.shiftLeft_eq, Nat.mul_comm]

/-- What is said below of every power of ten, for one of those that are stored. -/
def storedCheck (n : Nat) : Bool :=
  match (powerOfTen n).toModel.unpack with
  | .finite _ m e _ =>
    m < 2 ^ 53 && -1074 ≤ e && e ≤ powerShift n &&
      m ≤ roundUp (10 ^ n) (powerShift n) * 2 ^ (powerShift n - e).toNat && 2 ^ (-e).toNat ≤ m
  | _ => false

/-- A whole number from one on that gets more bits than a mantissa has, and is rounded to them,
is not below one. -/
theorem unpack_pack_shifted {m bound : Nat} {top : Int} (shift : Nat) (hpos : 0 < m)
    (hshift : 52 ≤ shift) (hshift' : shift ≤ 1074) (h : Below m 0 bound top)
    (hbound : bound < 2 ^ 53) (htop : top ≤ 971) :
    ∃ s m' e' hpos', UnpackedFloat.unpack .binary64 (UnpackedFloat.pack .binary64
        (UnpackedFloat.roundWithAccuracy .binary64 .positive (m <<< shift) (-shift) .exact)) =
          .finite s m' e' hpos' ∧
      2 ^ (-e').toNat ≤ m' ∧ Within bound top (.finite s m' e' hpos') := by
  -- the bits that are shifted in make the number full without changing it
  have hbelow : Below (m <<< shift) (-shift) bound top := by
    have hshifted := below_shiftLeft h shift
    rwa [Int.zero_sub] at hshifted
  have hbits : 2 ^ shift ≤ m <<< shift := by
    rw [Nat.shiftLeft_eq]
    exact Nat.le_mul_of_pos_left _ hpos
  have hfull : 2 ^ 52 ≤ m <<< shift :=
    Nat.le_trans (Nat.pow_le_pow_right (by decide) hshift) hbits
  have hlog : shift ≤ (m <<< shift).log2 := (Nat.le_log2 (by omega)).2 hbits
  have hexponent := h.exponent
  have hleast : (-1074 : Int) ≤ -shift := by omega
  have hwithin : Within bound top
      (UnpackedFloat.roundWithAccuracy .binary64 .positive (m <<< shift) (-shift) .exact) :=
    roundWithAccuracy_within .positive hbelow hbound (by omega)
  -- rounding keeps a full number full, so that packing loses nothing
  obtain ⟨m', e', hpos', heq, hfull', hlog'⟩ :=
    roundWithAccuracy_full .positive .exact hfull hleast
  rw [heq] at hwithin ⊢
  have hmost : e' ≤ 971 := Int.le_trans hwithin.2.2.exponent htop
  obtain ⟨s, hpos'', hword⟩ := unpack_pack_full .positive hpos' hfull' hwithin.1 hwithin.2.1 hmost
  have hone : 2 ^ (-e').toNat ≤ m' :=
    Nat.le_trans (Nat.pow_le_pow_right (by decide) (by omega)) hfull'
  exact ⟨s, m', e', hpos'', hword, hone, hwithin⟩

/-- The powers beyond the stored ones are products that are rounded once. -/
theorem unpack_powerOfTen {n : Nat} (hlarge : 22 < n) (h : n ≤ 308) :
    (powerOfTen n).toModel.unpack = UnpackedFloat.unpack .binary64 (UnpackedFloat.pack .binary64
      (UnpackedFloat.roundWithAccuracy .binary64 .positive ((10 ^ n) <<< 53) (-(53 : Nat))
        .exact)) := by
  have hstored : ¬ (1 < 2 ^ 53 ∧ n ≤ 22) := by omega
  have hfits : ¬ (n : Int) > 2 ^ 11 := by omega
  have hpositive : ¬ (n : Int) < -((2 ^ 11 : Int) + (Nat.log2 1 : Nat)) := by omega
  unfold powerOfTen Float.ofScientific
  rw [dif_neg hstored]
  show UnpackedFloat.unpack .binary64 (UnpackedFloat.pack .binary64
    (UnpackedFloat.ofScientific .binary64 1 (n : Int))) = _
  rw [UnpackedFloat.ofScientific, dif_neg Nat.one_ne_zero, if_neg hfits, if_neg hpositive,
    if_pos (Int.natCast_nonneg n), ← one_shiftLeft_mul (10 ^ n)]
  rfl

/-- A power of ten is not below one, and is within the exact power rounded up. -/
theorem powerOfTen_eq {n : Nat} (h : n ≤ 308) :
    ∃ s m e hpos, (powerOfTen n).toModel.unpack = .finite s m e hpos ∧ 2 ^ (-e).toNat ≤ m ∧
      FloatWithin (roundUp (10 ^ n) (powerShift n)) (powerShift n) (powerOfTen n) := by
  unfold FloatWithin
  by_cases hstored : n ≤ 22
  · -- the powers that are stored are checked one by one
    have hall : ∀ n < 23, storedCheck n := by decide +kernel
    have hpower := hall n (Nat.lt_succ_of_le hstored)
    unfold storedCheck at hpower
    split at hpower
    · next s m e hpos heq =>
      simp only [Bool.and_eq_true, decide_eq_true_eq] at hpower
      obtain ⟨⟨⟨⟨hbits, hleast⟩, hexponent⟩, hmantissa⟩, hone⟩ := hpower
      rw [heq]
      exact ⟨s, m, e, hpos, rfl, hone, hbits, hleast, hexponent, hmantissa⟩
    · simp at hpower
  · -- the others are rounded from the whole number
    have hexact : Below (10 ^ n) 0 (roundUp (10 ^ n) (powerShift n)) (powerShift n) :=
      ⟨by omega, by simpa using le_roundUp _ _⟩
    have hmost := powerShift_le h
    obtain ⟨s, m, e, hpos, heq, hone, hwithin⟩ := unpack_pack_shifted 53
      (Nat.pow_pos (by decide)) (by decide) (by decide) hexact (roundUp_power_lt h) (by omega)
    rw [unpack_powerOfTen (Nat.lt_of_not_le hstored) h, heq]
    exact ⟨s, m, e, hpos, rfl, hone, hwithin⟩

/-! ## Scaling -/

theorem div_power_within {bound n : Nat} {top : Int} {x : Float} (hx : FloatWithin bound top x)
    (htop : top ≤ 971) (hn : n ≤ 308) : FloatWithin bound top (x / powerOfTen n) := by
  obtain ⟨s, m, e, hpos, heq, hone, -⟩ := powerOfTen_eq hn
  apply unpack_pack_within _ htop
  rw [heq]
  exact div_within hx s hpos hone

/-- However often a number is divided, it stays within its bound. -/
theorem scaleDown_within {bound n : Nat} {top : Int} {x : Float} (hx : FloatWithin bound top x)
    (htop : top ≤ 971) : FloatWithin bound top (scaleDown x n) := by
  fun_induction scaleDown x n with
  | case1 x n hn => exact div_power_within hx htop hn
  | case2 => exact hx
  | case3 x n _ _ ih => exact ih (div_power_within hx htop (Nat.le_refl 308))

/-- A product of numbers is a number, or infinite. -/
theorem not_isNaN_mul {bound bound' : Nat} {top top' : Int} {x y : Float}
    (hx : FloatWithin bound top x) (hy : FloatWithin bound' top' y) : ¬ (x * y).isNaN := by
  apply not_isNaN_unpack_pack
  show ¬ (UnpackedFloat.mul .binary64 x.toModel.unpack y.toModel.unpack).isNaN
  unfold FloatWithin at hx hy
  generalize x.toModel.unpack = a at hx
  generalize y.toModel.unpack = b at hy
  -- only zero times infinity is no number, and neither factor is infinite
  cases a with
  | infinity s => exact hx.elim
  | notANumber => exact hx.elim
  | zero s =>
    cases b with
    | infinity s => exact hy.elim
    | notANumber => exact hy.elim
    | zero s' => simp [UnpackedFloat.mul, UnpackedFloat.isNaN]
    | finite s' m' e' hpos' => simp [UnpackedFloat.mul, UnpackedFloat.isNaN]
  | finite s m e hpos =>
    cases b with
    | infinity s => exact hy.elim
    | notANumber => exact hy.elim
    | zero s' => simp [UnpackedFloat.mul, UnpackedFloat.isNaN]
    | finite s' m' e' hpos' =>
      simp only [UnpackedFloat.mul, UnpackedFloat.roundWithAccuracy]
      split <;> simp [UnpackedFloat.isNaN]

theorem isFinite_of_scaleUp? {bound n : Nat} {top : Int} {x y : Float}
    (hx : FloatWithin bound top x) (h : scaleUp? x n = some y) : y.isFinite := by
  unfold scaleUp? at h
  split at h
  · next hn =>
    obtain ⟨-, -, -, -, -, -, hpower⟩ := powerOfTen_eq hn
    simp only at h
    split at h
    · simp at h
    · next hinf =>
      obtain rfl := Option.some.inj h
      have hnan := not_isNaN_mul hx hpower
      rw [isFinite_double, Bool.eq_false_iff.2 hnan, Bool.eq_false_iff.2 hinf]
      rfl
  · split at h
    · obtain rfl := Option.some.inj h
      exact hx.isFinite
    · simp at h

/-- The largest number but for a few units of its last place. -/
def greatest : Nat :=
  (2 ^ 53 - 8) * 2 ^ 971

theorem mul_two_pow_le_greatest {places : Nat} (h : places ≤ 971) :
    (2 ^ 53 - 8) * 2 ^ places ≤ greatest := by
  unfold greatest
  generalize 971 = top at h
  exact Nat.mul_le_mul_left _ (Nat.pow_le_pow_right (by decide) h)

theorem below_of_mul_le {m bound e top : Nat} (hexponent : e ≤ top)
    (h : m * 2 ^ e ≤ bound * 2 ^ top) : Below m e bound top where
  exponent := by omega
  mantissa := by
    have hsplit : ((top : Int) - e).toNat + e = top := by omega
    apply Nat.le_of_mul_le_mul_right _ (Nat.two_pow_pos e)
    rwa [Nat.mul_assoc, ← Nat.pow_add, hsplit]

/-- Where a bound has 53 bits, what has as many bits has no greater exponent. -/
theorem le_of_full_mul_le {m bound e top : Nat} (hfull : 2 ^ 52 ≤ m) (hbound : bound < 2 ^ 53)
    (h : m * 2 ^ e ≤ bound * 2 ^ top) : e ≤ top := by
  have hlt : 2 ^ (52 + e) < 2 ^ (53 + top) := by
    calc 2 ^ (52 + e) = 2 ^ 52 * 2 ^ e := Nat.pow_add _ _ _
      _ ≤ m * 2 ^ e := Nat.mul_le_mul_right _ hfull
      _ ≤ bound * 2 ^ top := h
      _ < 2 ^ 53 * 2 ^ top := Nat.mul_lt_mul_of_pos_right hbound (Nat.two_pow_pos _)
      _ = 2 ^ (53 + top) := (Nat.pow_add _ _ _).symm
  have hexponent := (Nat.pow_lt_pow_iff_right (by decide)).1 hlt
  omega

/-- Two numbers that grow by a unit of their last places, in 52 and 53 bits, make their product
grow by less than eight units. -/
theorem mul_le_of_rounded {a b v p scale : Nat} (ha : 2 ^ 51 * a ≤ (2 ^ 51 + 1) * v)
    (hb : 2 ^ 52 * b ≤ (2 ^ 52 + 1) * p) (h : v * p ≤ (2 ^ 53 - 8) * scale) :
    a * b ≤ (2 ^ 53 - 1) * scale := by
  apply Nat.le_of_mul_le_mul_left _ (Nat.two_pow_pos 103)
  calc 2 ^ 103 * (a * b) = 2 ^ 51 * a * (2 ^ 52 * b) := by
        rw [show 2 ^ 103 = 2 ^ 51 * 2 ^ 52 from rfl]
        ac_rfl
    _ ≤ (2 ^ 51 + 1) * v * ((2 ^ 52 + 1) * p) := Nat.mul_le_mul ha hb
    _ = (2 ^ 51 + 1) * (2 ^ 52 + 1) * (v * p) := by ac_rfl
    _ ≤ (2 ^ 51 + 1) * (2 ^ 52 + 1) * ((2 ^ 53 - 8) * scale) := Nat.mul_le_mul_left _ h
    _ = (2 ^ 51 + 1) * (2 ^ 52 + 1) * (2 ^ 53 - 8) * scale := (Nat.mul_assoc _ _ _).symm
    _ ≤ 2 ^ 103 * (2 ^ 53 - 1) * scale := Nat.mul_le_mul_right _ (by decide)
    _ = 2 ^ 103 * ((2 ^ 53 - 1) * scale) := Nat.mul_assoc _ _ _

/-- Digits and a power of ten that are both rounded up do not pass the largest number, if their
product stays below it by a few units. -/
theorem roundUp_mul_below {v n : Nat} (hv : v < 2 ^ 64) (hn : n ≤ 308)
    (h : v * 10 ^ n ≤ greatest) :
    Below (roundUp v (lastPlace 51 v) * roundUp (10 ^ n) (powerShift n))
      ((lastPlace 51 v + powerShift n : Nat) : Int) (2 ^ 53 - 1) (971 : Nat) := by
  have hproduct : roundUp v (lastPlace 51 v) * roundUp (10 ^ n) (powerShift n) *
      2 ^ (lastPlace 51 v + powerShift n) ≤ (2 ^ 53 - 1) * 2 ^ 971 := by
    have hrounded := mul_le_of_rounded (roundUp_lastPlace_mul_le 51 v)
      (roundUp_lastPlace_mul_le 52 (10 ^ n)) h
    rw [Nat.pow_add]
    calc roundUp v (lastPlace 51 v) * roundUp (10 ^ n) (powerShift n) *
          (2 ^ lastPlace 51 v * 2 ^ powerShift n)
        = (roundUp v (lastPlace 51 v) * 2 ^ lastPlace 51 v) *
          (roundUp (10 ^ n) (powerShift n) * 2 ^ powerShift n) := by ac_rfl
      _ ≤ (2 ^ 53 - 1) * 2 ^ 971 := hrounded
  refine below_of_mul_le ?_ hproduct
  have hmost := powerShift_le hn
  have hplace : lastPlace 51 v ≤ 12 := by
    unfold lastPlace
    rcases Nat.eq_zero_or_pos v with rfl | hpos
    · simp
    · have hlog := (Nat.log2_lt (Nat.ne_of_gt hpos)).2 hv
      omega
  -- without a bit that is lost the places alone are small enough
  by_cases hdigits : lastPlace 51 v = 0
  · omega
  · by_cases hpower : powerShift n = 0
    · omega
    · -- both have lost bits, so that the product has 53 bits at least
      have hfull : 2 ^ 52 ≤ roundUp v (lastPlace 51 v) * roundUp (10 ^ n) (powerShift n) :=
        Nat.le_trans (by decide)
          (Nat.mul_le_mul (le_roundUp_lastPlace hdigits) (le_roundUp_lastPlace hpower))
      exact le_of_full_mul_le hfull (by decide) hproduct

/-- Digits that fit into a word are scaled, if they stay a few units below the largest number. -/
theorem isSome_scaleUp? {v n : Nat} (hv : v < 2 ^ 64) (h : v * 10 ^ n ≤ greatest) :
    (scaleUp? (UInt64.ofNat v).toFloat n).isSome := by
  unfold scaleUp?
  split
  · next hn =>
    obtain ⟨-, -, -, -, -, -, hpower⟩ := powerOfTen_eq hn
    have hbelow := roundUp_mul_below hv hn h
    have hdigits : FloatWithin (roundUp v (lastPlace 51 v)) (lastPlace 51 v)
        (UInt64.ofNat v).toFloat := by
      have hword : (UInt64.ofNat v).toNat = v := UInt64.toNat_ofNat_of_lt' hv
      have hbits := roundUp_lastPlace_le 51 v
      have hexponent := hbelow.exponent
      refine toFloat_within ?_ (by omega) (by omega)
      rw [hword]
      exact le_roundUp _ _
    have hproduct : FloatWithin (2 ^ 53 - 1) 971 ((UInt64.ofNat v).toFloat * powerOfTen n) := by
      apply unpack_pack_within _ (Int.le_refl 971)
      exact mul_within hdigits hpower hbelow (by decide) (by decide)
    have hfinite := hproduct.isFinite
    simp only [isFinite_double, Bool.and_eq_true, Bool.not_eq_true'] at hfinite
    simp only [hfinite.2, Bool.false_eq_true, if_false, Option.isSome_some]
  · next hn =>
    -- beyond the powers that a number can have, only zero has few enough digits
    have hzero : v = 0 := by
      apply Nat.eq_zero_of_not_pos
      intro hpos
      have hten : ∀ k, k ≤ n → 10 ^ k ≤ 10 ^ n := fun k => Nat.pow_le_pow_right (by decide)
      have hlarge : greatest < 10 ^ 309 := by decide +kernel
      have hmul : 10 ^ n ≤ v * 10 ^ n := Nat.le_mul_of_pos_left _ hpos
      have hpower := hten 309 (Nat.lt_of_not_le hn)
      omega
    subst hzero
    rw [if_pos (by decide +kernel)]
    rfl

/-! ## Reading -/

/-! ## Reading -/

/-- The digits that fit into a word are read within a bound. -/
theorem toFloat_within_word (n : UInt64) : FloatWithin (2 ^ 52) 12 n.toFloat :=
  @toFloat_within n (2 ^ 52) 12 (Nat.le_of_lt n.toNat_lt) (by decide) (by decide)

/-- Only finite numbers of 64 bits are read. -/
theorem isFinite_of_toDouble? {n : Numeral} {x : Float} (h : n.toDouble? = some x) :
    x.isFinite := by
  obtain ⟨size, hscale, rfl⟩ := Option.map_eq_some_iff.1 h
  have hwithin := toFloat_within_word (UInt64.ofNat n.significand.value)
  have hsize : size.isFinite := by
    unfold scale? at hscale
    split at hscale
    · exact isFinite_of_scaleUp? hwithin hscale
    · obtain rfl := Option.some.inj hscale
      exact (scaleDown_within hwithin (by decide)).isFinite
  unfold Numeral.signed
  split
  · exact isFinite_neg hsize
  · exact hsize

/-- What is read with 32 bits is a number, or infinite. -/
theorem not_isNaN_of_toSingle? {n : Numeral} {x : Float32} (h : n.toSingle? = some x) :
    ¬ x.isNaN := by
  unfold Numeral.toSingle? at h
  split at h
  · obtain rfl := Option.some.inj h
    split
    · exact not_isNaN_neg_single (not_isNaN_singleOfNat _)
    · exact not_isNaN_singleOfNat _
  · obtain ⟨y, hy, rfl⟩ := Option.map_eq_some_iff.1 h
    exact not_isNaN_narrow (isFinite_of_toDouble? hy)

end BlockData.Number
