import BlockData.Number.Reading
import Mathlib

/-!
# Rounding never passes a number

A product or a quotient of 64-bit numbers is rounded: bits are shifted out of its mantissa, and
what they were decides about the last bit that is left.  If the exact value is at most a number
with 53 bits, then so is the rounded one: `roundWithAccuracy_within`.  Hence products stay within
the product of bounds, and quotients by powers of ten within the dividend.
-/

namespace BlockData.Number

open Float.Model (UnpackedFloat totalExponent)
open Float.Model.UnpackedFloat (Accuracy ExtendedMantissa Sign roundWithAccuracy
  shiftToTargetExponent shiftToExponent)

/-! ## Shifts -/

/-- The least mantissa that the exact value does not exceed. -/
def ceiling (em : ExtendedMantissa) : Nat :=
  em.mantissa + if em.roundBit || em.stickyBit then 1 else 0

theorem mantissa_shiftRight (em : ExtendedMantissa) (shift : Nat) :
    (em >>> shift).mantissa = em.mantissa / 2 ^ shift := by
  induction shift with
  | zero =>
    rw [Nat.pow_zero, Nat.div_one]
    rfl
  | succ shift ih =>
    show (em >>> shift).mantissa / 2 = _
    rw [ih, Nat.div_div_eq_div_mul, Nat.pow_succ]

theorem ceiling_shiftRightOne_le {em : ExtendedMantissa} {bound : Nat}
    (h : ceiling em ≤ bound * 2) : ceiling em.shiftRightOne ≤ bound := by
  rcases em with ⟨mantissa, roundBit, stickyBit⟩
  -- the bit that is shifted out is one exactly if the mantissa is odd
  have hparity := Nat.mod_two_eq_zero_or_one mantissa
  cases roundBit <;> cases stickyBit <;> rcases hparity with hbit | hbit <;>
    simp [ceiling, ExtendedMantissa.shiftRightOne, hbit] at h ⊢ <;> omega

theorem ceiling_shiftRight_le {em : ExtendedMantissa} {bound shift : Nat}
    (h : ceiling em ≤ bound * 2 ^ shift) : ceiling (em >>> shift) ≤ bound := by
  induction shift generalizing bound with
  | zero =>
    rw [Nat.pow_zero, Nat.mul_one] at h
    exact h
  | succ shift ih =>
    have hshifted : ceiling (em >>> shift) ≤ bound * 2 := by
      apply ih
      rw [Nat.pow_succ] at h
      rwa [Nat.mul_assoc, Nat.mul_comm 2]
    exact ceiling_shiftRightOne_le hshifted

theorem roundedMantissa_le_ceiling (em : ExtendedMantissa) : em.roundedMantissa ≤ ceiling em := by
  rcases em with ⟨mantissa, roundBit, stickyBit⟩
  cases roundBit <;> cases stickyBit <;>
    simp [ceiling, ExtendedMantissa.roundedMantissa, ExtendedMantissa.accuracy,
      Accuracy.roundToNearestEven]
  omega

theorem mantissa_le_roundedMantissa (em : ExtendedMantissa) :
    em.mantissa ≤ em.roundedMantissa := by
  rcases em with ⟨mantissa, roundBit, stickyBit⟩
  cases roundBit <;> cases stickyBit <;>
    simp [ExtendedMantissa.roundedMantissa, ExtendedMantissa.accuracy,
      Accuracy.roundToNearestEven]

/-! ## Bounds -/

/-- The number `m · 2^e` is at most `bound · 2^top`, and has the finer unit. -/
structure Below (m : Nat) (e : Int) (bound : Nat) (top : Int) : Prop where
  exponent : e ≤ top
  mantissa : m ≤ bound * 2 ^ (top - e).toNat

theorem two_pow_toNat_sub {low middle high : Int} (h : low ≤ middle) (h' : middle ≤ high) :
    2 ^ (high - low).toNat = 2 ^ (high - middle).toNat * 2 ^ (middle - low).toNat := by
  rw [← Nat.pow_add]
  congr 1
  omega

theorem Below.trans {m m' bound : Nat} {e e' top : Int} (h : Below m e m' e')
    (h' : Below m' e' bound top) : Below m e bound top where
  exponent := Int.le_trans h.exponent h'.exponent
  mantissa := by
    calc m ≤ m' * 2 ^ (e' - e).toNat := h.mantissa
      _ ≤ bound * 2 ^ (top - e').toNat * 2 ^ (e' - e).toNat :=
          Nat.mul_le_mul_right _ h'.mantissa
      _ = bound * 2 ^ (top - e).toNat := by
          rw [two_pow_toNat_sub h.exponent h'.exponent, Nat.mul_assoc]

theorem Below.mul {m m' bound bound' : Nat} {e e' top top' : Int} (h : Below m e bound top)
    (h' : Below m' e' bound' top') : Below (m * m') (e + e') (bound * bound') (top + top') where
  exponent := Int.add_le_add h.exponent h'.exponent
  mantissa := by
    have hexponent := h.exponent
    have hexponent' := h'.exponent
    have hsum : (top + top' - (e + e')).toNat = (top - e).toNat + (top' - e').toNat := by omega
    calc m * m' ≤ bound * 2 ^ (top - e).toNat * (bound' * 2 ^ (top' - e').toNat) :=
          Nat.mul_le_mul h.mantissa h'.mantissa
      _ = bound * bound' * 2 ^ (top + top' - (e + e')).toNat := by
          rw [hsum, Nat.pow_add]
          ac_rfl

/-- A finite number with at most 53 bits, not below the smallest ones, that is at most
`bound · 2^top` apart from its sign. -/
def Within (bound : Nat) (top : Int) : UnpackedFloat → Prop
  | .zero _ => True
  | .finite _ m e _ => m < 2 ^ 53 ∧ -1074 ≤ e ∧ Below m e bound top
  | .infinity _ | .notANumber => False

theorem Within.trans {m bound : Nat} {e top : Int} {x : UnpackedFloat} (h : Within m e x)
    (h' : Below m e bound top) : Within bound top x := by
  cases x with
  | zero s => trivial
  | finite s m' e' hpos => exact ⟨h.1, h.2.1, h.2.2.trans h'⟩
  | infinity s => exact h.elim
  | notANumber => exact h.elim

/-! ## Rounding -/

theorem targetExponent_eq (m : Nat) (e : Int) :
    Float.Model.Format.binary64.targetExponent (totalExponent m e) =
      max ((m.log2 : Int) + 1 + e - 53) (-1074) := by
  simp [Float.Model.Format.targetExponent, totalExponent, Float.Model.Format.mantissaBits,
    Float.Model.Format.minExponent]

/-- The exponent that a mantissa is shifted to leaves it 53 bits, is not below that of the
smallest numbers, and is not above that of a bound with 53 bits. -/
theorem targetExponent_bounds {m bound : Nat} {e top : Int} (h : Below m e bound top)
    (hbound : bound < 2 ^ 53) (htop : -1074 ≤ top) :
    let target := Float.Model.Format.binary64.targetExponent (totalExponent m e)
    (m.log2 : Int) + 1 + e ≤ target + 53 ∧ -1074 ≤ target ∧ target ≤ top := by
  have hexponent := h.exponent
  -- the number is below its bound, and so are its bits
  have hlog : (m.log2 : Int) + 1 + e - 53 ≤ top := by
    by_cases hm : m = 0
    · rw [hm, Nat.log2_zero]
      omega
    · have hlt : 2 ^ m.log2 < 2 ^ (53 + (top - e).toNat) := by
        calc 2 ^ m.log2 ≤ m := Nat.log2_self_le hm
          _ ≤ bound * 2 ^ (top - e).toNat := h.mantissa
          _ < 2 ^ 53 * 2 ^ (top - e).toNat :=
              Nat.mul_lt_mul_of_pos_right hbound (Nat.two_pow_pos _)
          _ = 2 ^ (53 + (top - e).toNat) := (Nat.pow_add _ _ _).symm
      have hbits := (Nat.pow_lt_pow_iff_right (by decide)).1 hlt
      omega
  rw [targetExponent_eq]
  intro target
  omega

theorem mantissa_ofMantissaAndAccuracy (m : Nat) (accuracy : Accuracy) :
    (ExtendedMantissa.ofMantissaAndAccuracy m accuracy).mantissa = m := by
  rcases accuracy with _ | ⟨_ | _ | _⟩ <;> rfl

/-- A shift to the exponent that a number should have keeps its bound, and leaves 53 bits. -/
theorem shiftToTargetExponent_within {m bound : Nat} {e top : Int} {accuracy : Accuracy}
    (h : Below (ceiling (.ofMantissaAndAccuracy m accuracy)) e bound top)
    (hbound : bound < 2 ^ 53) (htop : -1074 ≤ top) :
    let shifted := shiftToTargetExponent .binary64 m e accuracy
    shifted.1.mantissa < 2 ^ 53 ∧ -1074 ≤ shifted.2 ∧
      Below (ceiling shifted.1) shifted.2 bound top := by
  have hm : Below m e bound top := by
    refine ⟨h.exponent, Nat.le_trans ?_ h.mantissa⟩
    rw [ceiling, mantissa_ofMantissaAndAccuracy]
    exact Nat.le_add_right _ _
  -- the number is shifted until it has the bits that fit
  obtain ⟨hbits, hleast, htarget⟩ := targetExponent_bounds hm hbound htop
  have hexponent := h.exponent
  simp only [shiftToTargetExponent, shiftToExponent]
  generalize Float.Model.Format.binary64.targetExponent (totalExponent m e) = target at *
  generalize hshift : (target - e).toNat = shift
  have htop' : e + shift ≤ top := by omega
  refine ⟨?_, by omega, htop', ceiling_shiftRight_le ?_⟩
  · rw [mantissa_shiftRight, mantissa_ofMantissaAndAccuracy,
      Nat.div_lt_iff_lt_mul (Nat.two_pow_pos shift), ← Nat.pow_add]
    calc m < 2 ^ (m.log2 + 1) := Nat.lt_log2_self
      _ ≤ 2 ^ (53 + shift) := Nat.pow_le_pow_right (by decide) (by omega)
  · have hsplit : (top - e).toNat = (top - (e + shift)).toNat + shift := by omega
    have hceiling := h.mantissa
    rwa [hsplit, Nat.pow_add, ← Nat.mul_assoc] at hceiling

/-- If the exact value does not pass a number with 53 bits, the rounded one does not. -/
theorem roundWithAccuracy_within {m bound : Nat} {e top : Int} {accuracy : Accuracy} (s : Sign)
    (h : Below (ceiling (.ofMantissaAndAccuracy m accuracy)) e bound top)
    (hbound : bound < 2 ^ 53) (htop : -1074 ≤ top) :
    Within bound top (roundWithAccuracy .binary64 s m e accuracy) := by
  obtain ⟨-, -, hfirst⟩ := shiftToTargetExponent_within h hbound htop
  unfold roundWithAccuracy
  generalize shiftToTargetExponent .binary64 m e accuracy = first at hfirst
  rcases first with ⟨em, e'⟩
  -- the rounded mantissa is shifted once more, in case that it has got one bit more
  have hrounded : Below (ceiling (.ofMantissaAndAccuracy em.roundedMantissa .exact)) e'
      bound top :=
    ⟨hfirst.exponent, Nat.le_trans (roundedMantissa_le_ceiling em) hfirst.mantissa⟩
  obtain ⟨hbits, hleast, hsecond⟩ := shiftToTargetExponent_within hrounded hbound htop
  simp only
  generalize shiftToTargetExponent .binary64 em.roundedMantissa e' .exact = second at *
  split
  · trivial
  · have hmantissa : second.1.mantissa ≤ ceiling second.1 := Nat.le_add_right _ _
    exact ⟨hbits, hleast, hsecond.exponent, Nat.le_trans hmantissa hsecond.mantissa⟩

/-- A shift to the exponent that a number should have leaves a mantissa with 53 bits as many. -/
theorem shiftToTargetExponent_full {m : Nat} {e : Int} (accuracy : Accuracy)
    (hfull : 2 ^ 52 ≤ m) (hleast : -1074 ≤ e) :
    let shifted := shiftToTargetExponent .binary64 m e accuracy
    2 ^ 52 ≤ shifted.1.mantissa ∧ -1074 ≤ shifted.2 ∧ (m.log2 : Int) + e ≤ shifted.2 + 52 := by
  have hpos : m ≠ 0 := by omega
  have hlog : 52 ≤ m.log2 := (Nat.le_log2 hpos).2 hfull
  simp only [shiftToTargetExponent, shiftToExponent]
  rw [targetExponent_eq]
  generalize htarget : max ((m.log2 : Int) + 1 + e - 53) (-1074) = target
  generalize hshift : (target - e).toNat = shift
  refine ⟨?_, by omega, by omega⟩
  rw [mantissa_shiftRight, mantissa_ofMantissaAndAccuracy,
    Nat.le_div_iff_mul_le (Nat.two_pow_pos shift), ← Nat.pow_add]
  calc 2 ^ (52 + shift) ≤ 2 ^ m.log2 := Nat.pow_le_pow_right (by decide) (by omega)
    _ ≤ m := Nat.log2_self_le hpos

/-- What has 53 bits at least is rounded to a number with 53 bits, and not to one below the power
of two that its first bit stands for. -/
theorem roundWithAccuracy_full {m : Nat} {e : Int} (s : Sign) (accuracy : Accuracy)
    (hfull : 2 ^ 52 ≤ m) (hleast : -1074 ≤ e) :
    ∃ m' e' hpos, roundWithAccuracy .binary64 s m e accuracy = .finite s m' e' hpos ∧
      2 ^ 52 ≤ m' ∧ (m.log2 : Int) + e ≤ e' + 52 := by
  obtain ⟨hfirst, hleast', hlog⟩ := shiftToTargetExponent_full accuracy hfull hleast
  unfold roundWithAccuracy
  generalize shiftToTargetExponent .binary64 m e accuracy = first at hfirst hleast' hlog
  rcases first with ⟨em, e₁⟩
  have hrounded : 2 ^ 52 ≤ em.roundedMantissa :=
    Nat.le_trans hfirst (mantissa_le_roundedMantissa em)
  obtain ⟨hsecond, -, hlog'⟩ := shiftToTargetExponent_full .exact hrounded hleast'
  simp only
  generalize shiftToTargetExponent .binary64 em.roundedMantissa e₁ .exact = second at *
  have hpos : second.1.mantissa ≠ 0 := by omega
  rw [dif_neg hpos]
  have hbits : 52 ≤ em.roundedMantissa.log2 := (Nat.le_log2 (by omega)).2 hrounded
  exact ⟨second.1.mantissa, second.2, Nat.pos_of_ne_zero hpos, rfl, hsecond, by omega⟩

/-- A product is within the product of two bounds, if this has 53 bits. -/
theorem mul_within {bound bound' most : Nat} {top top' highest : Int} {x y : UnpackedFloat}
    (hx : Within bound top x) (hy : Within bound' top' y)
    (h : Below (bound * bound') (top + top') most highest) (hmost : most < 2 ^ 53)
    (hhighest : -1074 ≤ highest) : Within most highest (UnpackedFloat.mul .binary64 x y) := by
  cases x with
  | zero s =>
    cases y with
    | zero s' => trivial
    | finite s' m' e' hpos' => trivial
    | infinity s' => exact hy.elim
    | notANumber => exact hy.elim
  | finite s m e hpos =>
    cases y with
    | zero s' => trivial
    | finite s' m' e' hpos' =>
      -- the sizes multiply, and the product is rounded within its bound
      have hproduct := (hx.2.2.mul hy.2.2).trans h
      exact roundWithAccuracy_within _ hproduct hmost hhighest
    | infinity s' => exact hy.elim
    | notANumber => exact hy.elim
  | infinity s => exact hx.elim
  | notANumber => exact hx.elim

/-! ## Quotients -/

theorem ceiling_accuracyOfFraction (quotient rest divisor : Nat) :
    ceiling (.ofMantissaAndAccuracy quotient
        (UnpackedFloat.accuracyOfFraction rest divisor)) =
      quotient + if rest = 0 then 0 else 1 := by
  unfold UnpackedFloat.accuracyOfFraction
  by_cases hrest : rest = 0
  · simp [hrest, ExtendedMantissa.ofMantissaAndAccuracy, ceiling]
  · rw [if_neg hrest, if_neg hrest]
    cases compare (2 * rest) divisor <;> rfl

/-- A quotient that is rounded up is the least number whose product is not smaller. -/
theorem div_add_le {m divisor bound : Nat} (h : m ≤ bound * divisor) :
    (m / divisor + if m % divisor = 0 then 0 else 1) ≤ bound := by
  have hsplit := Nat.div_add_mod m divisor
  split
  · next hrest =>
    rcases Nat.eq_zero_or_pos divisor with rfl | hpos
    · simp
    · exact Nat.div_le_of_le_mul (by rwa [Nat.mul_comm] at h)
  · next hrest =>
    apply Nat.succ_le_of_lt
    apply Nat.lt_of_mul_lt_mul_left (a := divisor)
    rw [Nat.mul_comm divisor bound]
    omega

/-- A quotient by a number that is not below one is within the dividend. -/
theorem div_within {bound : Nat} {top : Int} {x : UnpackedFloat} (hx : Within bound top x)
    (s' : Sign) {m' : Nat} {e' : Int} (hpos' : 0 < m') (hone : 2 ^ (-e').toNat ≤ m') :
    Within bound top (UnpackedFloat.div .binary64 x (.finite s' m' e' hpos')) := by
  cases x with
  | zero s => trivial
  | infinity s => exact hx.elim
  | notANumber => exact hx.elim
  | finite s m e hpos =>
    obtain ⟨hbits, hleast, hbelow⟩ := hx
    have hlog : m.log2 < 53 := (Nat.log2_lt (Nat.ne_of_gt hpos)).2 hbits
    have hlog' : (-e').toNat ≤ m'.log2 := (Nat.le_log2 (Nat.ne_of_gt hpos')).2 hone
    have htarget : Float.Model.Format.binary64.targetExponent
        (totalExponent m e - totalExponent m' e') ≤ e := by
      simp only [Float.Model.Format.targetExponent, totalExponent,
        Float.Model.Format.mantissaBits, Float.Model.Format.minExponent]
      omega
    refine Within.trans ?_ hbelow
    show Within m e (roundWithAccuracy .binary64 (s / s') _ _ _)
    generalize Float.Model.Format.binary64.targetExponent
      (totalExponent m e - totalExponent m' e') = target at htarget ⊢
    apply roundWithAccuracy_within _ ?_ hbits hleast
    rw [ceiling_accuracyOfFraction]
    refine ⟨by omega, div_add_le ?_⟩
    -- the dividend has been shifted to the exponent of the quotient
    have hshift : (e - e' - min (e - e') target).toNat ≤
        (e - min (e - e') target).toNat + (-e').toNat := by omega
    calc m <<< (e - e' - min (e - e') target).toNat
        = m * 2 ^ (e - e' - min (e - e') target).toNat := Nat.shiftLeft_eq _ _
      _ ≤ m * 2 ^ ((e - min (e - e') target).toNat + (-e').toNat) :=
          Nat.mul_le_mul_left _ (Nat.pow_le_pow_right (by decide) hshift)
      _ = m * 2 ^ (e - min (e - e') target).toNat * 2 ^ (-e').toNat := by
          rw [Nat.pow_add, Nat.mul_assoc]
      _ ≤ m * 2 ^ (e - min (e - e') target).toNat * m' := Nat.mul_le_mul_left _ hone

end BlockData.Number
