import BlockData.Proofs.Number.Numeral
import BlockData.Proofs.Number.Reading

/-!
# Numerals that are printed can be read

A numeral whose whole part fits into a word is read if the decimal number that it stands for
stays a few units below the largest number.  The shortest numeral of a number stands for a
decimal number in the interval around it, and so is read.  Only the last eight numbers of 64
bits lie too near to the end for that; their numerals are read one by one.

* `Numeral.isSome_toDouble?` is about numerals;
* `isSome_toDouble?_of_doubleNumeral?` and `isSome_toSingle?_of_singleNumeral?` are about numbers.
-/

namespace BlockData.Number

/-! ## Values of digits -/

/-- The number that a row of digits makes when it goes on from a number. -/
def appendDigits (n : Nat) (digits : List Digit) : Nat :=
  digits.foldl (fun n d => 10 * n + d.val) n

theorem appendDigits_cons (n : Nat) (d : Digit) (rest : List Digit) :
    appendDigits n (d :: rest) = appendDigits (10 * n + d.val) rest :=
  rfl

theorem ofDigits_append (front back : List Digit) :
    ofDigits (front ++ back) = appendDigits (ofDigits front) back :=
  List.foldl_append

theorem appendDigits_decimalDigits (n : Nat) : appendDigits 0 (decimalDigits n) = n :=
  ofDigits_decimalDigits n

theorem mul_pow_le_appendDigits (n : Nat) (digits : List Digit) :
    n * 10 ^ digits.length ≤ appendDigits n digits := by
  induction digits generalizing n with
  | nil => simp [appendDigits]
  | cons d rest ih =>
    calc n * 10 ^ (d :: rest).length = 10 * n * 10 ^ rest.length := by
          rw [List.length_cons, Nat.pow_succ]
          ac_rfl
      _ ≤ (10 * n + d.val) * 10 ^ rest.length := Nat.mul_le_mul_right _ (Nat.le_add_right _ _)
      _ ≤ appendDigits n (d :: rest) := ih _

theorem le_appendDigits (n : Nat) (digits : List Digit) : n ≤ appendDigits n digits :=
  Nat.le_trans (Nat.le_mul_of_pos_right _ (Nat.pow_pos (by decide)))
    (mul_pow_le_appendDigits n digits)

theorem appendDigits_lt (n : Nat) (digits : List Digit) :
    appendDigits n digits < (n + 1) * 10 ^ digits.length := by
  induction digits generalizing n with
  | nil => simp [appendDigits]
  | cons d rest ih =>
    have hdigit := d.isLt
    calc appendDigits n (d :: rest) < (10 * n + d.val + 1) * 10 ^ rest.length := ih _
      _ ≤ (n + 1) * 10 * 10 ^ rest.length := Nat.mul_le_mul_right _ (by omega)
      _ = (n + 1) * 10 ^ (d :: rest).length := by
          rw [List.length_cons, Nat.pow_succ]
          ac_rfl

theorem ofDigits_lt (digits : List Digit) : ofDigits digits < 10 ^ digits.length := by
  have hlt := appendDigits_lt 0 digits
  rwa [Nat.zero_add, Nat.one_mul] at hlt

theorem lt_pow_length_decimalDigits (n : Nat) : n < 10 ^ (decimalDigits n).length := by
  have hlt := ofDigits_lt (decimalDigits n)
  rwa [ofDigits_decimalDigits] at hlt

/-- Digits are worth the same wherever they are cut. -/
theorem appendDigits_drop (count : Nat) (digits : List Digit) :
    appendDigits (ofDigits (digits.take count)) (digits.drop count) = ofDigits digits := by
  rw [← ofDigits_append, List.take_append_drop]

/-- Zeros in front are worth nothing. -/
theorem appendDigits_zeros (count : Nat) (digits : List Digit) :
    appendDigits 0 (List.replicate count .zero ++ digits) = ofDigits digits := by
  induction count with
  | zero => rfl
  | succ count ih =>
    rw [List.replicate_succ, List.cons_append, appendDigits_cons]
    exact ih

/-! ## Significands -/

namespace Significand

/-- A significand stands for no more than a decimal number, and has the coarser places. -/
structure Covers (s : Significand) (digits : Nat) (place : Int) : Prop where
  coarser : place ≤ s.exponent
  le : s.value * 10 ^ (s.exponent - place).toNat ≤ digits

theorem push?_eq_some {s : Significand} {d : Digit} {value : Nat} (h : s.push? d = some value) :
    value = 10 * s.value + d.val ∧ value < UInt64.size := by
  unfold push? at h
  split at h
  · next hlt =>
    obtain rfl := Option.some.inj h
    exact ⟨rfl, hlt⟩
  · simp at h

/-- A whole part that fits into a word is taken in. -/
theorem pushWhole_of_fits (s : Significand) (digits : List Digit)
    (h : appendDigits s.value digits < UInt64.size) :
    s.pushWhole digits = { s with value := appendDigits s.value digits } := by
  induction digits generalizing s with
  | nil => rfl
  | cons d rest ih =>
    rw [appendDigits_cons] at h ⊢
    have hpush : s.push? d = some (10 * s.value + d.val) :=
      if_pos (Nat.lt_of_le_of_lt (le_appendDigits _ rest) h)
    rw [pushWhole, hpush]
    exact ih _ h

/-- The digits of a fraction that are dropped only make the number smaller. -/
theorem pushFraction_covers (s : Significand) (digits : List Digit) :
    (s.pushFraction digits).Covers (appendDigits s.value digits)
      (s.exponent - digits.length) := by
  induction digits generalizing s with
  | nil => exact ⟨by simp [pushFraction], by simp [pushFraction, appendDigits]⟩
  | cons d rest ih =>
    unfold pushFraction
    cases hpush : s.push? d with
    | none =>
      -- the other digits are cut off
      have hplaces : (s.exponent - (s.exponent - (d :: rest).length)).toNat =
          (d :: rest).length := by omega
      refine ⟨Int.sub_le_self _ (Int.natCast_nonneg _), ?_⟩
      rw [hplaces]
      exact mul_pow_le_appendDigits s.value (d :: rest)
    | some value =>
      obtain ⟨rfl, -⟩ := push?_eq_some hpush
      have hrest := ih ⟨10 * s.value + d.val, s.exponent - 1⟩
      have hplace : s.exponent - 1 - rest.length = s.exponent - (d :: rest).length := by
        rw [List.length_cons]
        omega
      rwa [hplace] at hrest

theorem pushFraction_lt {s : Significand} (h : s.value < UInt64.size) (digits : List Digit) :
    (s.pushFraction digits).value < UInt64.size := by
  induction digits generalizing s with
  | nil => exact h
  | cons d rest ih =>
    unfold pushFraction
    cases hpush : s.push? d with
    | none => exact h
    | some value => exact ih (push?_eq_some hpush).2

end Significand

/-! ## Values of numerals -/

/-- The decimal number that a numeral stands for, its sign apart. -/
def Numeral.scaled (n : Numeral) : Scaled :=
  ⟨ofDigits (decimalDigits n.whole ++ n.fraction), n.exponent.getD 0 - n.fraction.length⟩

/-- A decimal number is at most a whole number. -/
def Scaled.AtMost (number : Scaled) (bound : Nat) : Prop :=
  number.digits * 10 ^ number.place.toNat ≤ bound * 10 ^ (-number.place).toNat

/-- The significand of a numeral fits into a word, and stands for no more than the numeral. -/
theorem Numeral.significand_covers {n : Numeral} (h : n.whole < UInt64.size) :
    n.significand.value < UInt64.size ∧
      n.significand.Covers n.scaled.digits n.scaled.place := by
  have hwhole : (Significand.mk 0 0).pushWhole (decimalDigits n.whole) = ⟨n.whole, 0⟩ := by
    have hfits : appendDigits 0 (decimalDigits n.whole) < UInt64.size := by
      rwa [appendDigits_decimalDigits]
    rw [Significand.pushWhole_of_fits ⟨0, 0⟩ _ hfits, appendDigits_decimalDigits]
  obtain ⟨hplace, hdigits⟩ := Significand.pushFraction_covers ⟨n.whole, 0⟩ n.fraction
  have hlt : ((Significand.mk n.whole 0).pushFraction n.fraction).value < UInt64.size :=
    Significand.pushFraction_lt h n.fraction
  simp only [significand, scaled, hwhole]
  rw [ofDigits_append, ofDigits_decimalDigits]
  refine ⟨hlt, ?_, ?_⟩
  · simp only at hplace ⊢
    omega
  · -- the exponent part moves both by as many places
    have hplaces : ∀ e e' l : Int, e + e' - (e' - l) = e - (0 - l) := by omega
    rwa [hplaces]

/-- A numeral is read if its whole part fits into a word, and it stands for a number that stays
a few units below the largest one. -/
theorem Numeral.isSome_toDouble? {n : Numeral} (hwhole : n.whole < UInt64.size)
    (h : n.scaled.AtMost greatest) : n.toDouble?.isSome := by
  obtain ⟨hvalue, hplace, hdigits⟩ := n.significand_covers hwhole
  simp only [toDouble?, Option.isSome_map]
  unfold scale?
  split
  · next hexponent =>
    apply isSome_scaleUp? hvalue
    -- the places of the numeral that lie behind the point are among its digits
    have hplaces : n.significand.exponent.toNat + (-n.scaled.place).toNat =
        (n.significand.exponent - n.scaled.place).toNat + n.scaled.place.toNat := by omega
    have hscaled : n.significand.value * 10 ^ n.significand.exponent.toNat *
        10 ^ (-n.scaled.place).toNat ≤ greatest * 10 ^ (-n.scaled.place).toNat := by
      calc n.significand.value * 10 ^ n.significand.exponent.toNat * 10 ^ (-n.scaled.place).toNat
          = n.significand.value * 10 ^ (n.significand.exponent - n.scaled.place).toNat *
              10 ^ n.scaled.place.toNat := by
            rw [Nat.mul_assoc, ← Nat.pow_add, hplaces, Nat.pow_add, Nat.mul_assoc]
        _ ≤ n.scaled.digits * 10 ^ n.scaled.place.toNat := Nat.mul_le_mul_right _ hdigits
        _ ≤ greatest * 10 ^ (-n.scaled.place).toNat := h
    exact Nat.le_of_mul_le_mul_right hscaled (Nat.pow_pos (by decide))
  · rfl

/-! ## Layout -/

/-- However a decimal number is laid out, the numeral stands for it; a whole number gets one more
digit behind the point. -/
theorem Spelling.scaled_numeral (spelling : Spelling) (negative : Bool) (number : Scaled) :
    (spelling.numeral negative number).scaled = number ∨
      0 ≤ number.place ∧ (spelling.numeral negative number).scaled =
        ⟨10 * (number.digits * 10 ^ number.place.toNat), -1⟩ := by
  have hlength : 0 < (decimalDigits number.digits).length :=
    List.length_pos_iff.2 (decimalDigits_ne_nil _)
  have hvalue := ofDigits_decimalDigits number.digits
  unfold numeral
  generalize decimalDigits number.digits = digits at hlength hvalue
  simp only [Numeral.scaled, ofDigits_append, ofDigits_decimalDigits]
  split
  · next hwhole =>
    -- a whole number that is written out gets a zero behind the point
    exact .inr ⟨hwhole.1, rfl⟩
  · next hwhole =>
    left
    rcases number with ⟨value, place⟩
    simp only at hvalue hwhole ⊢
    split
    · next hpoint =>
      -- the point stands between the digits
      rw [appendDigits_drop, hvalue, List.length_drop]
      congr 1
      show (0 : Int) - _ = place
      omega
    · split
      · next hzeros =>
        -- zeros stand before the digits
        rw [appendDigits_zeros, hvalue, List.length_append, List.length_replicate]
        congr 1
        show (0 : Int) - _ = place
        omega
      · -- the first digit stands alone, and the rest is left to the exponent
        rw [appendDigits_drop, hvalue, List.length_drop]
        congr 1
        show (digits.length + place - 1 : Int) - _ = place
        omega

theorem Scaled.AtMost.numeral {number : Scaled} {bound : Nat} (h : number.AtMost bound)
    (spelling : Spelling) (negative : Bool) :
    (spelling.numeral negative number).scaled.AtMost bound := by
  rcases spelling.scaled_numeral negative number with heq | ⟨hplace, heq⟩
  · rw [heq]
    exact h
  · have hplaces : (-number.place).toNat = 0 := by omega
    rw [heq]
    unfold AtMost at h ⊢
    rw [hplaces] at h
    simp only
    show 10 * (number.digits * 10 ^ number.place.toNat) * 10 ^ 0 ≤ bound * 10 ^ 1
    omega

/-- The whole part of what is laid out has as many digits as there may be places in front of the
point. -/
theorem Spelling.whole_numeral_lt {spelling : Spelling} (h : 0 < spelling.wholePlaces)
    (negative : Bool) (number : Scaled) :
    (spelling.numeral negative number).whole < 10 ^ spelling.wholePlaces := by
  have hdigits := lt_pow_length_decimalDigits number.digits
  unfold numeral
  generalize decimalDigits number.digits = digits at hdigits
  simp only
  split
  · next hwhole =>
    calc number.digits * 10 ^ number.place.toNat
        < 10 ^ digits.length * 10 ^ number.place.toNat :=
          Nat.mul_lt_mul_of_pos_right hdigits (Nat.pow_pos (by decide))
      _ = 10 ^ (digits.length + number.place.toNat) := (Nat.pow_add _ _ _).symm
      _ ≤ 10 ^ spelling.wholePlaces := Nat.pow_le_pow_right (by decide) (by omega)
  · split
    · next hpoint =>
      calc ofDigits (digits.take (digits.length + number.place).toNat)
          < 10 ^ (digits.take (digits.length + number.place).toNat).length := ofDigits_lt _
        _ ≤ 10 ^ spelling.wholePlaces := by
          apply Nat.pow_le_pow_right (by decide)
          rw [List.length_take]
          omega
    · split
      · exact Nat.pow_pos (by decide)
      · calc ofDigits (digits.take 1) < 10 ^ (digits.take 1).length := ofDigits_lt _
          _ ≤ 10 ^ spelling.wholePlaces := by
            apply Nat.pow_le_pow_right (by decide)
            rw [List.length_take]
            omega

/-- What is laid out is read, if it stays a few units below the largest number. -/
theorem Spelling.isSome_toDouble?_numeral {spelling : Spelling} (hpos : 0 < spelling.wholePlaces)
    (hmost : spelling.wholePlaces ≤ 16) (negative : Bool) {number : Scaled}
    (h : number.AtMost greatest) : (spelling.numeral negative number).toDouble?.isSome := by
  have hwhole : (spelling.numeral negative number).whole < UInt64.size := by
    calc (spelling.numeral negative number).whole < 10 ^ spelling.wholePlaces :=
          spelling.whole_numeral_lt hpos negative number
      _ ≤ 10 ^ 16 := Nat.pow_le_pow_right (by decide) hmost
      _ ≤ UInt64.size := by decide
  exact Numeral.isSome_toDouble? hwhole (h.numeral spelling negative)

/-! ## Shortest numbers -/

namespace Interval

theorem holds_of_onGrid? {i : Interval} {place : Int} {n : Nat} (h : i.onGrid? place = some n) :
    i.holds place n := by
  simp only [onGrid?] at h
  split at h
  · simp at h
  · next hbelow _ =>
    obtain rfl := Option.some.inj h
    exact hbelow
  · next _ habove =>
    obtain rfl := Option.some.inj h
    exact habove
  · next hbelow habove =>
    split at h
    · obtain rfl := Option.some.inj h
      exact hbelow
    · obtain rfl := Option.some.inj h
      exact habove

theorem holds_of_coarsest? {i : Interval} {place : Int} {count : Nat} {number : Scaled}
    (h : i.coarsest? place count = some number) : i.holds number.place number.digits := by
  induction count generalizing place with
  | zero => simp [coarsest?] at h
  | succ count ih =>
    unfold coarsest? at h
    split at h
    · next hgrid =>
      obtain rfl := Option.some.inj h
      exact holds_of_onGrid? hgrid
    · exact ih h

theorem le_of_holds {i : Interval} {place : Int} {n : Nat} (h : i.holds place n) :
    n * i.step place ≤ i.high * i.unit place := by
  simp only [holds] at h
  split at h
  · simp only [Bool.and_eq_true, decide_eq_true_eq] at h
    exact h.2
  · simp only [Bool.and_eq_true, decide_eq_true_eq] at h
    exact Nat.le_of_lt h.2

/-- A number in an interval is at most the end of the interval. -/
theorem atMost_of_holds {i : Interval} {number : Scaled} {bound : Nat}
    (h : i.holds number.place number.digits) (hhigh : i.high * 2 ^ i.exponent.toNat ≤ bound) :
    number.AtMost bound := by
  have hle := le_of_holds h
  unfold step unit at hle
  simp only [twoTo_eq_two_pow] at hle
  calc number.digits * 10 ^ number.place.toNat
      ≤ number.digits * (2 ^ (-i.exponent).toNat * 10 ^ number.place.toNat) :=
        Nat.mul_le_mul_left _ (Nat.le_mul_of_pos_left _ (Nat.two_pow_pos _))
    _ ≤ i.high * (2 ^ i.exponent.toNat * 10 ^ (-number.place).toNat) := hle
    _ = i.high * 2 ^ i.exponent.toNat * 10 ^ (-number.place).toNat :=
        (Nat.mul_assoc _ _ _).symm
    _ ≤ bound * 10 ^ (-number.place).toNat := Nat.mul_le_mul_right _ hhigh

end Interval

/-- The shortest number is at most half a unit above the number that it is found for. -/
theorem Format.shortest_atMost (f : Format) {m bound : Nat} {e : Int}
    (h : (4 * m + 2) * 2 ^ (e - 2).toNat ≤ bound) : (f.shortest m e).AtMost bound := by
  simp only [shortest]
  cases hfound : (f.interval m e).coarsest? (f.interval m e).placeBound 24 with
  | none => simp [Scaled.AtMost]
  | some number => exact Interval.atMost_of_holds (Interval.holds_of_coarsest? hfound) h

/-- All but the last eight numbers of 64 bits stay a few units below the largest one. -/
theorem shortest_le_greatest {m : Nat} {e : Int} (hm : m < 2 ^ 53) (he : e ≤ 971)
    (hlast : e = 971 → m + 8 < 2 ^ 53) : (4 * m + 2) * 2 ^ (e - 2).toNat ≤ greatest := by
  have hroom : ∃ k, 4 * m + 2 ≤ (2 ^ 53 - 8) * 2 ^ k ∧ k + (e - 2).toNat ≤ 971 := by
    by_cases htop : e = 971
    · have hmantissa := hlast htop
      exact ⟨2, by omega, by omega⟩
    · exact ⟨3, by omega, by omega⟩
  obtain ⟨k, hmantissa, hplaces⟩ := hroom
  calc (4 * m + 2) * 2 ^ (e - 2).toNat
      ≤ (2 ^ 53 - 8) * 2 ^ k * 2 ^ (e - 2).toNat := Nat.mul_le_mul_right _ hmantissa
    _ = (2 ^ 53 - 8) * 2 ^ (k + (e - 2).toNat) := by rw [Nat.mul_assoc, ← Nat.pow_add]
    _ ≤ greatest := mul_two_pow_le_greatest hplaces

/-! ## Printed numerals -/

theorem isSome_toDouble?_zero (negative : Bool) :
    (Numeral.mk negative 0 [.zero] none).toDouble?.isSome := by
  have hzero : ofDigits (decimalDigits 0 ++ [.zero]) = 0 := by decide
  apply Numeral.isSome_toDouble? (by decide : 0 < UInt64.size)
  simp [Scaled.AtMost, Numeral.scaled, hzero]

/-- The last eight numbers of 64 bits are read again. -/
theorem isSome_toDouble?_last (negative : Bool) :
    ∀ i < 8, (Spelling.double.numeral negative
      (Format.double.shortest (2 ^ 53 - 1 - i) 971)).toDouble?.isSome := by
  cases negative <;> decide +kernel

/-- A word that has a numeral stands for zero, or for a number in the range of the format whose
shortest form is laid out. -/
theorem Format.numeral?_eq_some {f : Format} {spelling : Spelling} {word : Nat} {n : Numeral}
    (hpos : 0 < f.exponentBits) (h : f.numeral? spelling word = some n) :
    ∃ m e negative, m < 2 ^ (f.fractionBits + 1) ∧
      e ≤ f.leastExponent + (2 ^ f.exponentBits - 3 : Nat) ∧
      n = if m = 0 then ⟨negative, 0, [.zero], none⟩
        else spelling.numeral negative (f.shortest m e) := by
  rcases magnitude_cases f hpos word with ⟨-, hnone⟩ | ⟨-, m, e, hvalue, hm, he⟩
  · obtain ⟨m, e, hvalue⟩ := (isSome_numeral?_iff f spelling word).1 (by rw [h]; rfl)
    exact absurd hvalue (hnone m e)
  · simp only [numeral?, hvalue] at h
    exact ⟨m, e, _, hm, he, (Option.some.inj h).symm⟩

/-- The numeral of a number of 64 bits is read. -/
theorem isSome_toDouble?_of_doubleNumeral? {x : Float} {n : Numeral}
    (h : doubleNumeral? x = some n) : n.toDouble?.isSome := by
  obtain ⟨m, e, negative, hm, he, rfl⟩ := Format.numeral?_eq_some (by decide) h
  have hbits : m < 2 ^ 53 := hm
  have htop : e ≤ 971 := he
  split
  · exact isSome_toDouble?_zero negative
  · by_cases hlast : e = 971 ∧ 2 ^ 53 ≤ m + 8
    · obtain ⟨rfl, hlarge⟩ := hlast
      have hindex : m = 2 ^ 53 - 1 - (2 ^ 53 - 1 - m) := by omega
      rw [hindex]
      exact isSome_toDouble?_last negative _ (by omega)
    · apply Spelling.isSome_toDouble?_numeral (by decide) (by decide)
      apply Format.shortest_atMost
      exact shortest_le_greatest hbits htop (by omega)

/-- The numeral of a number of 32 bits is read with 64 bits, too. -/
theorem isSome_toDouble?_of_singleNumeral? {x : Float32} {n : Numeral}
    (h : singleNumeral? x = some n) : n.toDouble?.isSome := by
  obtain ⟨m, e, negative, hm, he, rfl⟩ := Format.numeral?_eq_some (by decide) h
  have hbits : m < 2 ^ 24 := hm
  have htop : e ≤ 104 := he
  split
  · exact isSome_toDouble?_zero negative
  · apply Spelling.isSome_toDouble?_numeral (by decide) (by decide)
    apply Format.shortest_atMost
    exact shortest_le_greatest (by omega) (by omega) (by omega)

/-- The numeral of a number of 32 bits is read. -/
theorem isSome_toSingle?_of_singleNumeral? {x : Float32} {n : Numeral}
    (h : singleNumeral? x = some n) : n.toSingle?.isSome := by
  unfold Numeral.toSingle?
  split
  · rfl
  · rw [Option.isSome_map]
    exact isSome_toDouble?_of_singleNumeral? h

end BlockData.Number
