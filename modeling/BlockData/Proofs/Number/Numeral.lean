import BlockData.Number.Numeral

/-!
# Decimal digits of a number

The digits that a number is written with: their characters are its text, their value is the
number, and the first of several digits is not zero.  An integer is written as the digits of its
size, after a sign if it is negative.
-/

namespace BlockData.Number

theorem Digit.char_ofNat_of_isDigit {c : Char} (h : c.isDigit) :
    (Digit.ofNat (c.toNat - '0'.toNat)).char = c := by
  have hrange : '0'.toNat ≤ c.toNat ∧ c.toNat ≤ '9'.toNat := by
    simpa [Char.isDigit, Char.le_def, UInt32.le_iff_toNat_le] using h
  have hzero : '0'.toNat = 48 := rfl
  have hnine : '9'.toNat = 57 := rfl
  apply Char.toNat_inj.1
  rw [Digit.char, Digit.ofNat, Nat.toNat_digitChar_of_lt_ten (Nat.mod_lt _ (by decide))]
  omega

theorem Digit.ofNat_digitChar {n : Nat} (h : n < 10) :
    Digit.ofNat ((Nat.digitChar n).toNat - '0'.toNat) = Digit.ofNat n := by
  have hzero : '0'.toNat = 48 := rfl
  rw [hzero, Nat.toNat_digitChar_sub_48_of_lt_ten h]

/-- The digits are the characters of the number's text. -/
theorem map_char_decimalDigits (n : Nat) :
    (decimalDigits n).map Digit.char = Nat.toDigits 10 n := by
  rw [decimalDigits, List.map_map]
  refine (List.map_congr_left ?_).trans (List.map_id _)
  intro c hc
  exact Digit.char_ofNat_of_isDigit (Nat.isDigit_of_mem_toDigits (by decide) (by decide) hc)

/-- A number below ten is one digit, and the last digit of another one follows the digits of
its tenth part. -/
theorem decimalDigits_eq_if (n : Nat) :
    decimalDigits n =
      if n < 10 then [Digit.ofNat n] else decimalDigits (n / 10) ++ [Digit.ofNat n] := by
  unfold decimalDigits
  rw [Nat.toDigits_eq_if (by decide)]
  split
  · next h => rw [List.map_singleton, Digit.ofNat_digitChar h]
  · have hlast : Digit.ofNat (n % 10) = Digit.ofNat n := by
      simp [Digit.ofNat]
    rw [List.map_append, List.map_singleton, Digit.ofNat_digitChar (Nat.mod_lt n (by decide)),
      hlast]

/-- The decimal text of an integer. -/
def decimalText (n : Int) : String :=
  String.ofList ((if n < 0 then ['-'] else []) ++ (decimalDigits n.natAbs).map Digit.char)

/-- Integers are shown as their decimal text. -/
theorem toString_eq_decimalText (n : Int) : toString n = decimalText n := by
  rw [decimalText, map_char_decimalDigits]
  cases n with
  | ofNat n =>
    have hsign : ¬ Int.ofNat n < 0 := Int.not_lt.2 (Int.natCast_nonneg n)
    rw [if_neg hsign, List.nil_append]
    exact Nat.toString_eq_ofList_toDigits
  | negSucc n =>
    rw [if_pos (Int.negSucc_lt_zero n), String.ofList_append]
    exact congrArg ("-" ++ ·) Nat.toString_eq_ofList_toDigits

example : decimalText (-120) = "-120" := by decide

theorem decimalDigits_ne_nil (n : Nat) : decimalDigits n ≠ [] := by
  simp [decimalDigits]

/-- The value of the digits is the number. -/
theorem ofDigits_decimalDigits (n : Nat) : ofDigits (decimalDigits n) = n := by
  -- the digits before the last one are those of the tenth part
  induction n using Nat.strongRecOn with
  | ind n ih =>
    rw [decimalDigits_eq_if]
    split
    · next h => simpa [ofDigits, Digit.ofNat] using h
    · next h =>
      have htenth := ih (n / 10) (by omega)
      unfold ofDigits at htenth ⊢
      rw [List.foldl_append, htenth]
      simp only [List.foldl_cons, List.foldl_nil, Digit.ofNat]
      omega

/-- The first of several digits is not zero. -/
theorem first_ne_zero_of_decimalDigits {n : Nat} {first : Digit} {rest : List Digit}
    (h : decimalDigits n = first :: rest) (hrest : rest ≠ []) : first.val ≠ 0 := by
  induction n using Nat.strongRecOn generalizing rest with
  | ind n ih =>
    rw [decimalDigits_eq_if] at h
    split at h
    · exact absurd (List.cons.inj h).2.symm hrest
    · next hlarge =>
      cases htenth : decimalDigits (n / 10) with
      | nil => exact absurd htenth (decimalDigits_ne_nil _)
      | cons digit digits =>
        have hfirst : digit = first := by
          rw [htenth, List.cons_append] at h
          exact (List.cons.inj h).1
        rw [hfirst] at htenth
        by_cases hmore : digits = []
        · -- two digits: the first one is the tenth part itself
          have hvalue := ofDigits_decimalDigits (n / 10)
          rw [htenth, hmore] at hvalue
          have hvalue : first.val = n / 10 := by simpa [ofDigits] using hvalue
          omega
        · -- more digits: they begin like those of the tenth part
          exact ih (n / 10) (by omega) htenth hmore

end BlockData.Number
