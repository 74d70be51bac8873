import BlockData.Json.Token
import BlockData.Proofs.Number.Numeral

/-!
# Numbers are read as they are written

The text of a numeral is read as this numeral, if nothing follows that would continue it:
one lemma for each part of a number, and `scanNumber_text` for the whole.
-/

namespace BlockData.Json

open Number (Numeral Digit)

/-- A text does not begin with a digit. -/
def NoDigitAhead (rest : List Char) : Prop :=
  ∀ c ∈ rest.head?, digit? c = none

/-- A text does not begin with a character that continues a number. -/
def NoNumberAhead (rest : List Char) : Prop :=
  ∀ c ∈ rest.head?, digit? c = none ∧ c ≠ '.' ∧ c ≠ 'e' ∧ c ≠ 'E'

theorem NoNumberAhead.noDigitAhead {rest : List Char} (h : NoNumberAhead rest) :
    NoDigitAhead rest :=
  fun c hc => (h c hc).1

theorem noDigitAhead_cons {c : Char} (h : digit? c = none) (rest : List Char) :
    NoDigitAhead (c :: rest) := by
  intro x hx
  obtain rfl := Option.some.inj hx
  exact h

/-! ## Digits -/

theorem digit?_char (d : Digit) : digit? d.char = some d := by
  revert d
  decide

/-- A row of digits is read to its end. -/
theorem scanDigits_append (digits : List Digit) {rest : List Char} (h : NoDigitAhead rest) :
    scanDigits (digits.map Digit.char ++ rest) = (digits, rest) := by
  induction digits with
  | nil =>
    cases rest with
    | nil => rfl
    | cons c rest =>
      have hc : digit? c = none := h c rfl
      simp [scanDigits, hc]
  | cons d digits ih => simp [scanDigits, digit?_char, ih]

theorem scanDigits_toDigits (n : Nat) {rest : List Char} (h : NoDigitAhead rest) :
    scanDigits (Nat.toDigits 10 n ++ rest) = (Number.decimalDigits n, rest) := by
  rw [← Number.map_char_decimalDigits]
  exact scanDigits_append _ h

/-! ## Parts of a number -/

theorem scanWhole_toDigits (n : Nat) {rest : List Char} (h : NoDigitAhead rest) :
    scanWhole (Nat.toDigits 10 n ++ rest) = some (n, rest) := by
  have hvalue := Number.ofDigits_decimalDigits n
  unfold scanWhole
  rw [scanDigits_toDigits n h]
  cases hdigits : Number.decimalDigits n with
  | nil => exact absurd hdigits (Number.decimalDigits_ne_nil n)
  | cons first digits =>
    rw [hdigits] at hvalue
    cases digits with
    | nil =>
      -- a single digit may be zero
      have hone : first.val = n := by simpa [Number.ofDigits] using hvalue
      simp [hone]
    | cons second digits =>
      -- the first of several digits may not
      have hne := Number.first_ne_zero_of_decimalDigits hdigits (by simp)
      simp [hne, hvalue]

/-- The text of a fraction, with its point if there are digits. -/
def fractionText (digits : List Digit) : List Char :=
  if digits = [] then [] else '.' :: digits.map Digit.char

/-- The text of an exponent. -/
def exponentText : Option Int → List Char
  | none => []
  | some e => 'e' :: (if e < 0 then '-' else '+') :: Nat.toDigits 10 e.natAbs

theorem numeral_text_eq (n : Numeral) :
    n.text = (if n.negative then ['-'] else []) ++
      (Nat.toDigits 10 n.whole ++ (fractionText n.fraction ++ exponentText n.exponent)) := by
  unfold Numeral.text fractionText
  cases n.exponent <;> simp [exponentText, List.append_assoc]

theorem scanFraction_fractionText (digits : List Digit) {rest : List Char}
    (h : NoDigitAhead rest) (hpoint : rest.head? ≠ some '.') :
    scanFraction (fractionText digits ++ rest) = some (digits, rest) := by
  unfold fractionText
  split
  · next hnil =>
    subst hnil
    unfold scanFraction
    split
    · next hdot => exact absurd (by rw [List.nil_append] at hdot; rw [hdot]; rfl) hpoint
    · rfl
  · next hne =>
    rcases List.exists_cons_of_ne_nil hne with ⟨first, more, rfl⟩
    rw [List.cons_append, scanFraction, scanDigits_append _ h]

theorem scanExponentDigits_toDigits (negative : Bool) (n : Nat) {rest : List Char}
    (h : NoDigitAhead rest) :
    scanExponentDigits negative (Nat.toDigits 10 n ++ rest) =
      some (some (if negative then -(n : Int) else n), rest) := by
  have hvalue := Number.ofDigits_decimalDigits n
  unfold scanExponentDigits
  rw [scanDigits_toDigits n h]
  cases hdigits : Number.decimalDigits n with
  | nil => exact absurd hdigits (Number.decimalDigits_ne_nil n)
  | cons first digits =>
    rw [hdigits] at hvalue
    simp [hvalue]

theorem scanExponent_exponentText (exponent : Option Int) {rest : List Char}
    (h : NoNumberAhead rest) :
    scanExponent (exponentText exponent ++ rest) = some (exponent, rest) := by
  cases exponent with
  -- no letter of an exponent follows
  | none =>
    cases rest with
    | nil => rfl
    | cons c rest =>
      rcases h c rfl with ⟨-, -, hlower, hupper⟩
      simp [exponentText, scanExponent, hlower, hupper]
  | some e =>
    by_cases hneg : e < 0
    · have hsize : -(e.natAbs : Int) = e := by omega
      have htext : exponentText (some e) = 'e' :: '-' :: Nat.toDigits 10 e.natAbs := by
        rw [exponentText, if_pos hneg]
      calc scanExponent (exponentText (some e) ++ rest)
          = scanExponentDigits true (Nat.toDigits 10 e.natAbs ++ rest) := by rw [htext]; rfl
        _ = some (some e, rest) := by
            rw [scanExponentDigits_toDigits true _ h.noDigitAhead, if_pos rfl, hsize]
    · have hsize : (e.natAbs : Int) = e := by omega
      have htext : exponentText (some e) = 'e' :: '+' :: Nat.toDigits 10 e.natAbs := by
        rw [exponentText, if_neg hneg]
      calc scanExponent (exponentText (some e) ++ rest)
          = scanExponentDigits false (Nat.toDigits 10 e.natAbs ++ rest) := by rw [htext]; rfl
        _ = some (some e, rest) := by
            rw [scanExponentDigits_toDigits false _ h.noDigitAhead, if_neg (by decide), hsize]

/-! ## Numbers -/

/-- What follows the whole part does not continue it. -/
theorem noDigitAhead_fractionText (digits : List Digit) (exponent : Option Int)
    {rest : List Char} (h : NoNumberAhead rest) :
    NoDigitAhead (fractionText digits ++ (exponentText exponent ++ rest)) := by
  unfold fractionText
  split
  · cases exponent with
    | none => exact h.noDigitAhead
    | some e => exact noDigitAhead_cons (by decide) _
  · exact noDigitAhead_cons (by decide) _

/-- What follows a fraction does not continue it. -/
theorem noDigitAhead_exponentText (exponent : Option Int) {rest : List Char}
    (h : NoNumberAhead rest) :
    NoDigitAhead (exponentText exponent ++ rest) ∧
      (exponentText exponent ++ rest).head? ≠ some '.' := by
  cases exponent with
  | none => exact ⟨h.noDigitAhead, fun hpoint => (h '.' hpoint).2.1 rfl⟩
  | some e => exact ⟨noDigitAhead_cons (by decide) _, by simp [exponentText]⟩

/-- The text of a numeral, after its sign, is read as the numeral. -/
theorem scanNumber_text (n : Numeral) {rest : List Char} (h : NoNumberAhead rest) :
    scanNumber n.negative (Nat.toDigits 10 n.whole ++
        (fractionText n.fraction ++ (exponentText n.exponent ++ rest))) = some (n, rest) := by
  rcases noDigitAhead_exponentText n.exponent h with ⟨hdigit, hpoint⟩
  unfold scanNumber
  rw [scanWhole_toDigits _ (noDigitAhead_fractionText _ _ h)]
  simp only [scanFraction_fractionText _ hdigit hpoint, scanExponent_exponentText _ h]

/-- A digit begins a number and no other token. -/
theorem scan_digit (d : Digit) (rest : List Char) :
    Token.scan (d.char :: rest) =
      (scanNumber false (d.char :: rest)).map fun (numeral, rest) => (.number numeral, rest) := by
  match d with
  | 0 => rfl
  | 1 => rfl
  | 2 => rfl
  | 3 => rfl
  | 4 => rfl
  | 5 => rfl
  | 6 => rfl
  | 7 => rfl
  | 8 => rfl
  | 9 => rfl

/-- The text of a numeral is read as one token. -/
theorem scan_number (n : Numeral) {rest : List Char} (h : NoNumberAhead rest) :
    Token.scan (n.text ++ rest) = some (.number n, rest) := by
  have hnumber := scanNumber_text n h
  rw [numeral_text_eq]
  by_cases hneg : n.negative
  · -- the sign is taken off before the digits
    rw [hneg] at hnumber
    simp [hneg, Token.scan, List.append_assoc, hnumber]
  · -- the first digit tells that a number begins here
    have hpos : n.negative = false := by simpa using hneg
    rw [hpos] at hnumber
    obtain ⟨first, digits, hdigits⟩ :=
      List.exists_cons_of_ne_nil (Number.decimalDigits_ne_nil n.whole)
    have htext : Nat.toDigits 10 n.whole = first.char :: digits.map Digit.char := by
      rw [← Number.map_char_decimalDigits, hdigits]
      rfl
    simp only [hpos, List.append_assoc, htext, List.cons_append] at hnumber ⊢
    rw [if_neg (by simp), List.nil_append, scan_digit, hnumber]
    rfl

end BlockData.Json
