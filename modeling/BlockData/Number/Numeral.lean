/-!
# Decimal numerals

A numeral as text has it: a sign, a whole part, the digits of a fraction and an
exponent of ten.  `Numeral.text` writes one; the readers of the library take them
apart again.
-/

namespace BlockData.Number

/-! ## Digits -/

/-- A decimal digit. -/
abbrev Digit := Fin 10

namespace Digit

/-- The last digit of a number. -/
def ofNat (n : Nat) : Digit :=
  ⟨n % 10, Nat.mod_lt n (by decide)⟩

/-- The digit zero. -/
def zero : Digit := ofNat 0

/-- The character of a digit. -/
def char (d : Digit) : Char :=
  Nat.digitChar d.val

end Digit

/-- The decimal digits of a number, the first one in front. -/
def decimalDigits (n : Nat) : List Digit :=
  (Nat.toDigits 10 n).map fun c => Digit.ofNat (c.toNat - '0'.toNat)

/-- The value of a row of decimal digits. -/
def ofDigits (digits : List Digit) : Nat :=
  digits.foldl (fun n d => 10 * n + d.val) 0

/-! ## Numerals -/

/-- A decimal numeral.  Without digits in `fraction` it has no point, without
`exponent` no exponent part. -/
structure Numeral where
  negative : Bool
  whole : Nat
  fraction : List Digit
  exponent : Option Int
  deriving DecidableEq, Repr

namespace Numeral

/-- The numeral of an integer. -/
def ofInt (n : Int) : Numeral :=
  ⟨decide (n < 0), n.natAbs, [], none⟩

/-- The integer that a numeral writes without fraction and exponent.  A negative zero
is no integer. -/
def toInt? (n : Numeral) : Option Int :=
  if n.fraction ≠ [] ∨ n.exponent ≠ none ∨ n.negative ∧ n.whole = 0 then none
  else if n.negative then some (-n.whole)
  else some n.whole

/-- The text of a numeral.  An exponent has its sign in front, also if it is positive. -/
def text (n : Numeral) : List Char :=
  (if n.negative then ['-'] else []) ++ Nat.toDigits 10 n.whole ++
    (if n.fraction = [] then [] else '.' :: n.fraction.map Digit.char) ++
    match n.exponent with
    | none => []
    | some e => 'e' :: (if e < 0 then '-' else '+') :: Nat.toDigits 10 e.natAbs

theorem toInt?_ofInt (n : Int) : (ofInt n).toInt? = some n := by
  have noNegativeZero : ¬ (n < 0 ∧ n.natAbs = 0) := by omega
  simp only [ofInt, toInt?, ne_eq, not_true_eq_false, false_or, decide_eq_true_eq,
    noNegativeZero, if_false]
  split <;> exact congrArg some (by omega)

end Numeral
end BlockData.Number
