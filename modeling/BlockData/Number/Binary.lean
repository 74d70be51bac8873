/-!
# Binary interchange formats

Words of a sign bit, exponent bits and fraction bits, and the exact values they
stand for.  All arithmetic is on natural numbers, so that rounding is exact.

* `Format.magnitude` takes a word apart;
* `Format.nearest` is the word nearest to `m · 2^e`, with ties to the even word;
* `narrow` rounds a 64-bit number to 32 bits.
-/

namespace BlockData.Number

/-- A power of two. -/
def twoTo (n : Nat) : Nat := 1 <<< n

/-- A power of ten. -/
def tenTo (n : Nat) : Nat := Nat.pow 10 n

/-- The widths of the exponent and of the fraction in a word. -/
structure Format where
  exponentBits : Nat
  fractionBits : Nat
  deriving DecidableEq, Repr

namespace Format

/-- The 32-bit format. -/
def single : Format := ⟨8, 23⟩

/-- The 64-bit format. -/
def double : Format := ⟨11, 52⟩

/-- The exponent of the last place of the smallest numbers. -/
def leastExponent (f : Format) : Int :=
  3 - (twoTo (f.exponentBits - 1) : Nat) - (f.fractionBits + 1 : Nat)

/-- The word of positive infinity. -/
def infinity (f : Format) : Nat :=
  (twoTo f.exponentBits - 1) * twoTo f.fractionBits

/-- The bit of the sign, as a number. -/
def signBit (f : Format) : Nat :=
  twoTo (f.exponentBits + f.fractionBits)

end Format

/-- What a word stands for, the sign apart. -/
inductive Magnitude where
  /-- The number `m · 2^e`. -/
  | finite (m : Nat) (e : Int)
  | infinite
  | notANumber
  deriving DecidableEq, Repr

namespace Format

/-- The value of a word, the sign apart.  Words with the least exponent field have no
hidden bit. -/
def magnitude (f : Format) (word : Nat) : Magnitude :=
  let fraction := word % twoTo f.fractionBits
  let exponent := word / twoTo f.fractionBits % twoTo f.exponentBits
  if exponent = 0 then
    .finite fraction f.leastExponent
  else if exponent = twoTo f.exponentBits - 1 then
    if fraction = 0 then .infinite else .notANumber
  else
    .finite (twoTo f.fractionBits + fraction) (f.leastExponent + (exponent - 1 : Nat))

/-- The quotient by a power of two, to the nearest integer, with a tie to the even one. -/
def roundShift (m shift : Nat) : Nat :=
  let quotient := m >>> shift
  let rest := m % twoTo shift
  if 2 * rest < twoTo shift ∨ 2 * rest = twoTo shift ∧ quotient % 2 = 0 then quotient
  else quotient + 1

/-- The word nearest to `m · 2^e`; what lies beyond the largest number goes to infinity.
A hidden bit, and the carry out of a full fraction, add one to the exponent field. -/
def nearest (f : Format) (m : Nat) (e : Int) : Nat :=
  if m = 0 then
    0
  else
    -- the exponent that the last bit of a word has for a number of this size
    let lastPlace := max f.leastExponent (e + m.log2 - f.fractionBits)
    -- the number in units of that bit
    let places :=
      if lastPlace ≤ e then m <<< (e - lastPlace).toNat
      else roundShift m (lastPlace - e).toNat
    min f.infinity ((lastPlace - f.leastExponent).toNat * twoTo f.fractionBits + places)

end Format

/-- The 32-bit number nearest to an unsigned integer. -/
def singleOfNat (n : Nat) : Float32 :=
  Float32.ofBits (UInt32.ofNat (Format.single.nearest n 0))

/-- The 32-bit number nearest to a 64-bit number. -/
def narrow (x : Float) : Float32 :=
  let word := x.toBits.toNat
  let sign := if Format.double.signBit ≤ word then Format.single.signBit else 0
  let size :=
    match Format.double.magnitude word with
    | .finite m e => Format.single.nearest m e
    | .infinite => Format.single.infinity
    | .notANumber => Format.single.infinity + twoTo (Format.single.fractionBits - 1)
  Float32.ofBits (UInt32.ofNat (sign + size))

end BlockData.Number
