import BlockData.Number.Shortest

/-!
# Reading numerals as binary numbers

A numeral is read quickly and not always to the nearest number: the leading digits
that fit into a 64-bit word make the significand, and it is then scaled by a power of
ten, each step rounding on its own.

* Whole digits beyond the word count as places; once a digit of the fraction does not
  fit, it and those after it are dropped.
* `scale` multiplies or divides by a power of ten, in steps of `10^308` at most.  A
  product beyond the largest number is an error, a quotient below the smallest is zero.
-/

namespace BlockData.Number

/-- Leading digits as a word, and the power of ten that is still to be applied. -/
structure Significand where
  value : Nat
  exponent : Int
  deriving DecidableEq, Repr

namespace Significand

/-- One more digit, if the word has room for it. -/
def push? (s : Significand) (d : Digit) : Option Nat :=
  if 10 * s.value + d.val < UInt64.size then some (10 * s.value + d.val) else none

/-- Take in the digits of the whole part.  Once one does not fit, the rest are places. -/
def pushWhole (s : Significand) : List Digit → Significand
  | [] => s
  | d :: rest =>
    match s.push? d with
    | some value => pushWhole { s with value } rest
    | none => { s with exponent := s.exponent + (rest.length + 1 : Nat) }

/-- Take in the digits of the fraction.  Once one does not fit, the rest are dropped. -/
def pushFraction (s : Significand) : List Digit → Significand
  | [] => s
  | d :: rest =>
    match s.push? d with
    | some value => pushFraction ⟨value, s.exponent - 1⟩ rest
    | none => s

end Significand

/-- The significand of a numeral and its power of ten. -/
def Numeral.significand (n : Numeral) : Significand :=
  let s := ((Significand.mk 0 0).pushWhole (decimalDigits n.whole)).pushFraction n.fraction
  { s with exponent := s.exponent + n.exponent.getD 0 }

/-- The power of ten, for exponents up to 308. -/
def powerOfTen (n : Nat) : Float :=
  Float.ofScientific 1 false n

/-- Multiply by a power of ten; nothing comes out beyond the largest number. -/
def scaleUp? (x : Float) (n : Nat) : Option Float :=
  if n ≤ 308 then
    let product := x * powerOfTen n
    if product.isInf then none else some product
  else if x == 0 then
    some x
  else
    none

/-- Divide by a power of ten, by at most `10^308` at a time. -/
def scaleDown (x : Float) (n : Nat) : Float :=
  if n ≤ 308 then x / powerOfTen n
  else if x == 0 then x
  else scaleDown (x / powerOfTen 308) (n - 308)
  termination_by n

/-- Scale by a power of ten. -/
def scale? (x : Float) (exponent : Int) : Option Float :=
  if 0 ≤ exponent then scaleUp? x exponent.toNat else some (scaleDown x exponent.natAbs)

/-- The sign of the numeral on a magnitude. -/
def Numeral.signed (n : Numeral) (x : Float) : Float :=
  if n.negative then -x else x

/-- Read a numeral as a 64-bit number. -/
def Numeral.toDouble? (n : Numeral) : Option Float :=
  let s := n.significand
  (scale? (UInt64.ofNat s.value).toFloat s.exponent).map n.signed

/-- Whether a numeral is an integer that a 64-bit word holds, signed if it has a minus
sign, and unsigned otherwise. -/
def Numeral.fitsWord (n : Numeral) : Bool :=
  match n.toInt? with
  | some i => -9223372036854775808 ≤ i && i ≤ 18446744073709551615
  | none => false

/-- Read a numeral as a 32-bit number: an integer that fits a word directly, all else
through 64 bits. -/
def Numeral.toSingle? (n : Numeral) : Option Float32 :=
  if n.fitsWord then
    let size := singleOfNat n.whole
    some (if n.negative then -size else size)
  else
    n.toDouble?.map narrow

end BlockData.Number
