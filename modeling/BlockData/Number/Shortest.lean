import BlockData.Number.Binary
import BlockData.Number.Numeral

/-!
# Shortest decimal form of a binary number

The fewest decimal digits that read back as the same number, and among those the
nearest to it.  A number stands for the interval of reals that round to it.  Grids of
decimal numbers are tried from the coarsest on; on each the two neighbours of the
exact value are the only candidates, for if any point of a grid lies in the interval,
so does one of these two.

* `Format.shortest` finds the digits;
* `Spelling` says how digits are laid out, and `Spelling.numeral` lays them out.
-/

namespace BlockData.Number

/-- A decimal number `digits · 10^place`. -/
structure Scaled where
  digits : Nat
  place : Int
  deriving DecidableEq, Repr

/-- The reals that round to one number, and that number.  All three are quarters of
`2^(exponent + 2)`; the ends belong to the interval iff `closed`. -/
structure Interval where
  low : Nat
  value : Nat
  high : Nat
  exponent : Int
  closed : Bool
  deriving DecidableEq, Repr

/-- The interval of `m · 2^e`.  Below a power of two the numbers lie twice as close. -/
def Format.interval (f : Format) (m : Nat) (e : Int) : Interval where
  low := if m = twoTo f.fractionBits ∧ f.leastExponent < e then 4 * m - 1 else 4 * m - 2
  value := 4 * m
  high := 4 * m + 2
  exponent := e - 2
  closed := m % 2 = 0

namespace Interval

/-- A bound on the number of decimal places in front of the point. -/
def placeBound (i : Interval) : Int :=
  (i.exponent + i.high.log2 + 1) * 30103 / 100000 + 2

/-- The factors by which bounds and grid points are multiplied to compare them: a
quarter counts `unit`, a grid point at `place` counts `step`. -/
def unit (i : Interval) (place : Int) : Nat :=
  twoTo i.exponent.toNat * tenTo (-place).toNat

@[inherit_doc unit]
def step (i : Interval) (place : Int) : Nat :=
  twoTo (-i.exponent).toNat * tenTo place.toNat

/-- Whether the grid point `n · 10^place` lies in the interval. -/
def holds (i : Interval) (place : Int) (n : Nat) : Bool :=
  let point := n * i.step place
  let low := i.low * i.unit place
  let high := i.high * i.unit place
  if i.closed then low ≤ point && point ≤ high else low < point && point < high

/-- The point of the interval that lies on a grid, and nearest to the value; of two
equally near the even one. -/
def onGrid? (i : Interval) (place : Int) : Option Nat :=
  let value := i.value * i.unit place
  let below := value / i.step place
  -- the two neighbours of the value are the only candidates
  match i.holds place below, i.holds place (below + 1) with
  | false, false => none
  | true, false => some below
  | false, true => some (below + 1)
  | true, true =>
    let toBelow := value - below * i.step place
    let toAbove := (below + 1) * i.step place - value
    if toBelow < toAbove ∨ toBelow = toAbove ∧ below % 2 = 0 then some below
    else some (below + 1)

/-- The first hit on grids of growing fineness, of which `count` are tried. -/
def coarsest? (i : Interval) (place : Int) : Nat → Option Scaled
  | 0 => none
  | count + 1 =>
    match i.onGrid? place with
    | some digits => some ⟨digits, place⟩
    | none => i.coarsest? (place - 1) count

end Interval

/-- The shortest decimal number that reads back as `m · 2^e`.  Twenty-four grids reach
beyond the seventeenth digit. -/
def Format.shortest (f : Format) (m : Nat) (e : Int) : Scaled :=
  let i := f.interval m e
  (i.coarsest? i.placeBound 24).getD ⟨0, 0⟩

/-! ## Layout of the digits -/

/-- How a number is spelled: with a point as long as it has at most `wholePlaces` places
in front of the point and fewer than `leadingZeros` zeros behind `0.` or none at all,
and with an exponent otherwise. -/
structure Spelling where
  wholePlaces : Nat
  leadingZeros : Nat
  deriving DecidableEq, Repr

/-- 64-bit numbers: a point up to sixteen places, and down to four zeros. -/
def Spelling.double : Spelling := ⟨16, 5⟩

/-- 32-bit numbers: a point up to thirteen places, and down to five zeros. -/
def Spelling.single : Spelling := ⟨13, 6⟩

/-- The numeral of a decimal number in a spelling.  A whole number gets `.0`. -/
def Spelling.numeral (spelling : Spelling) (negative : Bool) (number : Scaled) : Numeral :=
  let digits := decimalDigits number.digits
  let point := digits.length + number.place
  -- a whole number, filled up with zeros
  if 0 ≤ number.place ∧ point ≤ spelling.wholePlaces then
    ⟨negative, number.digits * tenTo number.place.toNat, [.zero], none⟩
  -- the point between the digits
  else if 0 < point ∧ point ≤ spelling.wholePlaces then
    ⟨negative, ofDigits (digits.take point.toNat), digits.drop point.toNat, none⟩
  -- zeros between the point and the digits
  else if -spelling.leadingZeros < point ∧ point ≤ 0 then
    ⟨negative, 0, List.replicate (-point).toNat .zero ++ digits, none⟩
  else
    ⟨negative, ofDigits (digits.take 1), digits.drop 1, some (point - 1)⟩

/-- The numeral of a word, or nothing for a word that stands for no number. -/
def Format.numeral? (f : Format) (spelling : Spelling) (word : Nat) : Option Numeral :=
  let negative := decide (f.signBit ≤ word)
  match f.magnitude word with
  | .finite m e =>
    some (if m = 0 then ⟨negative, 0, [.zero], none⟩
      else spelling.numeral negative (f.shortest m e))
  | .infinite => none
  | .notANumber => none

/-- The shortest numeral of a 64-bit number, if it is finite. -/
def doubleNumeral? (x : Float) : Option Numeral :=
  Format.double.numeral? .double x.toBits.toNat

/-- The shortest numeral of a 32-bit number, if it is finite. -/
def singleNumeral? (x : Float32) : Option Numeral :=
  Format.single.numeral? .single x.toBits.toNat

end BlockData.Number
