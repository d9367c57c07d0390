import Constellation.Binary64.Basic
set_option autoImplicit false

/-!
# The shortest digits of a double

A double is written with the fewest decimal digits that read back as the same double.

## Main definitions

* `Binary64.Decimal` — the value `digits * 10 ^ exponent`.
* `Binary64.Interval` — the reals that round to a double.
* `Binary64.shortest` — the shortest decimal that reads back, and of those the nearest.

## Design

The reals that round to `mantissa * 2 ^ exponent` reach half way to its two neighbours, and the
two ends belong to them when the mantissa is even. Everything is counted in quarters of the last
bit, so that these ends are natural numbers also below a power of two, where the lower neighbour is
only half as far away. On a decimal grid it is enough to look at the two neighbours of the value:
if any point of the grid lies in the interval, one of these does.
-/

namespace Constellation

namespace Binary64

/-- The value `digits * 10 ^ exponent`. -/
structure Decimal where
  /-- The digits as one number. -/
  digits : Nat
  /-- The power of ten of the last digit. -/
  exponent : Int
  deriving DecidableEq, Repr

/-- What happens to a value half way between two points of a grid. -/
inductive Tie
  /-- It goes to the even one. -/
  | even
  /-- It goes to the greater one. -/
  | up
  deriving DecidableEq, Repr

/-- An interval around a double in quarters of its last bit, that is in units of
`2 ^ unitExponent`. -/
structure Interval where
  /-- The lower end. -/
  low : Nat
  /-- The double itself. -/
  value : Nat
  /-- The upper end. -/
  high : Nat
  /-- Whether the ends belong to the interval. -/
  closed : Bool
  /-- The power of two of the unit. -/
  unitExponent : Int
  deriving DecidableEq, Repr

/-- The reals that round to a positive double. -/
def Finite.interval (x : Finite) : Interval where
  low := if x.mantissa = fullMantissa && leastExponent < x.exponent then 4 * x.mantissa - 1
    else 4 * x.mantissa - 2
  value := 4 * x.mantissa
  high := 4 * x.mantissa + 2
  closed := x.mantissa % 2 == 0
  unitExponent := x.exponent - 2

/-- Whether a number lies in the interval, where all its marks are given in units of `unit`. -/
def Interval.holds (i : Interval) (unit number : Nat) : Bool :=
  if i.closed then i.low * unit ≤ number && number ≤ i.high * unit
  else i.low * unit < number && number < i.high * unit

/-- The multiple of `10 ^ k` in the interval that is nearest to its value, if the interval holds
one. Both the grid and the unit are scaled to natural numbers first. -/
def Interval.onGrid? (tie : Tie) (i : Interval) (k : Int) : Option Nat :=
  let grid := Nat.pow 10 k.toNat * Nat.pow 2 (-i.unitExponent).toNat
  let unit := Nat.pow 2 i.unitExponent.toNat * Nat.pow 10 (-k).toNat
  let below := i.value * unit / grid
  let twice := 2 * (i.value * unit % grid)
  let upward := grid < twice ||
    (twice == grid && match tie with
      | .even => below % 2 == 1
      | .up => true)
  match i.holds unit (below * grid), i.holds unit ((below + 1) * grid) with
  | true, true => some (if upward then below + 1 else below)
  | true, false => some below
  | false, true => some (below + 1)
  | false, false => none

/-- Goes through ever finer grids, starting at `10 ^ k`, until one has a point in the interval. -/
def Interval.firstGrid (tie : Tie) (i : Interval) : (fuel : Nat) → (k : Int) → Decimal
  | 0, k => ⟨(i.onGrid? tie k).getD 0, k⟩
  | fuel + 1, k =>
    match i.onGrid? tie k with
    | some digits => ⟨digits, k⟩
    | none => i.firstGrid tie fuel (k - 1)

/-- Drops up to `fuel` zeros at the end of the digits. -/
def Decimal.strip : (fuel : Nat) → Decimal → Decimal
  | 0, d => d
  | fuel + 1, d =>
    if d.digits ≠ 0 && d.digits % 10 == 0 then strip fuel ⟨d.digits / 10, d.exponent + 1⟩ else d

/-- An exponent of ten above that of every number with the given leading bit. -/
def decimalCeiling (leadingBit : Int) : Int := leadingBit * 30103 / 100000 + 1

/-- **The shortest decimal** that reads back as a positive double, and of several the one nearest
to it. Seventeen digits always suffice. -/
def shortest (tie : Tie) (x : Finite) : Decimal :=
  let top := decimalCeiling ((Nat.log2 x.mantissa : Int) + x.exponent)
  Decimal.strip 20 (x.interval.firstGrid tie 20 top)

end Binary64

end Constellation
