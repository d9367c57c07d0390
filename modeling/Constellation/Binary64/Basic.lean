set_option autoImplicit false

/-!
# Double precision numbers as exact rationals

Data rates, loss ratios and times are double precision numbers. Their texts have to be exact, so
this module takes such a number apart into natural numbers, and puts one together from a quotient
of natural numbers.

## Main definitions

* `Binary64.Finite` — a mantissa and an exponent, standing for `mantissa * 2 ^ exponent`.
* `Binary64.finite?` — the finite number that a float holds, without its sign.
* `Binary64.nearestBits` — the encoding of the double nearest to a quotient.
* `Binary64.powerOfTen` — the double nearest to a power of ten.

## Design

The encoding of a positive double grows with its value, and neighbouring doubles have neighbouring
encodings. A rounded significand is therefore added to its shifted exponent: when rounding carries
into the next power of two, the sum is right without a case of its own.
-/

namespace Constellation

namespace Binary64

/-- The value `mantissa * 2 ^ exponent` of a positive double or of zero. -/
structure Finite where
  /-- The significand, below `2 ^ 53`. -/
  mantissa : Nat
  /-- The power of two of its last bit. -/
  exponent : Int
  deriving DecidableEq, Repr

/-- The least exponent, that of the last bit of the smallest doubles. -/
def leastExponent : Int := -1074

/-- The first mantissa with all 53 bits. -/
def fullMantissa : Nat := 0x10000000000000

/-- The encoding of positive infinity. -/
def infinityBits : Nat := 0x7ff0000000000000

/-- The weight of the sign in an encoding. -/
def signBit : Nat := 0x8000000000000000

/-- Whether the sign bit is set. -/
def isNegative (x : Float) : Bool := signBit ≤ x.toBits.toNat

/-- The encoding without its sign. -/
def magnitudeBits (x : Float) : Nat := x.toBits.toNat % signBit

/-- The absolute value of a finite double, and `none` for an infinity or for no number at all. -/
def finite? (x : Float) : Option Finite :=
  let magnitude := magnitudeBits x
  let biased := magnitude / fullMantissa
  let fraction := magnitude % fullMantissa
  if infinityBits ≤ magnitude then none
  else if biased = 0 then some ⟨fraction, leastExponent⟩
  else some ⟨fullMantissa + fraction, leastExponent + (biased - 1 : Nat)⟩

/-- The quotient of two numbers, rounded to the nearest integer and halves to the even one. -/
def roundedQuotient (num den : Nat) : Nat :=
  let quotient := num / den
  let twice := 2 * (num % den)
  if den < twice || (twice == den && quotient % 2 == 1) then quotient + 1 else quotient

/-- The exponent of the leading bit of a quotient of two positive numbers: the greatest `e` with
`2 ^ e ≤ num / den`. -/
def leadingExponent (num den : Nat) : Int :=
  let estimate : Int := (Nat.log2 num : Int) - (Nat.log2 den : Int)
  if den * Nat.pow 2 estimate.toNat ≤ num * Nat.pow 2 (-estimate).toNat then estimate
  else estimate - 1

/-- The encoding of the double nearest to `num / den`, ties to the even one. A quotient beyond the
greatest double has the encoding of infinity. -/
def nearestBits (num den : Nat) : Nat :=
  if num = 0 then 0
  else
    let exponent := max leastExponent (leadingExponent num den - 52)
    let mantissa :=
      roundedQuotient (num * Nat.pow 2 (-exponent).toNat) (den * Nat.pow 2 exponent.toNat)
    min infinityBits ((exponent - leastExponent).toNat * fullMantissa + mantissa)

/-- The double nearest to a quotient. -/
def nearest (num den : Nat) : Float := Float.ofBits (nearestBits num den).toUInt64

/-- The double nearest to a power of ten. -/
def powerOfTen (n : Nat) : Float := nearest (Nat.pow 10 n) 1

/-- No encoding exceeds that of infinity. -/
theorem nearestBits_le (num den : Nat) : nearestBits num den ≤ infinityBits := by
  unfold nearestBits
  split
  · exact Nat.zero_le _
  · exact Nat.min_le_left _ _

end Binary64

end Constellation
