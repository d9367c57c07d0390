import Constellation.Binary64.Basic
set_option autoImplicit false

/-!
# Reading a double

## Main definitions

* `Binary64.Notation` — the parts of a number in decimal notation.
* `Binary64.Notation.ofText?` — takes a text apart.
* `Binary64.Notation.value` — the nearest double.

## Design

A number is an optional sign, digits with or without a point among them, and optionally the letter
`e` with an optional sign and digits. It has at least one digit before the exponent and, if there
is an exponent, at least one digit in it. The value is rounded once, from the exact rational. The
power of ten of the leading digit tells beforehand whether a number is far above or far below all
doubles, so that no enormous rational is ever formed.
-/

namespace Constellation

namespace Binary64

/-- The number `±digits * 10 ^ exponent`. -/
structure Notation where
  /-- Whether there is a minus sign. -/
  negative : Bool
  /-- All digits before the exponent. -/
  digits : List Char
  /-- The power of ten of the last of them. -/
  exponent : Int
  deriving DecidableEq, Repr

namespace Notation

/-- A text without a sign at its start, and whether that sign is a minus. -/
def splitSign : List Char → Bool × List Char
  | '-' :: rest => (true, rest)
  | '+' :: rest => (false, rest)
  | text => (false, text)

/-- Reads the exponent at the end of a number. -/
def readExponent? : List Char → Option Int
  | [] => some 0
  | c :: rest =>
    if c = 'e' ∨ c = 'E' then
      let (negative, digits) := splitSign rest
      if digits.isEmpty || !digits.all Char.isDigit then none
      else
        let n : Int := Nat.ofDigitChars 10 digits 0
        some (if negative then -n else n)
    else none

/-- Takes a number in decimal notation apart. -/
def ofText? (text : List Char) : Option Notation :=
  let (negative, text) := splitSign text
  let whole := text.takeWhile Char.isDigit
  let rest := text.dropWhile Char.isDigit
  let (places, rest) :=
    match rest with
    | '.' :: tail => (tail.takeWhile Char.isDigit, tail.dropWhile Char.isDigit)
    | _ => ([], rest)
  if whole.isEmpty && places.isEmpty then none
  else
    (readExponent? rest).map fun exponent =>
      ⟨negative, whole ++ places, exponent - (places.length : Int)⟩

/-- The power of ten beyond which every number is infinite, and below whose inverse every number
is zero, as a double. -/
def farExponent : Int := 400

/-- The encoding of the double nearest to the absolute value. -/
def magnitude (n : Notation) : Nat :=
  let digits := Nat.ofDigitChars 10 n.digits 0
  let leading := ((n.digits.dropWhile (· == '0')).length : Int) + n.exponent
  if digits = 0 then 0
  else if farExponent < leading then infinityBits
  else if leading < -farExponent then 0
  else nearestBits (digits * Nat.pow 10 n.exponent.toNat) (Nat.pow 10 (-n.exponent).toNat)

/-- The nearest double. -/
def value (n : Notation) : Float :=
  Float.ofBits ((if n.negative then signBit else 0) + n.magnitude).toUInt64

end Notation

/-- The double nearest to a number in decimal notation. -/
def ofText? (text : List Char) : Option Float := (Notation.ofText? text).map Notation.value

end Binary64

end Constellation
