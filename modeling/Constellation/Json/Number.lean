import Constellation.Binary64.Basic
import Constellation.Text.Numeral
set_option autoImplicit false

/-!
# Numbers in JSON texts

## Main definitions

* `Json.Number` — the value of a number in a text.
* `Json.Number.read` — reads the number at the start of a text.

## Design

A number is an optional minus sign, digits without a superfluous zero in front, and optionally a
fraction and an exponent. Digits are collected in a 64-bit significand for as long as they fit: the
digits before the point that no longer fit raise the exponent, and those after it are ignored. A
number without point and exponent that fits is an integer. Every other number is a double, computed
by one multiplication with or division by a power of ten; below `10 ^ (-308)` the division goes in
several steps. A double that would be infinite is no value, but still well-formed text.
-/

namespace Constellation

namespace Json

/-- The value of a number in a text. -/
inductive Number
  /-- An integer of 64 bits that is not negative. -/
  | natural (value : Nat)
  /-- A negative integer of 64 bits. -/
  | negative (value : Int)
  /-- A double. -/
  | real (value : Float)
  /-- A number whose absolute value exceeds all doubles. -/
  | beyond

namespace Number

/-- The digits collected so far, as `significand * 10 ^ exponent`. -/
structure Collected where
  /-- The digits that fit into 64 bits. -/
  significand : Nat
  /-- The power of ten of the last of them. -/
  exponent : Int
  /-- Whether all digits have fitted. -/
  complete : Bool

/-- One more digit before the point. Once a digit does not fit, it and all later ones only raise
the exponent. -/
def Collected.whole (n : Collected) (digit : Nat) : Collected :=
  let next := 10 * n.significand + digit
  if n.complete && next < Numeral.longBound then { n with significand := next }
  else { n with exponent := n.exponent + 1, complete := false }

/-- One more digit after the point. Once a digit does not fit, it and all later ones are
ignored. -/
def Collected.fraction (n : Collected) (digit : Nat) : Collected :=
  let next := 10 * n.significand + digit
  if n.complete && next < Numeral.longBound then
    { n with significand := next, exponent := n.exponent - 1 }
  else { n with complete := false }

/-- The value of a digit. -/
def digitValue (c : Char) : Nat := c.toNat - '0'.toNat

/-- Divides by powers of ten up to `10 ^ 308` until the exponent is used up, and then multiplies
or divides once more. The outcome `none` is an infinity. -/
def scale : (fuel : Nat) → Float → Int → Option Float
  | 0, x, _ => some x
  | fuel + 1, x, exponent =>
    if exponent.natAbs ≤ 308 then
      let power := Binary64.powerOfTen exponent.natAbs
      if 0 ≤ exponent then
        let product := x * power
        if product.isInf then none else some product
      else some (x / power)
    else if x == 0.0 then some x
    else if 0 ≤ exponent then none
    else scale fuel (x / Binary64.powerOfTen 308) (exponent + 308)

/-- The number of divisions by `10 ^ 308` after which every significand has become zero. -/
def scaleSteps : Nat := 4

/-- The greatest exponent that is written out; beyond it a number is zero or infinite. -/
def exponentBound : Nat := 0x80000000

/-- The number with a sign and collected digits that has a point or an exponent, or whose digits
did not all fit. -/
def ofParts (isNegative : Bool) (significand : Nat) (exponent : Int) : Number :=
  match scale scaleSteps significand.toUInt64.toFloat exponent with
  | some x => real (if isNegative then -x else x)
  | none => beyond

/-- The greatest absolute value of a negative integer of 64 bits. -/
def negativeBound : Nat := 0x8000000000000000

/-- The number with a sign and an integer significand. Minus zero is a double, and so is a negative
integer of more than 64 bits. -/
def ofInteger (isNegative : Bool) (significand : Nat) : Number :=
  if !isNegative then natural significand
  else if significand = 0 || negativeBound < significand then real (-significand.toUInt64.toFloat)
  else negative (-(significand : Int))

/-- The number with an explicit exponent, which is added to that of the digits. -/
def ofExponent (isNegative : Bool) (n : Collected) (downward : Bool) (digits : List Char) :
    Number :=
  let exponent := Nat.ofDigitChars 10 digits 0
  if exponent < exponentBound then
    let shift : Int := if downward then -(exponent : Int) else exponent
    ofParts isNegative n.significand (n.exponent + shift)
  else if n.significand ≠ 0 && !downward then beyond
  else real (if isNegative then -0.0 else 0.0)

/-- Reads what follows the digits before and after the point: an exponent, or nothing. -/
def readExponent (isNegative : Bool) (n : Collected) (plain : Number) :
    List Char → Option (Number × List Char)
  | [] => some (plain, [])
  | c :: rest =>
    if c = 'e' || c = 'E' then
      let (downward, tail) :=
        match rest with
        | '+' :: tail => (false, tail)
        | '-' :: tail => (true, tail)
        | _ => (false, rest)
      let digits := tail.takeWhile Char.isDigit
      if digits.isEmpty then none
      else some (ofExponent isNegative n downward digits, tail.dropWhile Char.isDigit)
    else some (plain, c :: rest)

/-- Reads the number whose sign has been read. The outcome `none` is malformed text. -/
def readUnsigned (isNegative : Bool) (text : List Char) : Option (Number × List Char) :=
  let digits := text.takeWhile Char.isDigit
  let rest := text.dropWhile Char.isDigit
  if digits.isEmpty || (digits.head? = some '0' && 1 < digits.length) then none
  else
    let n := digits.foldl (fun n c => n.whole (digitValue c)) ⟨0, 0, true⟩
    match rest with
    | '.' :: tail =>
      let places := tail.takeWhile Char.isDigit
      if places.isEmpty then none
      else
        let m := places.foldl (fun n c => n.fraction (digitValue c)) { n with complete := true }
        readExponent isNegative m (ofParts isNegative m.significand m.exponent)
          (tail.dropWhile Char.isDigit)
    | _ =>
      let plain :=
        if n.complete then ofInteger isNegative n.significand
        else ofParts isNegative n.significand n.exponent
      readExponent isNegative n plain rest

/-- Reads the number at the start of a text, together with what follows it. The outcome `none` is
malformed text. -/
def read : List Char → Option (Number × List Char)
  | '-' :: unsigned => readUnsigned true unsigned
  | unsigned => readUnsigned false unsigned

end Number

end Json

end Constellation
