import Constellation.Binary64.Shortest
import Constellation.Text.Numeral
set_option autoImplicit false

/-!
# How a double is laid out as text

The digits of a double are settled by `Binary64.shortest`. What remains is where positional
notation ends and how an exponent is written; the formats of this library differ in these choices
only.

## Main definitions

* `Binary64.Layout` — the choices of a format.
* `Binary64.write` — the text of a double in a layout.
-/

namespace Constellation

namespace Binary64

/-- The choices of a format. -/
structure Layout where
  /-- The least exponent of the leading digit that is written positionally. -/
  least : Int
  /-- The first exponent of the leading digit that is no longer written positionally. -/
  bound : Int
  /-- Whether a positive exponent has a sign. -/
  plus : Bool
  /-- The shortest decimal of a double half way between two. -/
  tie : Tie
  deriving DecidableEq, Repr

/-- Digits with a decimal point after the first `places` of them; the digit string is filled with
zeros on either side as needed, and at least one digit stands on each side of the point. -/
def positional (digits : List Char) (places : Int) : List Char :=
  if places ≤ 0 then
    ['0', '.'] ++ List.replicate (-places).toNat '0' ++ digits
  else
    let count := places.toNat
    let whole := digits.take count ++ List.replicate (count - digits.length) '0'
    let fraction := digits.drop count
    whole ++ '.' :: (if fraction.isEmpty then ['0'] else fraction)

/-- One digit before the point, the others after it, and the power of ten of the first. -/
def scientific (layout : Layout) (digits : List Char) (leading : Int) : List Char :=
  let mantissa :=
    match digits with
    | first :: second :: rest => first :: '.' :: second :: rest
    | _ => digits
  let sign := if leading < 0 then ['-'] else if layout.plus then ['+'] else []
  mantissa ++ 'e' :: sign ++ Numeral.digits leading.natAbs

/-- The text of a decimal. -/
def Decimal.write (layout : Layout) (d : Decimal) : List Char :=
  let digits := Numeral.digits d.digits
  let leading := d.exponent + (digits.length : Int) - 1
  if layout.least ≤ leading && leading < layout.bound then positional digits (leading + 1)
  else scientific layout digits leading

/-- The text of a finite double without its sign. -/
def Finite.write (layout : Layout) (x : Finite) : List Char :=
  if x.mantissa = 0 then ['0', '.', '0'] else (shortest layout.tie x).write layout

/-- The text of a double. -/
def write (layout : Layout) (x : Float) : String :=
  let sign := if isNegative x then "-" else ""
  match finite? x with
  | some magnitude => sign ++ String.ofList (magnitude.write layout)
  | none => if magnitudeBits x = infinityBits then sign ++ "inf" else "NaN"

end Binary64

end Constellation
