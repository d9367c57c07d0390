set_option autoImplicit false

/-!
# Blank characters

Fields of snapshot rows and of route pairs may be surrounded by blanks, and the pieces of a
session listing are told apart by them. *Blank* means the white space of the Unicode character
database, which is wider than the ASCII class that `Char.isWhitespace` tests.

## Main definitions

* `isBlank` — the property `White_Space`.
* `trimBlanks` — a text without its leading and trailing blanks.

## Main results

* `trimBlanks_eq_self` — a text that neither starts nor ends with a blank is its own trim.
-/

namespace Constellation

/-- Whether a character is white space according to the Unicode character database. -/
def isBlank (c : Char) : Bool :=
  let n := c.toNat
  (0x09 ≤ n && n ≤ 0x0d) || n == 0x20 || n == 0x85 || n == 0xa0 || n == 0x1680 ||
    (0x2000 ≤ n && n ≤ 0x200a) || n == 0x2028 || n == 0x2029 || n == 0x202f || n == 0x205f ||
    n == 0x3000

/-- A text without its leading blanks. -/
def trimLeading (text : List Char) : List Char := text.dropWhile isBlank

/-- A text without its leading and trailing blanks. -/
def trimBlanks (text : List Char) : List Char :=
  (trimLeading (trimLeading text).reverse).reverse

/-- Nothing is cut from a text that does not start with a blank. -/
theorem trimLeading_eq_self {text : List Char} (h : ∀ c ∈ text.head?, isBlank c = false) :
    trimLeading text = text := by
  cases text with
  | nil => rfl
  | cons c rest => simp [trimLeading, h c (by simp)]

/-- A text that neither starts nor ends with a blank is its own trim. -/
theorem trimBlanks_eq_self {text : List Char} (hhead : ∀ c ∈ text.head?, isBlank c = false)
    (hlast : ∀ c ∈ text.getLast?, isBlank c = false) : trimBlanks text = text := by
  rw [trimBlanks, trimLeading_eq_self hhead, trimLeading_eq_self (by simpa using hlast),
    List.reverse_reverse]

end Constellation
