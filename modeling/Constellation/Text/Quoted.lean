import Constellation.Text.Printable
import Constellation.Text.Symbol
set_option autoImplicit false

/-!
# Quoted texts

Messages show names, paths and other foreign text in double quotes, so that the reader sees where
it starts and ends and what it holds.

## Main definitions

* `Quoted.escape` — how one symbol is written between the quotes.
* `Quoted.ofSymbols`, `Quoted.ofText` — a quoted text.

## Main results

* `Quoted.escape_ne_quote` — no symbol is written as a lone quote, so the first quote after the
  opening one that is not escaped ends the text.

## Design

Quotes, backslashes and the common controls have short escapes. Any other character without a
shape of its own, and any character that would combine with the one before it, is written as its
code point in braces; a byte that belongs to no character is written as two digits.
-/

namespace Constellation

namespace Quoted

/-- The lower case hexadecimal digits of a number. -/
def hexDigits (n : Nat) : List Char := Nat.toDigits 16 n

/-- The two upper case hexadecimal digits of a byte. -/
def byteDigits (byte : UInt8) : List Char :=
  let digits := (hexDigits byte.toNat).map Char.toUpper
  if digits.length < 2 then '0' :: digits else digits

/-- How one symbol is written between the quotes. -/
def escape : Symbol → List Char
  | .stray byte => '\\' :: 'x' :: byteDigits byte
  | .char '\x00' => ['\\', '0']
  | .char '\t' => ['\\', 't']
  | .char '\n' => ['\\', 'n']
  | .char '\r' => ['\\', 'r']
  | .char '"' => ['\\', '"']
  | .char '\\' => ['\\', '\\']
  | .char c =>
    if isExtender c || !isPrintable c then
      '\\' :: 'u' :: '{' :: hexDigits c.toNat ++ ['}']
    else [c]

/-- Symbols between double quotes. -/
def ofSymbols (symbols : List Symbol) : String :=
  String.ofList ('"' :: symbols.flatMap escape ++ ['"'])

/-- A text between double quotes. -/
def ofText (text : String) : String := ofSymbols (Symbol.ofText text)

/-- No symbol is written as a lone quote. -/
theorem escape_ne_quote (symbol : Symbol) : escape symbol ≠ ['"'] := by
  intro h
  unfold escape at h
  split at h
  all_goals try simp at h
  · rename_i c _ _ _ _ hquote _
    split at h
    · simp at h
    · simp only [List.cons.injEq, and_true] at h
      exact hquote (h ▸ rfl)

end Quoted

end Constellation
