set_option autoImplicit false

/-!
# Unsigned decimal numerals

Numbers enter this library as text in several places: node identifiers in snapshot rows,
timestamps in file names, counts on the command line. They all share one grammar, an optional
plus sign followed by decimal digits, and one way of being refused.

## Main definitions

* `Numeral.Fault` — the three reasons for which a text is not a numeral below a bound.
* `Numeral.digits` — the shortest decimal digits of a number.
* `Numeral.read` — reads a numeral below a bound.

## Main results

* `Numeral.read_digits` — the digits of a number below the bound read back as that number.
* `Numeral.lt_of_read_eq_ok` — what is read lies below the bound.

## Design

The reader goes through the text once, and the first character that is not a digit or the first
digit that carries the value to the bound decides. A long run of digits followed by a letter is
therefore *too large*, not malformed.
-/

namespace Constellation

namespace Numeral

/-- The reasons for which a text is not an unsigned decimal numeral in range. -/
inductive Fault
  /-- There is no character at all. -/
  | empty
  /-- A character is no digit, or a sign stands alone. -/
  | invalidDigit
  /-- The value reaches the bound. -/
  | tooLarge
  deriving DecidableEq, Repr

/-- The wording of a fault. -/
def Fault.message : Fault → String
  | .empty => "cannot parse integer from empty string"
  | .invalidDigit => "invalid digit found in string"
  | .tooLarge => "number too large to fit in target type"

/-- The shortest decimal digits of `n`. -/
def digits (n : Nat) : List Char := Nat.toDigits 10 n

/-- Appends the digits of a text to `value`, as long as the result stays below `bound`. -/
def accumulate (bound value : Nat) : List Char → Except Fault Nat
  | [] => .ok value
  | c :: rest =>
    if c.isDigit then
      let next := 10 * value + (c.toNat - '0'.toNat)
      if next < bound then accumulate bound next rest else .error .tooLarge
    else .error .invalidDigit

/-- Reads an optional plus sign and decimal digits whose value lies below `bound`. A sign that
stands alone is an invalid digit. -/
def read (bound : Nat) : List Char → Except Fault Nat
  | [] => .error .empty
  | '+' :: c :: rest => accumulate bound 0 (c :: rest)
  | text => accumulate bound 0 text

/-- The number of values of a 32-bit word. -/
def wordBound : Nat := 0x100000000

/-- The number of values of a 64-bit word. -/
def longBound : Nat := 0x10000000000000000

/-- Reads a 32-bit number. -/
def readWord (text : List Char) : Except Fault UInt32 :=
  (read wordBound text).map Nat.toUInt32

/-- Digits are accumulated to the value they denote, provided that it lies below the bound. -/
theorem accumulate_eq_ofDigitChars (bound : Nat) :
    ∀ (text : List Char) (value : Nat), (∀ c ∈ text, c.isDigit) →
      value < bound → Nat.ofDigitChars 10 text value < bound →
      accumulate bound value text = .ok (Nat.ofDigitChars 10 text value)
  | [], value, _, _, _ => by simp [accumulate]
  | c :: rest, value, hdigit, hvalue, hlt => by
    rw [Nat.ofDigitChars_cons] at hlt ⊢
    have hnext : 10 * value + (c.toNat - '0'.toNat) < bound := by
      rw [Nat.ofDigitChars_eq_ofDigitChars_zero] at hlt
      have hpos : 0 < 10 ^ rest.length := Nat.pow_pos (by decide)
      have hle := Nat.le_mul_of_pos_left (10 * value + (c.toNat - '0'.toNat)) hpos
      omega
    simp only [accumulate, hdigit c (by simp), if_true]
    rw [if_pos hnext]
    exact accumulate_eq_ofDigitChars bound rest _ (fun d hd => hdigit d (by simp [hd])) hnext hlt

/-- The digits of a number are accumulated to that number. -/
theorem accumulate_digits {bound n : Nat} (h : n < bound) :
    accumulate bound 0 (digits n) = .ok n := by
  have hacc := accumulate_eq_ofDigitChars bound (digits n) 0
    (fun c hc => Nat.isDigit_of_mem_toDigits (by decide) (by decide) hc) (by omega)
    (by rw [digits, Nat.ofDigitChars_ten_toDigits]; exact h)
  rwa [digits, Nat.ofDigitChars_ten_toDigits] at hacc

/-- What is accumulated stays below the bound. -/
theorem lt_of_accumulate_eq_ok {bound n : Nat} :
    ∀ {text : List Char} {value : Nat}, value < bound →
      accumulate bound value text = .ok n → n < bound
  | [], value, hvalue, h => by
    cases h
    exact hvalue
  | c :: rest, value, _, h => by
    rw [accumulate] at h
    split at h
    · dsimp only at h
      split at h
      · next hnext => exact lt_of_accumulate_eq_ok hnext h
      · cases h
    · cases h

/-- **What is read lies below the bound.** -/
theorem lt_of_read_eq_ok {bound n : Nat} {text : List Char} (hbound : 0 < bound)
    (h : read bound text = .ok n) : n < bound := by
  unfold read at h
  split at h
  · cases h
  · exact lt_of_accumulate_eq_ok hbound h
  · exact lt_of_accumulate_eq_ok hbound h

/-- **The digits of a number read back.** -/
theorem read_digits {bound n : Nat} (h : n < bound) : read bound (digits n) = .ok n := by
  have hdigit : ∀ c ∈ digits n, c.isDigit := fun c hc =>
    Nat.isDigit_of_mem_toDigits (by decide) (by decide) hc
  have hacc := accumulate_digits h
  have hne : digits n ≠ [] := Nat.toDigits_ne_nil
  cases hd : digits n with
  | nil => exact absurd hd hne
  | cons c rest =>
    have hc : c ≠ '+' := by
      rintro rfl
      have := hdigit '+' (by simp [hd])
      exact absurd this (by decide)
    rw [hd] at hacc
    rw [read]
    · exact hacc
    · simp
    · intro d tail heq
      simp only [List.cons.injEq] at heq
      exact hc heq.1

end Numeral

end Constellation
