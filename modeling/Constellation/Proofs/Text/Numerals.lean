import Mathlib.Data.Nat.Notation
import Mathlib.Tactic.Lemma
import Constellation.Text.Numeral
set_option autoImplicit false

/-!
# Which texts are numerals

## Main definitions

* `Numeral.Denotes` — a text is an optional plus sign and the digits of a number.

## Main results

* `Numeral.accumulate_eq_ok_iff` — digits are accumulated to what they denote, and to nothing else.
* `Numeral.read_eq_ok_iff` — a text is read as a number if and only if it denotes it and the number
  lies below the bound.
* `Numeral.readWord_eq_ok_iff` — the same for numbers of 32 bits.
-/

namespace Constellation

namespace Numeral

/-- A text is an optional plus sign and one or more digits, whose value is `n`. -/
def Denotes (text : List Char) (n : ℕ) : Prop :=
  ∃ digits, (text = digits ∨ text = '+' :: digits) ∧ digits ≠ [] ∧
    (∀ c ∈ digits, c.isDigit = true) ∧ Nat.ofDigitChars 10 digits 0 = n

/-- The digits of a number denote it. -/
lemma denotes_digits (n : ℕ) : Denotes (digits n) n :=
  ⟨digits n, Or.inl rfl, Nat.toDigits_ne_nil,
    fun _ hc => Nat.isDigit_of_mem_toDigits (by decide) (by decide) hc,
    Nat.ofDigitChars_ten_toDigits⟩

/-- **Digits are accumulated to what they denote**, and to nothing else. -/
lemma accumulate_eq_ok_iff {bound value n : ℕ} {text : List Char} (hvalue : value < bound) :
    accumulate bound value text = .ok n ↔
      (∀ c ∈ text, c.isDigit = true) ∧ Nat.ofDigitChars 10 text value = n ∧ n < bound := by
  constructor
  · intro h
    have hlt := lt_of_accumulate_eq_ok hvalue h
    induction text generalizing value with
    | nil =>
      cases h
      simp [hlt]
    | cons c rest ih =>
      rw [accumulate] at h
      split at h
      · next hdigit =>
        dsimp only at h
        split at h
        · next hnext =>
          obtain ⟨hdigits, hn, -⟩ := ih hnext h
          rw [Nat.ofDigitChars_cons]
          exact ⟨List.forall_mem_cons.mpr ⟨hdigit, hdigits⟩, hn, hlt⟩
        · cases h
      · cases h
  · rintro ⟨hdigits, rfl, hlt⟩
    exact accumulate_eq_ofDigitChars bound text value hdigits hvalue hlt

/-- **A text is read as a number** if and only if it denotes it and the number lies below the
bound. -/
lemma read_eq_ok_iff {bound n : ℕ} (hbound : 0 < bound) {text : List Char} :
    read bound text = .ok n ↔ Denotes text n ∧ n < bound := by
  have hplus : Char.isDigit '+' = false := by decide
  constructor
  · intro h
    unfold read at h
    split at h
    · cases h
    · next c rest =>
      obtain ⟨hdigits, hn, hlt⟩ := (accumulate_eq_ok_iff hbound).mp h
      exact ⟨⟨c :: rest, Or.inr rfl, List.cons_ne_nil _ _, hdigits, hn⟩, hlt⟩
    · next hne _ =>
      obtain ⟨hdigits, hn, hlt⟩ := (accumulate_eq_ok_iff hbound).mp h
      exact ⟨⟨text, Or.inl rfl, hne, hdigits, hn⟩, hlt⟩
  · rintro ⟨⟨digits, htext, hne, hdigits, hn⟩, hlt⟩
    have hok := (accumulate_eq_ok_iff hbound).mpr ⟨hdigits, hn, hlt⟩
    obtain ⟨c, rest, rfl⟩ := List.exists_cons_of_ne_nil hne
    rcases htext with rfl | rfl
    · -- a digit is no plus sign, so the digits are read from the first one on
      have hc : c ≠ '+' := by
        rintro rfl
        simp [hdigits '+' List.mem_cons_self] at hplus
      rw [read]
      · exact hok
      · simp
      · intro d tail heq
        exact hc (List.cons.inj heq).1
    · rw [read]
      exact hok

/-- **A text is read as a number of 32 bits** if and only if it denotes it. -/
lemma readWord_eq_ok_iff {text : List Char} {n : UInt32} :
    readWord text = .ok n ↔ Denotes text n.toNat := by
  have hbound : 0 < wordBound := by decide
  have hlt : n.toNat < wordBound := n.toNat_lt
  constructor
  · intro h
    rw [readWord] at h
    cases hread : read wordBound text with
    | error fault =>
      rw [hread] at h
      cases h
    | ok m =>
      rw [hread] at h
      cases h
      obtain ⟨hdenotes, hm⟩ := (read_eq_ok_iff hbound).mp hread
      rwa [Nat.toUInt32_eq, UInt32.toNat_ofNat', Nat.mod_eq_of_lt (show m < 2 ^ 32 from hm)]
  · intro h
    rw [readWord, (read_eq_ok_iff hbound).mpr ⟨h, hlt⟩]
    simp [Except.map]

end Numeral

end Constellation
