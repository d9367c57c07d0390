import Mathlib.Data.List.TakeWhile
import Mathlib.Data.Nat.Notation
import Mathlib.Tactic.Lemma
import Mathlib.Tactic.SplitIfs
import Constellation.Binary64.Layout
import Constellation.Binary64.Notation
set_option autoImplicit false

/-!
# The characters of doubles

The texts that doubles are read from and the texts that they are written as consist of a few
characters only, so they can stand between separators.

## Main definitions

* `Binary64.isNotationChar` — the characters of numbers in decimal notation.

## Main results

* `Binary64.Notation.all_of_ofText?` — a text that is read as a number has no other characters.
* `Binary64.isNotationChar_of_mem_write` — what is written for a double has letters at most besides.
-/

namespace Constellation

/-- The characters of numbers in decimal notation. -/
def Binary64.isNotationChar (c : Char) : Bool :=
  c.isDigit || c == '+' || c == '-' || c == '.' || c == 'e' || c == 'E'

namespace Binary64

/-! ## Numbers that are read -/

/-- Digits are such characters, so only what comes after them matters. -/
lemma all_of_all_dropWhile {text : List Char}
    (h : (text.dropWhile Char.isDigit).all isNotationChar = true) :
    text.all isNotationChar = true := by
  rw [← List.takeWhile_append_dropWhile (p := Char.isDigit) (l := text), List.all_append, h,
    Bool.and_true, List.all_eq_true]
  intro c hc
  have hdigit : c.isDigit = true := List.mem_takeWhile_imp hc
  simp [isNotationChar, hdigit]

namespace Notation

/-- So are signs. -/
lemma all_of_all_splitSign {text : List Char}
    (h : (splitSign text).2.all isNotationChar = true) : text.all isNotationChar = true := by
  unfold splitSign at h
  split at h
  · exact h
  · exact h
  · exact h

/-- An exponent is made of such characters. -/
lemma all_of_readExponent? {text : List Char} (h : (readExponent? text).isSome = true) :
    text.all isNotationChar = true := by
  cases text with
  | nil => rfl
  | cons c rest =>
    by_cases hc : c = 'e' ∨ c = 'E'
    · obtain ⟨-, hdigits⟩ : (splitSign rest).2 ≠ [] ∧
          ∀ d ∈ (splitSign rest).2, d.isDigit = true := by
        simpa [readExponent?, hc] using h
      have hrest : rest.all isNotationChar = true := by
        refine all_of_all_splitSign (all_of_all_dropWhile ?_)
        rw [List.dropWhile_eq_nil_iff.mpr hdigits]
        rfl
      rcases hc with rfl | rfl <;> exact hrest
    · simp [readExponent?, hc] at h

/-- **A number in decimal notation is made of such characters.** -/
lemma all_of_ofText? {text : List Char} (h : (ofText? text).isSome = true) :
    text.all isNotationChar = true := by
  refine all_of_all_splitSign (all_of_all_dropWhile ?_)
  have hsome : ∀ {p : Bool} {o : Option Int} {f : Int → Notation},
      (if p then none else o.map f).isSome = true → o.isSome = true := by
    intro p o f hp
    cases p
    · simpa using hp
    · cases hp
  unfold ofText? at h
  dsimp only at h
  split at h
  · next tail hrest =>
    rw [hrest, List.all_cons, all_of_all_dropWhile (all_of_readExponent? (hsome h))]
    rfl
  · exact all_of_readExponent? (hsome h)

end Notation

/-! ## Numbers that are written -/

variable {digits : List Char}

/-- The digits of a number are in decimal notation. -/
lemma isNotationChar_of_mem_digits {n : ℕ} {c : Char} (h : c ∈ Numeral.digits n) :
    isNotationChar c = true := by
  have hdigit : c.isDigit = true := Nat.isDigit_of_mem_toDigits (by decide) (by decide) h
  simp [isNotationChar, hdigit]

/-- Digits with a point are in decimal notation. -/
lemma isNotationChar_of_mem_positional (h : ∀ c ∈ digits, isNotationChar c = true) {places : ℤ} :
    ∀ c ∈ positional digits places, isNotationChar c = true := by
  have hzero : isNotationChar '0' = true := by decide
  have hpoint : isNotationChar '.' = true := by decide
  intro c hc
  rw [positional] at hc
  split at hc
  · simp only [List.mem_append, List.mem_cons, List.mem_replicate, List.not_mem_nil,
      or_false] at hc
    rcases hc with ((rfl | rfl) | ⟨-, rfl⟩) | hc
    · exact hzero
    · exact hpoint
    · exact hzero
    · exact h c hc
  · simp only [List.mem_append, List.mem_cons, List.mem_replicate] at hc
    rcases hc with (hc | ⟨-, rfl⟩) | rfl | hc
    · exact h c (List.mem_of_mem_take hc)
    · exact hzero
    · exact hpoint
    · split at hc
      · rw [List.mem_singleton] at hc
        rw [hc]
        exact hzero
      · exact h c (List.mem_of_mem_drop hc)

/-- So are digits with an exponent. -/
lemma isNotationChar_of_mem_scientific (layout : Layout)
    (h : ∀ c ∈ digits, isNotationChar c = true) {leading : ℤ} :
    ∀ c ∈ scientific layout digits leading, isNotationChar c = true := by
  have hsign : ∀ c ∈ (if leading < 0 then ['-'] else if layout.plus then ['+'] else []),
      isNotationChar c = true := by
    split_ifs <;> exact List.all_eq_true.mp (by decide)
  intro c hc
  unfold scientific at hc
  simp only [List.mem_append, List.mem_cons] at hc
  rcases hc with (hc | rfl | hc) | hc
  · split at hc
    · simp only [List.mem_cons, forall_eq_or_imp] at hc h
      rcases hc with rfl | rfl | rfl | hc
      · exact h.1
      · decide
      · exact h.2.1
      · exact h.2.2 c hc
    · exact h c hc
  · decide
  · exact hsign c hc
  · exact isNotationChar_of_mem_digits hc

/-- **A decimal is written with such characters.** -/
lemma Decimal.isNotationChar_of_mem_write (layout : Layout) (d : Decimal) {c : Char}
    (h : c ∈ d.write layout) : isNotationChar c = true := by
  have hdigits : ∀ c ∈ Numeral.digits d.digits, isNotationChar c = true := fun c hc =>
    isNotationChar_of_mem_digits hc
  rw [Decimal.write] at h
  split at h
  · exact isNotationChar_of_mem_positional hdigits c h
  · exact isNotationChar_of_mem_scientific layout hdigits c h

/-- **A double is written with such characters**, or with letters if it is infinite or no
number. -/
lemma isNotationChar_of_mem_write (layout : Layout) (x : Float) {c : Char}
    (h : c ∈ (write layout x).toList) : isNotationChar c = true ∨ c.isAlpha = true := by
  have hsign : c ∈ (if isNegative x then "-" else "").toList → isNotationChar c = true := by
    split
    · exact fun h => List.mem_singleton.mp h ▸ (by decide)
    · exact fun h => absurd h List.not_mem_nil
  have hzero : ∀ c ∈ ['0', '.', '0'], isNotationChar c = true := List.all_eq_true.mp (by decide)
  rw [write] at h
  split at h
  · next magnitude _ =>
    rw [String.toList_append, String.toList_ofList, List.mem_append] at h
    refine Or.inl (h.elim hsign fun h => ?_)
    rw [Finite.write] at h
    split at h
    · exact hzero c h
    · exact Decimal.isNotationChar_of_mem_write layout _ h
  · have hletters : ∀ c ∈ "inf".toList ++ "NaN".toList, c.isAlpha = true :=
      List.all_eq_true.mp (by decide)
    split at h
    · rw [String.toList_append, List.mem_append] at h
      exact h.imp hsign fun h => hletters c (List.mem_append_left _ h)
    · exact Or.inr (hletters c (List.mem_append_right _ h))

end Binary64

end Constellation
