import Mathlib.Data.List.Forall2
import Mathlib.Data.List.TakeWhile
import Mathlib.Data.Nat.Notation
import Mathlib.Tactic.Lemma
import Constellation.Json.Basic
import Constellation.Json.Reading
set_option autoImplicit false

/-!
# Numbers and strings in JSON texts

A number ends where the text goes on with something that cannot belong to it, and a string ends at
its closing quote. So both are read from the text in which they stand, whatever follows.

## Main definitions

* `Json.Stops` — a text does not continue a number in front of it.
* `Json.ReadsBack` — a double is read back from its own text.
* `Json.IsNumeral` — the texts that are numbers, said without a reader.
* `Json.IsUnit` — a text stands for one unit of a string.

## Main results

* `Json.Number.read_append` — a number is read the same when the text goes on with something else.
* `Json.Number.read_digits` — an integer is read back from its digits.
* `Json.isNumeral_iff` — the numbers are the texts that are read as numbers up to their end.
* `Json.readUnits_flatten` — a string is read unit by unit up to its closing quote.
* `Json.isUnit_escape` — the escape of a character stands for that character.

## Design

Doubles are printed as the shortest decimal and read by one multiplication or division, which may
round once more. Whether a double survives that is a property of the double, `Json.ReadsBack`, which
is assumed where it is needed.
-/

namespace Constellation

namespace Json

/-! ## Numbers -/

/-- Whether a character can go on with a number. -/
def continuesNumber (c : Char) : Bool := c.isDigit || c = '.' || c = 'e' || c = 'E'

/-- A text does not go on with a number that stands in front of it. -/
def Stops (text : List Char) : Prop := ∀ c ∈ text.head?, continuesNumber c = false

/-- A double is finite and is read back from its text. -/
def ReadsBack (x : Float) : Prop := Number.read (writeReal x) = some (.real x, [])

instance (x : Float) : Decidable (ReadsBack x) :=
  match h : Number.read (writeReal x) with
  | some (.real y, []) =>
    decidable_of_iff (y = x) (by simp [ReadsBack, h])
  | some (.real _, _ :: _) => isFalse (by simp [ReadsBack, h])
  | some (.natural _, _) => isFalse (by simp [ReadsBack, h])
  | some (.negative _, _) => isFalse (by simp [ReadsBack, h])
  | some (.beyond, _) => isFalse (by simp [ReadsBack, h])
  | none => isFalse (by simp [ReadsBack, h])

variable {text rest : List Char} {number : Number}

/-- Nothing stops. -/
lemma stops_nil : Stops [] := by simp [Stops]

/-- What starts with a character that no number contains stops. -/
lemma stops_cons {c : Char} (h : continuesNumber c = false) : Stops (c :: rest) := by
  simpa [Stops] using h

namespace Number

/-- A run of digits ends where the text stops. -/
lemma takeWhile_append (text : List Char) (h : Stops rest) :
    (text ++ rest).takeWhile Char.isDigit = text.takeWhile Char.isDigit := by
  induction text with
  | nil =>
    cases rest with
    | nil => rfl
    | cons c rest =>
      have hc : c.isDigit = false := by
        have := h c rfl
        simp only [continuesNumber, Bool.or_eq_false_iff] at this
        exact this.1.1.1
      simp [hc]
  | cons c text ih =>
    cases hc : c.isDigit with
    | false => simp [hc]
    | true => simp [hc, ih]

/-- What follows a run of digits goes on up to the end. -/
lemma dropWhile_append (text : List Char) (h : Stops rest) :
    (text ++ rest).dropWhile Char.isDigit = text.dropWhile Char.isDigit ++ rest := by
  have hwhole : (text ++ rest).takeWhile Char.isDigit ++ (text ++ rest).dropWhile Char.isDigit =
      text.takeWhile Char.isDigit ++ (text.dropWhile Char.isDigit ++ rest) := by
    rw [List.takeWhile_append_dropWhile, ← List.append_assoc, List.takeWhile_append_dropWhile]
  rw [takeWhile_append text h] at hwhole
  exact List.append_cancel_left hwhole

/-- The digits of an exponent are read the same when the text goes on with something else. -/
lemma exponentDigits_append {f : List Char → Number} (hstop : Stops rest)
    (h : (if (text.takeWhile Char.isDigit).isEmpty then none
      else some (f (text.takeWhile Char.isDigit), text.dropWhile Char.isDigit)) =
        some (number, [])) :
    (if ((text ++ rest).takeWhile Char.isDigit).isEmpty then none
      else some (f ((text ++ rest).takeWhile Char.isDigit),
        (text ++ rest).dropWhile Char.isDigit)) = some (number, rest) := by
  rw [takeWhile_append text hstop, dropWhile_append text hstop]
  split at h
  · cases h
  · next hne =>
    obtain ⟨rfl, hend⟩ := Prod.mk.inj (Option.some.inj h)
    rw [if_neg hne, hend, List.nil_append]

/-- An exponent, or its absence, is read the same when the text goes on with something else. -/
lemma readExponent_append {isNegative : Bool} {n : Collected} {plain : Number} (hstop : Stops rest)
    (h : readExponent isNegative n plain text = some (number, [])) :
    readExponent isNegative n plain (text ++ rest) = some (number, rest) := by
  cases text with
  | nil =>
    cases h
    cases rest with
    | nil => rfl
    | cons c rest =>
      have hc : (c = 'e' || c = 'E') = false := by
        have := hstop c rfl
        simp only [continuesNumber, Bool.or_eq_false_iff] at this
        simp [this.1.2, this.2]
      unfold readExponent
      simp [hc]
  | cons c tail =>
    by_cases hc : (c = 'e' || c = 'E') = true
    case neg =>
      unfold readExponent at h
      simp [hc] at h
    case pos =>
    cases tail with
    | nil =>
      rw [readExponent.eq_4 _ _ _ _ _ (by simp) (by simp), if_pos hc] at h
      simp at h
    | cons d tail =>
      simp only [List.cons_append]
      by_cases hplus : d = '+'
      · subst hplus
        rw [readExponent, if_pos hc] at h ⊢
        exact exponentDigits_append hstop h
      · by_cases hminus : d = '-'
        · subst hminus
          rw [readExponent, if_pos hc] at h ⊢
          exact exponentDigits_append hstop h
        · rw [readExponent.eq_4 _ _ _ _ _ (by simp [hplus]) (by simp [hminus]), if_pos hc] at h ⊢
          exact exponentDigits_append hstop h

/-- A number whose sign has been read is read the same when the text goes on with something
else. -/
lemma readUnsigned_append {isNegative : Bool} (hstop : Stops rest)
    (h : readUnsigned isNegative text = some (number, [])) :
    readUnsigned isNegative (text ++ rest) = some (number, rest) := by
  unfold readUnsigned at h ⊢
  rw [takeWhile_append text hstop, dropWhile_append text hstop]
  dsimp only at h ⊢
  split at h
  case isTrue => cases h
  case isFalse hdigits =>
  rw [if_neg hdigits]
  split at h
  · next tail htail =>
    rw [htail, List.cons_append]
    split
    · next tail' heq =>
      obtain rfl : tail ++ rest = tail' := by simpa using heq
      rw [takeWhile_append tail hstop, dropWhile_append tail hstop]
      split at h
      · cases h
      · next hplaces =>
        rw [if_neg hplaces]
        exact readExponent_append hstop h
    · next hpoint => exact absurd rfl (hpoint _)
  · next hpoint =>
    split
    · -- the point would have to come from what follows, which stops
      next tail htail =>
      rcases List.append_eq_cons_iff.mp htail with ⟨-, rfl⟩ | ⟨before, hbefore, -⟩
      · exact absurd (hstop '.' rfl) (by decide)
      · exact absurd hbefore (hpoint before)
    · exact readExponent_append hstop h

/-- **A number is read the same** when the text goes on with something that does not continue
it. -/
lemma read_append (hstop : Stops rest) (h : Number.read text = some (number, [])) :
    Number.read (text ++ rest) = some (number, rest) := by
  cases text with
  | nil => simp [Number.read, readUnsigned] at h
  | cons c tail =>
    by_cases hminus : c = '-'
    · subst hminus
      rw [Number.read] at h
      rw [List.cons_append, Number.read]
      exact readUnsigned_append hstop h
    · rw [read.eq_2 _ (by simp [hminus])] at h ⊢
      exact readUnsigned_append hstop h

/-- A number starts with its sign or a digit. -/
lemma exists_cons_of_read {tail : List Char} (h : Number.read text = some (number, tail)) :
    ∃ c rest, text = c :: rest ∧ (c = '-' ∨ c.isDigit = true) := by
  cases text with
  | nil => simp [Number.read, readUnsigned] at h
  | cons c rest =>
    refine ⟨c, rest, rfl, ?_⟩
    by_cases hminus : c = '-'
    · exact Or.inl hminus
    · refine Or.inr ?_
      rw [read.eq_2 _ (by simp [hminus])] at h
      cases hdigit : c.isDigit with
      | true => rfl
      | false => simp [readUnsigned, hdigit] at h

/-- Digits are collected to the number they denote as long as it fits. -/
lemma foldl_whole : ∀ (digits : List Char) (significand : ℕ),
    Nat.ofDigitChars 10 digits significand < Numeral.longBound →
    digits.foldl (fun n c => n.whole (digitValue c)) (Collected.mk significand 0 true) =
      ⟨Nat.ofDigitChars 10 digits significand, 0, true⟩
  | [], _, _ => by simp
  | c :: digits, significand, h => by
    rw [Nat.ofDigitChars_cons] at h ⊢
    have hnext : 10 * significand + digitValue c < Numeral.longBound := by
      rw [Nat.ofDigitChars_eq_ofDigitChars_zero] at h
      have hpos : 0 < 10 ^ digits.length := Nat.pow_pos (by decide)
      have hle := Nat.le_mul_of_pos_left (10 * significand + (c.toNat - '0'.toNat)) hpos
      rw [digitValue]
      omega
    rw [List.foldl_cons, Collected.whole, if_pos (by simpa using hnext)]
    exact foldl_whole digits _ h

/-- Only zero is written with a zero in front. -/
lemma head?_digits {n : ℕ} (hn : n ≠ 0) : (Numeral.digits n).head? ≠ some '0' := by
  induction n using Nat.strongRecOn with
  | ind n ih =>
    rw [Numeral.digits, Nat.toDigits_eq_if (by decide)]
    split
    · next hlt =>
      have hdigit : ∀ m < 10, m ≠ 0 → Nat.digitChar m ≠ '0' := by decide
      simpa using hdigit n hlt hn
    · next hge =>
      obtain ⟨c, rest, hdigits⟩ :=
        List.exists_cons_of_ne_nil (Nat.toDigits_ne_nil (n := n / 10) (b := 10))
      have := ih (n / 10) (by omega) (by omega)
      rw [Numeral.digits, hdigits] at this
      simpa [hdigits] using this

/-- **An integer is read back from its digits.** -/
lemma read_digits {n : ℕ} (h : n < Numeral.longBound) :
    Number.read (Numeral.digits n) = some (.natural n, []) := by
  have hdigit : ∀ c ∈ Numeral.digits n, c.isDigit = true := fun _ hc =>
    Nat.isDigit_of_mem_toDigits (by decide) (by decide) hc
  have hvalue : Nat.ofDigitChars 10 (Numeral.digits n) 0 = n := Nat.ofDigitChars_ten_toDigits
  have hunsigned : readUnsigned false (Numeral.digits n) = some (.natural n, []) := by
    have hshort : ¬ ((Numeral.digits n).head? = some '0' ∧ 1 < (Numeral.digits n).length) := by
      rintro ⟨hhead, hlength⟩
      by_cases hn : n = 0
      · subst hn
        simp [Numeral.digits] at hlength
      · exact head?_digits hn hhead
    have hne : Numeral.digits n ≠ [] := Nat.toDigits_ne_nil
    unfold readUnsigned
    rw [List.takeWhile_eq_self_iff.mpr hdigit, List.dropWhile_eq_nil_iff.mpr hdigit]
    dsimp only
    rw [if_neg (by simpa [hne] using hshort), foldl_whole _ _ (by rwa [hvalue]), hvalue]
    rfl
  obtain ⟨c, rest, hdigits⟩ := List.exists_cons_of_ne_nil (Nat.toDigits_ne_nil (n := n) (b := 10))
  have hc : c ≠ '-' := by
    rintro rfl
    have := hdigit '-' (by simp [Numeral.digits, hdigits])
    exact absurd this (by decide)
  rw [Numeral.digits, hdigits] at hunsigned ⊢
  rwa [read.eq_2 _ (by simp [hc])]

end Number

/-! ## The grammar of numbers -/

/-- A run of at least one digit. -/
structure IsDigits (digits : List Char) : Prop where
  /-- There is a digit. -/
  nonempty : digits ≠ []
  /-- There are only digits. -/
  isDigit : ∀ c ∈ digits, c.isDigit = true

/-- The fraction of a number, or nothing. -/
inductive IsFraction : List Char → Prop
  | absent : IsFraction []
  | places {digits : List Char} (h : IsDigits digits) : IsFraction ('.' :: digits)

/-- The exponent of a number, or nothing. -/
inductive IsExponent : List Char → Prop
  | absent : IsExponent []
  | plain {mark : Char} {digits : List Char} (hmark : mark = 'e' ∨ mark = 'E')
    (h : IsDigits digits) : IsExponent (mark :: digits)
  | signed {mark sign : Char} {digits : List Char} (hmark : mark = 'e' ∨ mark = 'E')
    (hsign : sign = '+' ∨ sign = '-') (h : IsDigits digits) : IsExponent (mark :: sign :: digits)

/-- A number without its sign. There is no superfluous zero in front. -/
inductive IsUnsigned : List Char → Prop
  | parts {whole fraction exponent : List Char} (hwhole : IsDigits whole)
    (hzero : whole.head? = some '0' → whole.length = 1) (hfraction : IsFraction fraction)
    (hexponent : IsExponent exponent) : IsUnsigned (whole ++ fraction ++ exponent)

/-- A number. -/
inductive IsNumeral : List Char → Prop
  | unsigned {text : List Char} (h : IsUnsigned text) : IsNumeral text
  | negative {text : List Char} (h : IsUnsigned text) : IsNumeral ('-' :: text)

/-- The value of a text that is a number. -/
def Number.valueOf (text : List Char) : Number := ((Number.read text).map Prod.fst).getD .beyond

/-- A run of digits is read up to a text that does not go on with one. -/
lemma IsDigits.takeWhile_append {digits : List Char} (h : IsDigits digits)
    (hrest : ∀ c ∈ rest.head?, c.isDigit = false) :
    (digits ++ rest).takeWhile Char.isDigit = digits := by
  rw [List.takeWhile_append_of_pos h.isDigit]
  cases rest with
  | nil => simp
  | cons c rest => simp [hrest c rfl]

/-- What follows the digits is left. -/
lemma IsDigits.dropWhile_append {digits : List Char} (h : IsDigits digits)
    (hrest : ∀ c ∈ rest.head?, c.isDigit = false) :
    (digits ++ rest).dropWhile Char.isDigit = rest := by
  rw [List.dropWhile_append_of_pos h.isDigit]
  cases rest with
  | nil => rfl
  | cons c rest => simp [hrest c rfl]

/-- The digits of an exponent are read if there are some and nothing else. -/
lemma exponentDigits_iff {f : List Char → Number} :
    (∃ number, (if (text.takeWhile Char.isDigit).isEmpty then none
      else some (f (text.takeWhile Char.isDigit), text.dropWhile Char.isDigit)) =
        some (number, [])) ↔ IsDigits text := by
  constructor
  · rintro ⟨number, h⟩
    split at h
    · cases h
    · next hne =>
      have hdigit := List.dropWhile_eq_nil_iff.mp (Prod.mk.inj (Option.some.inj h)).2
      rw [List.takeWhile_eq_self_iff.mpr hdigit] at hne
      exact ⟨by simpa using hne, hdigit⟩
  · intro h
    rw [List.takeWhile_eq_self_iff.mpr h.isDigit, List.dropWhile_eq_nil_iff.mpr h.isDigit]
    exact ⟨_, if_neg (by simpa using h.nonempty)⟩

/-- An exponent is what is read as one. -/
lemma isExponent_iff {isNegative : Bool} {n : Number.Collected} {plain : Number} :
    (∃ number, Number.readExponent isNegative n plain text = some (number, [])) ↔
      IsExponent text := by
  constructor
  · rintro ⟨number, h⟩
    cases text with
    | nil => exact .absent
    | cons c tail =>
      by_cases hc : (c = 'e' || c = 'E') = true
      case neg =>
        unfold Number.readExponent at h
        simp [hc] at h
      case pos =>
      have hmark : c = 'e' ∨ c = 'E' := by simpa using hc
      cases tail with
      | nil =>
        rw [Number.readExponent.eq_4 _ _ _ _ _ (by simp) (by simp), if_pos hc] at h
        simp at h
      | cons d tail =>
        by_cases hplus : d = '+'
        · subst hplus
          rw [Number.readExponent, if_pos hc] at h
          exact .signed hmark (.inl rfl) (exponentDigits_iff.mp ⟨number, h⟩)
        · by_cases hminus : d = '-'
          · subst hminus
            rw [Number.readExponent, if_pos hc] at h
            exact .signed hmark (.inr rfl) (exponentDigits_iff.mp ⟨number, h⟩)
          · rw [Number.readExponent.eq_4 _ _ _ _ _ (by simp [hplus]) (by simp [hminus]),
              if_pos hc] at h
            exact .plain hmark (exponentDigits_iff.mp ⟨number, h⟩)
  · intro h
    cases h with
    | absent => exact ⟨plain, rfl⟩
    | @plain mark digits hmark h =>
      obtain ⟨d, tail, rfl⟩ := List.exists_cons_of_ne_nil h.nonempty
      have hd : d.isDigit = true := h.isDigit d List.mem_cons_self
      have hplus : d ≠ '+' := by
        rintro rfl
        exact absurd hd (by decide)
      have hminus : d ≠ '-' := by
        rintro rfl
        exact absurd hd (by decide)
      rw [Number.readExponent.eq_4 _ _ _ _ _ (by simp [hplus]) (by simp [hminus]),
        if_pos (by simpa using hmark)]
      exact exponentDigits_iff.mpr h
    | @signed mark sign digits hmark hsign h =>
      rcases hsign with rfl | rfl
      all_goals
        rw [Number.readExponent, if_pos (by simpa using hmark)]
        exact exponentDigits_iff.mpr h

/-- An exponent starts with its mark. -/
lemma IsExponent.head? (h : IsExponent text) : ∀ c ∈ text.head?, c = 'e' ∨ c = 'E' := by
  cases h with
  | absent => simp
  | plain hmark => simpa using hmark
  | signed hmark => simpa using hmark

/-- No digit goes on behind the digits of a number. -/
lemma isDigit_head?_append {fraction exponent : List Char} (hfraction : IsFraction fraction)
    (hexponent : IsExponent exponent) :
    ∀ c ∈ (fraction ++ exponent).head?, c.isDigit = false := by
  have hmark : ∀ c ∈ exponent.head?, c.isDigit = false := by
    intro c hc
    rcases hexponent.head? c hc with rfl | rfl <;> decide
  cases hfraction with
  | absent => exact hmark
  | places h => simp

/-- A number without its sign is what is read as one. -/
lemma isUnsigned_iff {isNegative : Bool} :
    (∃ number, Number.readUnsigned isNegative text = some (number, [])) ↔ IsUnsigned text := by
  constructor
  · rintro ⟨number, h⟩
    unfold Number.readUnsigned at h
    dsimp only at h
    split at h
    · cases h
    · next hdigits =>
      have hwhole : IsDigits (text.takeWhile Char.isDigit) :=
        ⟨fun hnil => hdigits (by simp [hnil]), fun _ hc => (List.mem_takeWhile_imp hc)⟩
      have hzero : (text.takeWhile Char.isDigit).head? = some '0' →
          (text.takeWhile Char.isDigit).length = 1 := by
        intro hhead
        have := List.length_pos_of_ne_nil hwhole.nonempty
        simp only [hhead, decide_true, Bool.true_and, Bool.or_eq_true, decide_eq_true_eq,
          not_or] at hdigits
        omega
      have htext : text = text.takeWhile Char.isDigit ++ text.dropWhile Char.isDigit :=
        List.takeWhile_append_dropWhile.symm
      split at h
      · next tail htail =>
        split at h
        · cases h
        · next hplaces =>
          have hfraction : IsDigits (tail.takeWhile Char.isDigit) :=
            ⟨by simpa using hplaces, fun _ hc => (List.mem_takeWhile_imp hc)⟩
          have hexponent := isExponent_iff.mp ⟨number, h⟩
          have := IsUnsigned.parts hwhole hzero (.places hfraction) hexponent
          rwa [List.append_assoc, List.cons_append, List.takeWhile_append_dropWhile, ← htail,
            ← htext] at this
      · have := IsUnsigned.parts hwhole hzero .absent (isExponent_iff.mp ⟨number, h⟩)
        rwa [List.append_nil, ← htext] at this
  · intro h
    cases h with
    | @parts whole fraction exponent hwhole hzero hfraction hexponent =>
    have hstop := isDigit_head?_append hfraction hexponent
    have hplain : ¬ (whole.head? = some '0' ∧ 1 < whole.length) := fun h => by
      have := hzero h.1
      omega
    unfold Number.readUnsigned
    rw [List.append_assoc, hwhole.takeWhile_append hstop, hwhole.dropWhile_append hstop]
    dsimp only
    rw [if_neg (by simpa [hwhole.nonempty] using hplain)]
    cases hfraction with
    | absent =>
      split
      · next tail htail =>
        rw [List.nil_append] at htail
        exact absurd (hexponent.head? '.' (by rw [htail]; rfl)) (by decide)
      · exact isExponent_iff.mpr hexponent
    | @places digits h =>
      have hstop := isDigit_head?_append .absent hexponent
      rw [List.nil_append] at hstop
      simp only [List.cons_append]
      rw [h.takeWhile_append hstop, h.dropWhile_append hstop, if_neg (by simpa using h.nonempty)]
      exact isExponent_iff.mpr hexponent

/-- No number without its sign starts with one. -/
lemma IsUnsigned.head?_ne (h : IsUnsigned text) : text.head? ≠ some '-' := by
  obtain ⟨hwhole, -, -, -⟩ := h
  intro hhead
  obtain ⟨c, tail, rfl⟩ := List.exists_cons_of_ne_nil hwhole.nonempty
  obtain rfl : c = '-' := by simpa using hhead
  exact absurd (hwhole.isDigit '-' List.mem_cons_self) (by decide)

/-- **The numbers of the grammar** are the texts that are read as numbers up to their end. -/
lemma isNumeral_iff : IsNumeral text ↔ ∃ number, Number.read text = some (number, []) := by
  constructor
  · rintro (h | h)
    · rw [Number.read.eq_2 _ fun tail htail => h.head?_ne (by rw [htail]; rfl)]
      exact isUnsigned_iff.mpr h
    · exact isUnsigned_iff.mpr h
  · rintro ⟨number, h⟩
    cases text with
    | nil => simp [Number.read, Number.readUnsigned] at h
    | cons c tail =>
      by_cases hminus : c = '-'
      · subst hminus
        exact .negative (isUnsigned_iff.mp ⟨number, h⟩)
      · rw [Number.read.eq_2 _ (by simp [hminus])] at h
        exact .unsigned (isUnsigned_iff.mp ⟨number, h⟩)

/-- A number is read with its value. -/
lemma IsNumeral.read (h : IsNumeral text) : Number.read text = some (Number.valueOf text, []) := by
  obtain ⟨number, hread⟩ := isNumeral_iff.mp h
  rw [Number.valueOf, hread]
  rfl

/-- What is read as a number has its value. -/
lemma Number.valueOf_of_read (h : Number.read text = some (number, rest)) :
    Number.valueOf text = number := by
  rw [Number.valueOf, h]
  rfl

/-! ## Strings -/

/-- A text stands for one unit of a string. -/
inductive IsUnit : List Char → Unit16 → Prop
  /-- A character that is neither the quote, nor the backslash, nor a control character. -/
  | plain {c : Char} (hquote : c ≠ '"') (hbackslash : c ≠ '\\') (hcontrol : 0x20 ≤ c.toNat) :
    IsUnit [c] (.char c)
  /-- A backslash and the letter for a character. -/
  | letter {c e : Char} (h : unescape? c = some e) : IsUnit ['\\', c] (.char e)
  /-- Four hexadecimal digits. -/
  | number {c₁ c₂ c₃ c₄ : Char} {n₁ n₂ n₃ n₄ : ℕ} (h₁ : hexValue? c₁ = some n₁)
    (h₂ : hexValue? c₂ = some n₂) (h₃ : hexValue? c₃ = some n₃) (h₄ : hexValue? c₄ = some n₄) :
    IsUnit ['\\', 'u', c₁, c₂, c₃, c₄]
      (.ofNumber (((n₁ * 16 + n₂) * 16 + n₃) * 16 + n₄))

/-- **A unit is read** from the text that stands for it. -/
lemma IsUnit.readUnits_append {unit : Unit16} (h : IsUnit text unit) (more : List Char) :
    readUnits (text ++ more) =
      (readUnits more).map fun (units, rest) => (unit :: units, rest) := by
  cases h with
  | plain hquote hbackslash hcontrol =>
    rw [List.singleton_append, readUnits.eq_5 _ _ (by simpa using hquote)
      (by simp [hbackslash]) (by simp [hbackslash]), if_neg (by omega)]
  | @letter mark e h =>
    have hmark : mark ≠ 'u' := by
      rintro rfl
      cases h
    rw [List.cons_append, List.singleton_append,
      readUnits.eq_4 _ _ fun _ _ _ _ _ hu _ => hmark hu, h]
  | number h₁ h₂ h₃ h₄ =>
    simp only [List.cons_append, List.nil_append, readUnits, h₁, h₂, h₃, h₄]

/-- The units of a string are read up to its closing quote. -/
lemma readUnits_flatten {parts : List (List Char)} {units : List Unit16}
    (h : List.Forall₂ IsUnit parts units) (rest : List Char) :
    readUnits (parts.flatten ++ '"' :: rest) = some (units, rest) := by
  induction h with
  | nil => rfl
  | cons hunit _ ih =>
    rw [List.flatten_cons, List.append_assoc, hunit.readUnits_append, ih]
    rfl

/-- What an escape of four digits names. -/
lemma hexValue?_hexDigit {n : ℕ} (h : n < 16) : hexValue? (hexDigit n) = some n := by
  revert n
  decide

/-- A character that is written with a number is below a space. -/
lemma unit16_ofNumber {c : Char} (h : c.toNat < 0x20) :
    Unit16.ofNumber (((0 * 16 + 0) * 16 + c.toNat / 16) * 16 + c.toNat % 16) = .char c := by
  have hvalue : ((0 * 16 + 0) * 16 + c.toNat / 16) * 16 + c.toNat % 16 = c.toNat := by omega
  have hhalf : ¬ (0xd800 ≤ c.toNat ∧ c.toNat < 0xe000) := by omega
  rw [hvalue, Unit16.ofNumber, if_neg (by simpa using hhalf), Char.ofNat_toNat]

/-- **An escape stands for its character.** -/
lemma isUnit_escape (c : Char) : IsUnit (escape c) (.char c) := by
  unfold escape
  split
  · next h => subst h; exact .letter rfl
  split
  · next h => subst h; exact .letter rfl
  split
  · next h => subst h; exact .letter rfl
  split
  · next h => subst h; exact .letter rfl
  split
  · next h => subst h; exact .letter rfl
  split
  · next h => subst h; exact .letter rfl
  split
  · next h => subst h; exact .letter rfl
  split
  · next hlow =>
    have hzero : hexValue? '0' = some 0 := by decide
    have := IsUnit.number hzero hzero (hexValue?_hexDigit (show c.toNat / 16 < 16 by omega))
      (hexValue?_hexDigit (show c.toNat % 16 < 16 by omega))
    rwa [unit16_ofNumber hlow] at this
  · next hquote hbackslash _ _ _ _ _ hlow => exact .plain hquote hbackslash (by omega)

/-- Characters spell their text. -/
lemma joinUnits_map_char (text : List Char) : joinUnits (text.map .char) = some text := by
  induction text with
  | nil => rfl
  | cons c text ih =>
    rw [List.map_cons, joinUnits, ih]
    rfl

end Json

end Constellation
