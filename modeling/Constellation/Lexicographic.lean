set_option autoImplicit false

/-!
# The lexicographic order

## Main definitions

* `lexicographic` — whether a list of numbers comes before another one or equals it.

## Main results

* `lexicographic_trans`, `lexicographic_total` — it is fit for sorting.
* `lexicographic_iff` — it is the dictionary order on lists.
-/

namespace Constellation

/-- Whether a list of numbers comes before another one or equals it. The first place where they
differ decides, and a list comes before its continuations. -/
def lexicographic : List Nat → List Nat → Bool
  | [], _ => true
  | _ :: _, [] => false
  | a :: as, b :: bs => if a = b then lexicographic as bs else decide (a < b)

/-- Of two lists one comes first, unless they are equal. -/
theorem lexicographic_total (l m : List Nat) :
    (lexicographic l m || lexicographic m l) = true := by
  induction l generalizing m with
  | nil => simp [lexicographic]
  | cons a as ih =>
    cases m with
    | nil => simp [lexicographic]
    | cons b bs =>
      by_cases h : a = b
      · subst h
        simpa [lexicographic] using ih bs
      · have h' : ¬ b = a := fun e => h e.symm
        simp only [lexicographic, if_neg h, if_neg h', Bool.or_eq_true, decide_eq_true_eq]
        omega

/-- The order is transitive. -/
theorem lexicographic_trans {l m n : List Nat} (hlm : lexicographic l m = true)
    (hmn : lexicographic m n = true) : lexicographic l n = true := by
  induction l generalizing m n with
  | nil => simp [lexicographic]
  | cons a as ih =>
    cases m with
    | nil => simp [lexicographic] at hlm
    | cons b bs =>
      cases n with
      | nil => simp [lexicographic] at hmn
      | cons c cs =>
        by_cases hab : a = b
        · subst hab
          by_cases hac : a = c
          · subst hac
            simp only [lexicographic, if_true] at hlm hmn ⊢
            exact ih hlm hmn
          · simpa [lexicographic, hac] using hmn
        · have hlt : a < b := by simpa [lexicographic, hab] using hlm
          have hle : b ≤ c := by
            by_cases hbc : b = c
            · omega
            · have : b < c := by simpa [lexicographic, hbc] using hmn
              omega
          have hac : ¬ a = c := by omega
          simp only [lexicographic, if_neg hac, decide_eq_true_eq]
          omega

/-- It is the dictionary order on lists. -/
theorem lexicographic_iff (l m : List Nat) :
    lexicographic l m = true ↔ l = m ∨ List.Lex (· < ·) l m := by
  induction l generalizing m with
  | nil =>
    cases m with
    | nil => simp [lexicographic]
    | cons b bs => simp [lexicographic]
  | cons a as ih =>
    cases m with
    | nil => simp [lexicographic]
    | cons b bs =>
      by_cases h : a = b
      · subst h
        rw [lexicographic, if_pos rfl, ih]
        simp
      · rw [lexicographic, if_neg h, decide_eq_true_eq]
        constructor
        · intro hlt
          exact Or.inr (List.Lex.rel hlt)
        · rintro (heq | hlex)
          · cases heq
            exact absurd rfl h
          · cases hlex with
            | rel hlt => exact hlt
            | cons _ => exact absurd rfl h

end Constellation
