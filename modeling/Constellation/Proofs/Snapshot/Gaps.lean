import Mathlib.Data.List.Basic
import Mathlib.Order.Basic
import Constellation.Snapshot.Index
set_option autoImplicit false

/-!
# The gaps in an ascending list

The missing steps are found by counting, one step after another. Here they are read off the list of
the steps that are there, as what lies between neighbours.

## Main definitions

* `Snapshot.gaps` — what an ascending list passes over.

## Main results

* `Snapshot.missingSteps_eq_gaps` — counting finds the gaps.
* `Snapshot.mem_gaps` — a number is in a gap if it is passed over.
* `Snapshot.pairwise_gaps` — the numbers in gaps ascend.
* `Snapshot.length_gaps` — every number up to the last one is either there or in a gap.
-/

namespace Constellation

namespace Snapshot

/-- The numbers from `next` on that are missing in an ascending list up to its last number. -/
def gaps : (next : ℕ) → List ℕ → List ℕ
  | _, [] => []
  | next, k :: rest => List.range' next (k - next) ++ gaps (k + 1) rest

/-! ## Counting -/

/-- The first step that is still to come is passed when it is reached. -/
lemma run_filterAuxM_of_head {step : ℕ} {steps acc present : List ℕ}
    (h : present.head? = some step) :
    ((step :: steps).filterAuxM isMissing acc).run present =
      (steps.filterAuxM isMissing acc).run present.tail := by
  have hpassed : (isMissing step).run present = (false, present.tail) := by
    simp only [isMissing, StateT.run_bind, StateT.run_get, pure_bind, if_pos h]
    rfl
  rw [List.filterAuxM, StateT.run_bind, hpassed]
  rfl

/-- Any other step is missing. -/
lemma run_filterAuxM_of_head_ne {step : ℕ} {steps acc present : List ℕ}
    (h : present.head? ≠ some step) :
    ((step :: steps).filterAuxM isMissing acc).run present =
      (steps.filterAuxM isMissing (step :: acc)).run present := by
  have hmissing : (isMissing step).run present = (true, present) := by
    simp only [isMissing, StateT.run_bind, StateT.run_get, pure_bind, if_neg h]
    rfl
  rw [List.filterAuxM, StateT.run_bind, hmissing]
  rfl

/-- A number that is passed over begins a gap. -/
lemma gaps_of_lt {next first : ℕ} (rest : List ℕ) (h : next < first) :
    gaps next (first :: rest) = next :: gaps (next + 1) (first :: rest) := by
  obtain ⟨d, rfl⟩ := Nat.exists_eq_add_of_lt h
  have hlength : next + d + 1 - next = d + 1 := by omega
  have hshorter : next + d + 1 - (next + 1) = d := by omega
  rw [gaps, gaps, hlength, hshorter, List.range'_succ, List.cons_append]

/-- The number after the last one of a list is that of its rest, or the one after its first number
if there is no rest. -/
lemma getD_getLast?_cons (next first : ℕ) (rest : List ℕ) :
    ((first :: rest).getLast?.map (· + 1)).getD next =
      (rest.getLast?.map (· + 1)).getD (first + 1) := by
  rw [List.getLast?_cons]
  cases rest.getLast? <;> rfl

/-- Counting from `next` to the last number of an ascending list collects its gaps.

**Proof sketch.** Induction on how far is counted. Either `next` is the first number of the list,
which is then passed, or it lies before that number and begins a gap. -/
lemma run_filterAuxM_range' {next count : ℕ} {present acc : List ℕ}
    (hsorted : present.Pairwise (· < ·)) (hnext : ∀ k ∈ present, next ≤ k)
    (hcount : next + count = (present.getLast?.map (· + 1)).getD next) :
    ((List.range' next count).filterAuxM isMissing acc).run present =
      ((gaps next present).reverse ++ acc, []) := by
  induction count generalizing next present acc with
  | zero =>
    cases hlast : present.getLast? with
    | none =>
      obtain rfl := List.getLast?_eq_none_iff.mp hlast
      rfl
    | some last =>
      have hle := hnext last (List.mem_of_getLast? hlast)
      simp only [hlast, Option.map_some, Option.getD_some] at hcount
      omega
  | succ count ih =>
    rw [List.range'_succ]
    cases present with
    | nil =>
      simp only [List.getLast?_nil, Option.map_none, Option.getD_none] at hcount
      omega
    | cons first rest =>
      have hle : next ≤ first := hnext first (List.mem_cons_self ..)
      rw [getD_getLast?_cons] at hcount
      by_cases hreached : first = next
      · subst hreached
        rw [List.pairwise_cons] at hsorted
        have hafter : first + 1 + count = (rest.getLast?.map (· + 1)).getD (first + 1) := by
          rw [← hcount, Nat.add_right_comm, Nat.add_assoc]
        rw [run_filterAuxM_of_head rfl, List.tail_cons, ih hsorted.2 hsorted.1 hafter, gaps,
          Nat.sub_self, List.range'_zero, List.nil_append]
      · have hlt : next < first := Nat.lt_of_le_of_ne hle (Ne.symm hreached)
        have hlater : ∀ k ∈ first :: rest, next + 1 ≤ k := fun k hk => by
          rcases List.mem_cons.mp hk with rfl | hk
          · exact hlt
          · exact Nat.lt_trans hlt ((List.pairwise_cons.mp hsorted).1 k hk)
        have hafter : next + 1 + count =
            ((first :: rest).getLast?.map (· + 1)).getD (next + 1) := by
          rw [getD_getLast?_cons, ← hcount, Nat.add_right_comm, Nat.add_assoc]
        rw [run_filterAuxM_of_head_ne (by simpa using hreached), ih hsorted hlater hafter,
          gaps_of_lt rest hlt, List.reverse_cons, List.append_assoc, List.singleton_append]

/-- **Counting finds the gaps** between the steps of ascending times. -/
lemma missingSteps_eq_gaps {step last : ℕ} {times : List ℕ} (hlast : times.getLast? = some last)
    (hsorted : (times.map (· / step)).Pairwise (· < ·)) :
    missingSteps step times = gaps 0 (times.map (· / step)) := by
  have hcount : 0 + (last / step + 1) =
      ((times.map (· / step)).getLast?.map (· + 1)).getD 0 := by
    rw [List.getLast?_map, hlast, Option.map_some, Option.map_some, Option.getD_some, Nat.zero_add]
  have hrun : ((List.range' 0 (last / step + 1)).filterAuxM isMissing []).run
      (times.map (· / step)) = ((gaps 0 (times.map (· / step))).reverse ++ [], []) :=
    run_filterAuxM_range' hsorted (fun k _ => Nat.zero_le k) hcount
  rw [missingSteps, hlast, Option.getD_some, List.range_eq_range', List.filterM, StateT.run_bind,
    hrun]
  exact (congrArg List.reverse (List.append_nil _)).trans (List.reverse_reverse _)

/-! ## What is passed over -/

/-- **A number is in a gap** if it is not in the list, but a later number is.

**Proof sketch.** Induction on the list. The numbers before its first one form the first gap, and
the rest of the list is counted from the number after it. -/
lemma mem_gaps {n next : ℕ} {l : List ℕ} (hsorted : l.Pairwise (· < ·))
    (hnext : ∀ k ∈ l, next ≤ k) :
    n ∈ gaps next l ↔ next ≤ n ∧ n ∉ l ∧ ∃ k ∈ l, n < k := by
  induction l generalizing next with
  | nil => simp [gaps]
  | cons first rest ih =>
    rw [List.pairwise_cons] at hsorted
    obtain ⟨hfirst, hrest⟩ := hsorted
    have hle : next ≤ first := hnext first (List.mem_cons_self ..)
    have hlater : n ∈ gaps (first + 1) rest ↔
        first + 1 ≤ n ∧ n ∉ rest ∧ ∃ k ∈ rest, n < k := ih hrest fun k hk => hfirst k hk
    have hgap : n ∈ List.range' next (first - next) ↔ next ≤ n ∧ n < first := by
      rw [List.mem_range'_1]
      omega
    rw [gaps, List.mem_append, hgap, hlater]
    simp only [List.mem_cons, not_or]
    constructor
    · rintro (⟨hge, hlt⟩ | ⟨hge, hnotMem, k, hk, hlt⟩)
      · have hnotMem : n ∉ rest := fun hmem => absurd (hfirst n hmem) (by omega)
        exact ⟨hge, ⟨by omega, hnotMem⟩, first, Or.inl rfl, hlt⟩
      · exact ⟨by omega, ⟨by omega, hnotMem⟩, k, Or.inr hk, hlt⟩
    · rintro ⟨hge, ⟨hne, hnotMem⟩, k, hk, hlt⟩
      by_cases hbefore : n < first
      · exact Or.inl ⟨hge, hbefore⟩
      · have hmem : k ∈ rest := by
          rcases hk with rfl | hk
          · exact absurd hlt hbefore
          · exact hk
        exact Or.inr ⟨by omega, hnotMem, k, hmem, hlt⟩

/-- **The numbers in gaps ascend.** -/
lemma pairwise_gaps {next : ℕ} {l : List ℕ} (hsorted : l.Pairwise (· < ·))
    (hnext : ∀ k ∈ l, next ≤ k) : (gaps next l).Pairwise (· < ·) := by
  induction l generalizing next with
  | nil => exact List.Pairwise.nil
  | cons first rest ih =>
    have hle : next ≤ first := hnext first (List.mem_cons_self ..)
    rw [List.pairwise_cons] at hsorted
    obtain ⟨hfirst, hrest⟩ := hsorted
    rw [gaps, List.pairwise_append]
    refine ⟨List.pairwise_lt_range' .., ih hrest fun k hk => hfirst k hk, fun a ha b hb => ?_⟩
    have hafter := ((mem_gaps hrest fun k hk => hfirst k hk).mp hb).1
    rw [List.mem_range'_1] at ha
    omega

/-- **Every number up to the last one** is either in the list or in a gap. -/
lemma length_gaps {next last : ℕ} {l : List ℕ} (hsorted : l.Pairwise (· < ·))
    (hnext : ∀ k ∈ l, next ≤ k) (hlast : l.getLast? = some last) :
    next + (l.length + (gaps next l).length) = last + 1 := by
  induction l generalizing next with
  | nil => cases hlast
  | cons first rest ih =>
    have hle : next ≤ first := hnext first (List.mem_cons_self ..)
    rw [List.pairwise_cons] at hsorted
    obtain ⟨hfirst, hrest⟩ := hsorted
    rw [gaps, List.length_append, List.length_range', List.length_cons]
    cases rest with
    | nil =>
      obtain rfl : first = last := by simpa using hlast
      simp only [gaps, List.length_nil]
      omega
    | cons second rest =>
      rw [List.getLast?_cons_cons] at hlast
      have hcount : first + 1 + ((second :: rest).length +
          (gaps (first + 1) (second :: rest)).length) = last + 1 :=
        ih hrest (fun k hk => hfirst k hk) hlast
      omega

end Snapshot

end Constellation
