import Mathlib.Algebra.GCDMonoid.Finset
import Mathlib.Algebra.GCDMonoid.Nat
import Mathlib.Data.Finset.Sort
import Constellation.Snapshot.Index
set_option autoImplicit false

/-!
# The times of the snapshots in a directory

The names in a directory determine a set of times. Everything that an index says is a function of
this set, of the directory and of a given step duration.

## Main definitions

* `Snapshot.timesNamed` — the times that the names in a directory stand for.
* `Snapshot.expectedStep` — the step duration that times are checked against.

## Main results

* `Snapshot.sortedTimes_eq_sort` — sorting times lists their set in ascending order.
* `Snapshot.euclid_eq_gcd` — Euclid's loop finds the greatest common divisor.
* `Snapshot.effectiveStep_sort` — how the step duration is found among the times of a set.
* `Snapshot.discover_of_namesIn` — the index of a directory depends on the set of times alone.
-/

namespace Constellation

namespace Snapshot

/-! ## Sets of times -/

/-- The times that the names in a directory stand for. -/
def timesNamed (names : List String) : Finset ℕ :=
  (names.filterMap fun name => timeOf? name.toList).toFinset

/-- Every time stands in a name. -/
lemma mem_timesNamed {names : List String} {time : ℕ} :
    time ∈ timesNamed names ↔ ∃ name ∈ names, timeOf? name.toList = some time := by
  rw [timesNamed, List.mem_toFinset, List.mem_filterMap]

/-- All times have 64 bits. -/
lemma lt_longBound_of_mem_timesNamed {names : List String} {time : ℕ}
    (h : time ∈ timesNamed names) : time < Numeral.longBound := by
  obtain ⟨name, -, hname⟩ := mem_timesNamed.mp h
  exact lt_longBound_of_timeOf? hname

/-! ## Sorting -/

/-- An ascending list without its repetitions ascends strictly. -/
lemma pairwise_dropRepeats : ∀ {l : List ℕ}, l.Pairwise (· ≤ ·) → (dropRepeats l).Pairwise (· < ·)
  | [], _ => List.Pairwise.nil
  | [a], _ => List.pairwise_singleton _ a
  | a :: b :: rest, h => by
    rw [List.pairwise_cons] at h
    obtain ⟨hfirst, hrest⟩ := h
    have ih := pairwise_dropRepeats hrest
    rw [dropRepeats]
    split
    · exact ih
    · next hne =>
      rw [List.pairwise_cons]
      refine ⟨fun c hc => ?_, ih⟩
      have hab := hfirst b (List.mem_cons_self ..)
      rw [mem_dropRepeats, List.mem_cons] at hc
      rcases hc with rfl | hc
      · omega
      · have hbc := (List.pairwise_cons.mp hrest).1 c hc
        omega

/-- Sorted times ascend strictly. -/
lemma pairwise_sortedTimes (times : List ℕ) : (sortedTimes times).Pairwise (· < ·) := by
  have hsorted : (times.mergeSort fun a b => decide (a ≤ b)).Pairwise fun a b =>
      decide (a ≤ b) = true := by
    refine List.pairwise_mergeSort (fun a b c hab hbc => ?_) (fun a b => ?_) times
    · simp only [decide_eq_true_eq] at hab hbc ⊢
      exact hab.trans hbc
    · simpa using Nat.le_total a b
  exact pairwise_dropRepeats (hsorted.imp fun hab => of_decide_eq_true hab)

/-- **Sorting times lists their set in ascending order.** -/
lemma sortedTimes_eq_sort (times : List ℕ) : sortedTimes times = times.toFinset.sort := by
  refine (pairwise_sortedTimes times).eq_of_mem_iff (Finset.sortedLT_sort _).pairwise fun t => ?_
  rw [mem_sortedTimes, Finset.mem_sort, List.mem_toFinset]

/-- The last of some sorted times is the greatest one. -/
lemma getLast?_sort {T : Finset ℕ} (hT : T.Nonempty) : T.sort.getLast? = some (T.max' hT) := by
  have hlength : T.sort.length - 1 < T.sort.length := by
    rw [Finset.length_sort]
    exact Nat.sub_lt hT.card_pos Nat.one_pos
  rw [List.getLast?_eq_getElem?, List.getElem?_eq_getElem hlength, Finset.sorted_last_eq_max']

/-- What is found first in an ascending list is the least number of its kind. -/
lemma find?_eq_some_iff_isLeast {l : List ℕ} (h : l.Pairwise (· < ·)) (p : ℕ → Bool) (n : ℕ) :
    l.find? p = some n ↔ IsLeast {k | k ∈ l ∧ p k = true} n := by
  rw [List.find?_eq_some_iff_append]
  constructor
  · rintro ⟨hn, before, after, rfl, hbefore⟩
    refine ⟨⟨by simp, hn⟩, fun k hk => ?_⟩
    obtain ⟨hmem, hpk⟩ := hk
    rw [List.pairwise_append, List.pairwise_cons] at h
    rw [List.mem_append, List.mem_cons] at hmem
    rcases hmem with hmem | rfl | hmem
    · exact absurd hpk (by simpa using hbefore k hmem)
    · exact le_rfl
    · exact (h.2.1.1 k hmem).le
  · rintro ⟨⟨hmem, hn⟩, hleast⟩
    obtain ⟨before, after, rfl⟩ := List.append_of_mem hmem
    refine ⟨hn, before, after, rfl, fun k hk => ?_⟩
    have hlt : k < n := (List.pairwise_append.mp h).2.2 k hk n (List.mem_cons_self ..)
    by_contra hpk
    have hle : n ≤ k := hleast ⟨List.mem_append_left _ hk, by simpa using hpk⟩
    omega

/-! ## The step duration -/

/-- The step duration that times are checked against: the given one if it is positive, else the
greatest common divisor of the times, unless there is no time but zero. -/
def expectedStep (given : Option ℕ) (T : Finset ℕ) : Option ℕ :=
  (given.filter fun step => 0 < step).or (if T = {0} then none else some (T.gcd id))

/-- **Euclid's loop finds the greatest common divisor**: every round keeps it. -/
lemma euclid_eq_gcd (a b : ℕ) : euclid a b = Nat.gcd a b := by
  induction a, b using euclid.induct with
  | case1 a => rw [euclid, if_pos rfl, Nat.gcd_zero_right]
  | case2 a b hne ih =>
    rw [euclid, if_neg hne, ih, Nat.gcd_comm, ← Nat.gcd_rec, Nat.gcd_comm]

/-- Folding takes the greatest common divisor of a number and all times. -/
lemma foldl_euclid (times : List ℕ) (a : ℕ) :
    times.foldl euclid a = Nat.gcd a (times.toFinset.gcd id) := by
  induction times generalizing a with
  | nil => simp
  | cons t times ih =>
    rw [List.foldl_cons, ih, euclid_eq_gcd, List.toFinset_cons, Finset.gcd_insert, Nat.gcd_assoc]
    rfl

/-- The common divisor of times is that of their set. -/
lemma commonDivisor_eq_gcd (times : List ℕ) : commonDivisor times = times.toFinset.gcd id := by
  rw [commonDivisor, foldl_euclid, Nat.gcd_zero_left]

/-- The greatest common divisor is zero only if there is no time but zero. -/
lemma gcd_eq_zero_iff {T : Finset ℕ} (hT : T.Nonempty) : T.gcd id = 0 ↔ T = {0} := by
  rw [Finset.gcd_eq_zero_iff, Finset.eq_singleton_iff_nonempty_unique_mem]
  exact (and_iff_right hT).symm

/-- **How the step duration is found** among the times of a set. -/
lemma effectiveStep_sort (given : Option ℕ) {T : Finset ℕ} (hT : T.Nonempty) :
    effectiveStep given T.sort = expectedStep given T := by
  have hinferred : (if commonDivisor T.sort = 0 then none else some (commonDivisor T.sort)) =
      if T = {0} then none else some (T.gcd id) := by
    rw [commonDivisor_eq_gcd, Finset.sort_toFinset]
    simp only [gcd_eq_zero_iff hT]
  match given with
  | none => exact hinferred
  | some 0 => exact hinferred
  | some (step + 1) => rfl

/-- A step duration is positive. -/
lemma expectedStep_pos {given : Option ℕ} {T : Finset ℕ} (hT : T.Nonempty) {step : ℕ}
    (h : expectedStep given T = some step) : 0 < step := by
  rw [expectedStep, Option.or_eq_some_iff, Option.filter_eq_some_iff] at h
  rcases h with ⟨-, hpos⟩ | ⟨-, hinferred⟩
  · simpa using hpos
  · split at hinferred
    · cases hinferred
    · next hne =>
      obtain rfl := Option.some.inj hinferred
      exact Nat.pos_of_ne_zero fun hzero => hne ((gcd_eq_zero_iff hT).mp hzero)

/-- There is no step duration only if there is no time but zero. -/
lemma eq_singleton_of_expectedStep {given : Option ℕ} {T : Finset ℕ}
    (h : expectedStep given T = none) : T = {0} := by
  rw [expectedStep, Option.or_eq_none_iff] at h
  by_contra hne
  rw [if_neg hne] at h
  cases h.2

/-! ## Discovery -/

/-- The times in a directory are those that its names stand for. -/
lemma timesIn_of_namesIn {tree : FileTree} {directory : Path} {names : List String}
    (h : tree.namesIn directory = .ok names) :
    timesIn tree directory = .ok (timesNamed names).sort := by
  rw [timesIn, h]
  exact congrArg Except.ok (sortedTimes_eq_sort _)

/-- **The index of a directory depends on the set of times alone.** -/
lemma discover_of_namesIn {tree : FileTree} {directory : Path} {names : List String}
    (h : tree.namesIn directory = .ok names) (given : Option ℕ) :
    discover tree directory given =
      if timesNamed names = ∅ then .error (.empty directory)
      else Index.ofTimes directory given (timesNamed names).sort := by
  rw [discover, timesIn_of_namesIn h]
  have hempty : (timesNamed names).sort.isEmpty = decide (timesNamed names = ∅) := by
    rw [Bool.eq_iff_iff, List.isEmpty_iff_length_eq_zero, Finset.length_sort, decide_eq_true_eq,
      Finset.card_eq_zero]
  show (if (timesNamed names).sort.isEmpty then _ else _) = _
  simp only [hempty, decide_eq_true_eq]
  rfl

/-- The index of a directory whose times are known in ascending order. -/
lemma discover_of_times {tree : FileTree} {directory : Path} {names : List String}
    {times : List ℕ} (h : tree.namesIn directory = .ok names)
    (htimes : timesNamed names = times.toFinset) (hsorted : times.Pairwise (· < ·))
    (hne : times ≠ []) (given : Option ℕ) :
    discover tree directory given = Index.ofTimes directory given times := by
  have hsort : (timesNamed names).sort = times := by
    rw [htimes]
    exact (List.toFinset_sort _ hsorted.nodup).mpr (hsorted.imp Nat.le_of_lt)
  have hnonempty : timesNamed names ≠ ∅ := by
    rw [htimes, ne_eq, List.toFinset_eq_empty_iff]
    exact hne
  rw [discover_of_namesIn h, if_neg hnonempty, hsort]

/-- An index can only be found if the directory can be searched. -/
lemma exists_namesIn_of_discover {tree : FileTree} {directory : Path} {given : Option ℕ}
    {index : Index} (h : discover tree directory given = .ok index) :
    ∃ names, tree.namesIn directory = .ok names ∧ (timesNamed names).Nonempty ∧
      Index.ofTimes directory given (timesNamed names).sort = .ok index := by
  cases hnames : tree.namesIn directory with
  | error fault =>
    rw [discover, timesIn, hnames] at h
    cases h
  | ok names =>
    rw [discover_of_namesIn hnames] at h
    split at h
    · cases h
    · next hne => exact ⟨names, rfl, Finset.nonempty_iff_ne_empty.mpr hne, h⟩

end Snapshot

end Constellation
