import Constellation.Proofs.Snapshot.Discovery
set_option autoImplicit false

/-!
# Inferring the step

Without a given step the times in a directory are checked against their greatest common divisor.
Every step that fits the times divides the inferred one, so the steps that are found to be missing
are missing for the finer step as well.

## Main results

* `Snapshot.gcd_eq_of_adjacent` — two times that are one step apart determine the step.
* `Snapshot.discover_congr` — an index depends on the step that the times are checked against.
* `Snapshot.Index.Describes.mul_mem_missing` — what is missing is missing for a finer step, too.
* `Snapshot.discover_inferred` — how an index without a given step compares with one that has it.

## Design

The converse fails: if every other snapshot is missing, the inferred step is twice as long and
nothing is missing for it. It takes two neighbouring snapshots to rule this out.
-/

namespace Constellation

namespace Snapshot

/-! ## The step -/

section Steps

variable {T : Finset ℕ} {s : ℕ}

/-- Without a given step the greatest common divisor of the times is taken. -/
lemma expectedStep_none (hzero : T ≠ {0}) : expectedStep none T = some (T.gcd id) := by
  rw [expectedStep, if_neg hzero]
  rfl

/-- A positive step is taken as it is given. -/
lemma expectedStep_some (hs : 0 < s) (T : Finset ℕ) : expectedStep (some s) T = some s := by
  rw [expectedStep, Option.filter_some, if_pos (by simpa using hs), Option.some_or]

/-- **Two times that are one step apart determine the step**: what divides both of them divides
their distance. -/
lemma gcd_eq_of_adjacent (hdvd : ∀ t ∈ T, s ∣ t) {t : ℕ} (ht : t ∈ T) (hts : t + s ∈ T) :
    T.gcd id = s := by
  have hfirst : T.gcd id ∣ t := Finset.gcd_dvd ht
  have hsecond : T.gcd id ∣ t + s := Finset.gcd_dvd hts
  exact Nat.dvd_antisymm ((Nat.dvd_add_right hfirst).mp hsecond) (Finset.dvd_gcd hdvd)

end Steps

/-! ## Two indices of the same times -/

section Indices

variable {tree : FileTree} {directory : Path} {names : List String}

/-- **An index depends on the step that the times are checked against**, whether it is given or
inferred. -/
lemma discover_congr (h : tree.namesIn directory = .ok names) (hT : (timesNamed names).Nonempty)
    {given given' : Option ℕ}
    (hstep : expectedStep given (timesNamed names) = expectedStep given' (timesNamed names)) :
    discover tree directory given = discover tree directory given' := by
  rw [discover_of_namesIn h, discover_of_namesIn h, Index.ofTimes, Index.ofTimes,
    effectiveStep_sort given hT, effectiveStep_sort given' hT, hstep]

/-- There is an index if all times are multiples of the step. -/
lemma exists_describes_of_dvd (h : tree.namesIn directory = .ok names)
    (hT : (timesNamed names).Nonempty) {given : Option ℕ} {s : ℕ}
    (hstep : expectedStep given (timesNamed names) = some s)
    (hdvd : ∀ t ∈ timesNamed names, s ∣ t) :
    ∃ index, discover tree directory given = .ok index ∧ index.step = some s ∧
      index.Describes directory given (timesNamed names) hT := by
  rw [discover_of_namesIn h, if_neg hT.ne_empty]
  rcases ofTimes_sort directory given hT with
    ⟨t, s', -, hstep', hleast⟩ | ⟨-, index, hindex, hdescribes⟩
  · -- an irregular time would be no multiple of the step
    obtain rfl : s = s' := Option.some.inj (hstep.symm.trans hstep')
    exact absurd (hdvd t hleast.1.1) hleast.1.2
  · exact ⟨index, hindex, hdescribes.step.trans hstep, hdescribes⟩

/-- **What is missing for a step is missing for a finer one**, at the step with the same time. -/
lemma Index.Describes.mul_mem_missing {coarse fine : Index} {given given' : Option ℕ} {T : Finset ℕ}
    {hT : T.Nonempty} (hcoarse : coarse.Describes directory given T hT)
    (hfine : fine.Describes directory given' T hT) {g s : ℕ} (hg : coarse.step = some g)
    (hs : fine.step = some s) (hpos : 0 < s) (hdvd : s ∣ g) {k : ℕ} (hk : k ∈ coarse.missing) :
    k * (g / s) ∈ fine.missing := by
  have hsame : k * (g / s) * s = k * g := by rw [mul_assoc, Nat.div_mul_cancel hdvd]
  obtain ⟨g', hg', hle, hnotMem⟩ := (hcoarse.mem_missing k).mp hk
  obtain rfl : g = g' := Option.some.inj (hg.symm.trans hg')
  refine (hfine.mem_missing _).mpr ⟨s, hs, (Nat.le_div_iff_mul_le hpos).mpr ?_, ?_⟩
  · rw [hsame]
    exact Nat.le_trans (Nat.mul_le_mul_right g hle) (Nat.div_mul_le_self _ g)
  · rwa [hsame]

end Indices

/-- **The inferred step is sound.** Let `s` be a step that fits the times in a directory, among
which there is one other than zero. Then the directory has an index without a given step, just as it
has one for `s`. The inferred step is a multiple of `s` and fits all times, and the steps that are
missing for it are missing for `s` at the same times. If two snapshots are `s` apart, then `s` is
inferred, and both indices are the same. -/
theorem discover_inferred (tree : FileTree) (directory : Path) {names : List String}
    (h : tree.namesIn directory = .ok names) (hT : (timesNamed names).Nonempty)
    (hzero : timesNamed names ≠ {0}) {s : ℕ} (hs : 0 < s)
    (hdvd : ∀ t ∈ timesNamed names, s ∣ t) :
    ∃ inferred given g, discover tree directory none = .ok inferred ∧
      discover tree directory (some s) = .ok given ∧ inferred.step = some g ∧
      given.step = some s ∧ s ∣ g ∧ (∀ t ∈ timesNamed names, g ∣ t) ∧
      (∀ k ∈ inferred.missing, k * (g / s) ∈ given.missing) ∧
      ((∃ t ∈ timesNamed names, t + s ∈ timesNamed names) → g = s ∧ inferred = given) := by
  have hnone := expectedStep_none hzero
  have hsome := expectedStep_some hs (timesNamed names)
  have hfits : ∀ t ∈ timesNamed names, (timesNamed names).gcd id ∣ t := fun t => Finset.gcd_dvd
  have hmultiple : s ∣ (timesNamed names).gcd id := Finset.dvd_gcd hdvd
  obtain ⟨inferred, hinferred, hg, hcoarse⟩ := exists_describes_of_dvd h hT hnone hfits
  obtain ⟨given, hgiven, hstep, hfine⟩ := exists_describes_of_dvd h hT hsome hdvd
  refine ⟨inferred, given, _, hinferred, hgiven, hg, hstep, hmultiple, hfits, ?_, ?_⟩
  · exact fun k hk => hcoarse.mul_mem_missing hfine hg hstep hs hmultiple hk
  · rintro ⟨t, ht, hts⟩
    have hsame := gcd_eq_of_adjacent hdvd ht hts
    have hindex := discover_congr h hT (hnone.trans ((congrArg some hsame).trans hsome.symm))
    rw [hinferred, hgiven] at hindex
    exact ⟨hsame, Except.ok.inj hindex⟩

/-- Times at 0, 200 and 300 are multiples of 50, for which four steps are missing. The inferred step
is 100, whose missing step 1 is step 2 of these. For a given step of 100 the index is the same. -/
theorem discover_inferred_sample : sampleTree.namesIn ⟨"d"⟩ = .ok sampleNames ∧
    timesNamed sampleNames = {0, 200, 300} ∧
    (∃ inferred given, discover sampleTree ⟨"d"⟩ none = .ok inferred ∧
      discover sampleTree ⟨"d"⟩ (some 50) = .ok given ∧ inferred.step = some 100 ∧
      1 ∈ inferred.missing ∧ 2 ∈ given.missing) ∧
    discover sampleTree ⟨"d"⟩ none = discover sampleTree ⟨"d"⟩ (some 100) := by
  have hnames : sampleTree.namesIn ⟨"d"⟩ = .ok sampleNames := by decide
  have htimes : timesNamed sampleNames = {0, 200, 300} := by decide
  have hT : (timesNamed sampleNames).Nonempty := ⟨0, by decide⟩
  have hzero : timesNamed sampleNames ≠ {0} := by decide
  refine ⟨hnames, htimes, ?_, ?_⟩
  · obtain ⟨inferred, given, g, hinferred, hgiven, hg, -, -, -, hmissing, -⟩ :=
      discover_inferred sampleTree ⟨"d"⟩ hnames hT hzero (s := 50) (by decide) (by decide)
    have hexpected : expectedStep none (timesNamed sampleNames) = some 100 := by decide
    obtain ⟨index, hindex, hstep, hdescribes⟩ :=
      exists_describes_of_dvd hnames hT hexpected (by decide)
    obtain rfl : inferred = index := Except.ok.inj (hinferred.symm.trans hindex)
    obtain rfl : g = 100 := Option.some.inj (hg.symm.trans hstep)
    have hfirst : 1 ∈ inferred.missing := by
      refine (hdescribes.mem_missing 1).mpr ⟨100, hstep, ?_, by decide⟩
      exact (Nat.le_div_iff_mul_le (by decide)).mpr
        (Nat.le_trans (by decide) (Finset.le_max' _ 300 (by decide)))
    exact ⟨inferred, given, hinferred, hgiven, hstep, hfirst, hmissing 1 hfirst⟩
  · obtain ⟨inferred, given, g, hinferred, hgiven, -, -, -, -, -, hadjacent⟩ :=
      discover_inferred sampleTree ⟨"d"⟩ hnames hT hzero (s := 100) (by decide) (by decide)
    obtain ⟨-, hsame⟩ := hadjacent ⟨200, by decide, by decide⟩
    rw [hinferred, hgiven, hsame]

end Snapshot

end Constellation
