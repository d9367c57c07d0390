import Constellation.Proofs.Snapshot.Gaps
import Constellation.Proofs.Snapshot.Times
set_option autoImplicit false

/-!
# What the index of a directory says

The index of a directory is exact: it is refused for precisely two reasons, and otherwise it tells
which steps have a snapshot and which ones do not, up to the last snapshot.

## Main definitions

* `Snapshot.Index.Describes` — an index says of a set of times all that there is to say.

## Main results

* `Snapshot.describes_of_step` — the index of times that are multiples of the step describes them.
* `Snapshot.ofTimes_sort` — the outcome for a set of times.
* `Snapshot.discover_exact` — the outcome for a directory.

## Design

The times that are divided by the step are looked at as a list of steps. Dividing keeps them apart
and in order only because all of them are multiples of the step; this is what the check for
irregular times is good for.
-/

namespace Constellation

namespace Snapshot

/-- An index says of the times of the snapshots in a directory all that there is to say. -/
structure Index.Describes (index : Index) (directory : Path) (given : Option ℕ) (T : Finset ℕ)
    (hT : T.Nonempty) : Prop where
  /-- It is about the directory. -/
  directory : index.directory = directory
  /-- The times ascend, each once. -/
  times : index.times = T.sort
  /-- The step is the one that the times are checked against. -/
  step : index.step = expectedStep given T
  /-- The missing steps ascend, each once. -/
  sorted_missing : index.missing.Pairwise (· < ·)
  /-- They are the steps up to the last time that have no snapshot. -/
  mem_missing : ∀ k, k ∈ index.missing ↔
    ∃ s, index.step = some s ∧ k ≤ T.max' hT / s ∧ k * s ∉ T
  /-- The steps are counted from zero up to the last time. -/
  stepCount_of_step : ∀ s, index.step = some s → index.stepCount = T.max' hT / s + 1
  /-- Each of them has a snapshot or is missing. -/
  stepCount : index.stepCount = index.times.length + index.missing.length
  /-- The index is complete if there is a snapshot for each of them. -/
  isComplete_of_step : ∀ s, index.step = some s →
    (index.isComplete = true ↔ T = (Finset.range (T.max' hT / s + 1)).image (· * s))
  /-- Without a step it is complete, and there is a single snapshot at time zero. -/
  isComplete_of_none : index.step = none → (index.isComplete = true ↔ T = {0})

/-! ## Multiples of a step -/

section Multiples

variable {T : Finset ℕ} {s : ℕ}

/-- Different multiples of a step are multiples of it by different numbers. -/
lemma pairwise_map_div (hdvd : ∀ t ∈ T, s ∣ t) : (T.sort.map (· / s)).Pairwise (· < ·) := by
  rw [List.pairwise_map]
  refine (Finset.sortedLT_sort T).pairwise.imp_of_mem fun {a b} _ hb hab => ?_
  rw [Finset.mem_sort] at hb
  exact Nat.div_lt_div_of_lt_of_dvd (hdvd b hb) hab

/-- The steps of the times are those whose time is among them. -/
lemma mem_map_div (hs : 0 < s) (hdvd : ∀ t ∈ T, s ∣ t) {k : ℕ} :
    k ∈ T.sort.map (· / s) ↔ k * s ∈ T := by
  simp only [List.mem_map, Finset.mem_sort]
  constructor
  · rintro ⟨t, ht, rfl⟩
    rwa [Nat.div_mul_cancel (hdvd t ht)]
  · intro hk
    exact ⟨k * s, hk, Nat.mul_div_cancel k hs⟩

/-- The last of the steps is that of the last time. -/
lemma getLast?_map_div (hT : T.Nonempty) :
    (T.sort.map (· / s)).getLast? = some (T.max' hT / s) := by
  rw [List.getLast?_map, getLast?_sort hT]
  rfl

/-- The steps that counting misses are the gaps between the steps of the times. -/
lemma missingSteps_sort (hT : T.Nonempty) (hdvd : ∀ t ∈ T, s ∣ t) :
    missingSteps s T.sort = gaps 0 (T.sort.map (· / s)) :=
  missingSteps_eq_gaps (getLast?_sort hT) (pairwise_map_div hdvd)

/-- **The missing steps** are those up to the last time that have no snapshot. -/
lemma mem_missingSteps (hT : T.Nonempty) (hs : 0 < s) (hdvd : ∀ t ∈ T, s ∣ t) {k : ℕ} :
    k ∈ missingSteps s T.sort ↔ k ≤ T.max' hT / s ∧ k * s ∉ T := by
  rw [missingSteps_sort hT hdvd, mem_gaps (pairwise_map_div hdvd) fun j _ => Nat.zero_le j,
    mem_map_div hs hdvd]
  have hmax : T.max' hT / s * s = T.max' hT := Nat.div_mul_cancel (hdvd _ (T.max'_mem hT))
  constructor
  · rintro ⟨-, hnotMem, j, hj, hlt⟩
    have hle := T.le_max' _ ((mem_map_div hs hdvd).mp hj)
    have hjs : j ≤ T.max' hT / s := (Nat.le_div_iff_mul_le hs).mpr hle
    exact ⟨by omega, hnotMem⟩
  · rintro ⟨hle, hnotMem⟩
    refine ⟨Nat.zero_le k, hnotMem, T.max' hT / s, ?_, ?_⟩
    · rw [mem_map_div hs hdvd, hmax]
      exact T.max'_mem hT
    · refine Nat.lt_of_le_of_ne hle fun heq => hnotMem ?_
      rw [heq, hmax]
      exact T.max'_mem hT

/-- Nothing is missing if and only if every step up to the last time has a snapshot. -/
lemma missingSteps_eq_nil_iff (hT : T.Nonempty) (hs : 0 < s) (hdvd : ∀ t ∈ T, s ∣ t) :
    missingSteps s T.sort = [] ↔ T = (Finset.range (T.max' hT / s + 1)).image (· * s) := by
  rw [List.eq_nil_iff_forall_not_mem]
  simp only [mem_missingSteps hT hs hdvd, not_and, not_not]
  constructor
  · intro hall
    ext t
    simp only [Finset.mem_image, Finset.mem_range]
    constructor
    · intro ht
      refine ⟨t / s, ?_, Nat.div_mul_cancel (hdvd t ht)⟩
      exact Nat.lt_succ_of_le (Nat.div_le_div_right (T.le_max' t ht))
    · rintro ⟨k, hk, rfl⟩
      exact hall k (Nat.le_of_lt_succ hk)
  · intro hT' k hk
    rw [hT', Finset.mem_image]
    exact ⟨k, Finset.mem_range.mpr (Nat.lt_succ_of_le hk), rfl⟩

end Multiples

/-! ## The two kinds of indices -/

section Kinds

variable {directory : Path} {given : Option ℕ} {T : Finset ℕ}

/-- **The index of multiples of a step** describes them. -/
lemma describes_of_step (hT : T.Nonempty) {s : ℕ} (hstep : expectedStep given T = some s)
    (hdvd : ∀ t ∈ T, s ∣ t) :
    Index.Describes ⟨directory, T.sort, some s, missingSteps s T.sort⟩ directory given T hT := by
  have hs : 0 < s := expectedStep_pos hT hstep
  have hcount : (⟨directory, T.sort, some s, missingSteps s T.sort⟩ : Index).stepCount =
      T.max' hT / s + 1 := by
    rw [Index.stepCount]
    simp only [getLast?_sort hT]
  have hlength := length_gaps (pairwise_map_div hdvd) (fun j _ => Nat.zero_le j)
    (getLast?_map_div hT)
  rw [List.length_map, Nat.zero_add, ← missingSteps_sort hT hdvd] at hlength
  have honly : ∀ s', some s = some s' → s = s' := fun s' heq => Option.some.inj heq
  exact
    { directory := rfl
      times := rfl
      step := hstep.symm
      sorted_missing := by
        rw [missingSteps_sort hT hdvd]
        exact pairwise_gaps (pairwise_map_div hdvd) fun j _ => Nat.zero_le j
      mem_missing := fun k => by
        rw [mem_missingSteps hT hs hdvd]
        constructor
        · intro hk
          exact ⟨s, rfl, hk⟩
        · rintro ⟨s', heq, hk⟩
          obtain rfl := honly s' heq
          exact hk
      stepCount_of_step := fun s' heq => by
        obtain rfl := honly s' heq
        exact hcount
      stepCount := hcount.trans hlength.symm
      isComplete_of_step := fun s' heq => by
        obtain rfl := honly s' heq
        rw [Index.isComplete, List.isEmpty_iff]
        exact missingSteps_eq_nil_iff hT hs hdvd
      isComplete_of_none := fun heq => by cases heq }

/-- The index of a single snapshot at time zero describes it. -/
lemma describes_of_none (hT : T.Nonempty) (hstep : expectedStep given T = none) :
    Index.Describes ⟨directory, T.sort, none, []⟩ directory given T hT := by
  have hzero : T = {0} := eq_singleton_of_expectedStep hstep
  exact
    { directory := rfl
      times := rfl
      step := hstep.symm
      sorted_missing := List.Pairwise.nil
      mem_missing := fun k => by simp
      stepCount_of_step := fun s heq => by cases heq
      stepCount := rfl
      isComplete_of_step := fun s heq => by cases heq
      isComplete_of_none := fun _ => by simp [Index.isComplete, hzero] }

/-- **The outcome for a set of times**: the least time that is no multiple of the step is refused,
and if there is none, the index describes the times. -/
lemma ofTimes_sort (directory : Path) (given : Option ℕ) (hT : T.Nonempty) :
    (∃ t s, Index.ofTimes directory given T.sort = .error (.irregular t s) ∧
        expectedStep given T = some s ∧ IsLeast {t | t ∈ T ∧ ¬ s ∣ t} t) ∨
      (∀ s, expectedStep given T = some s → ∀ t ∈ T, s ∣ t) ∧
        ∃ index, Index.ofTimes directory given T.sort = .ok index ∧
          index.Describes directory given T hT := by
  rw [Index.ofTimes, effectiveStep_sort given hT]
  cases hstep : expectedStep given T with
  | none => exact Or.inr ⟨fun s heq => (by cases heq), _, rfl, describes_of_none hT hstep⟩
  | some s =>
    dsimp only
    have hindivisible : ∀ t, (t % s != 0) = true ↔ ¬ s ∣ t := by
      intro t
      rw [bne_iff_ne, Nat.dvd_iff_mod_eq_zero]
    cases hfound : T.sort.find? fun t => t % s != 0 with
    | some t =>
      rw [find?_eq_some_iff_isLeast (Finset.sortedLT_sort T).pairwise] at hfound
      simp only [Finset.mem_sort, hindivisible] at hfound
      exact Or.inl ⟨t, s, rfl, rfl, hfound⟩
    | none =>
      have hdvd : ∀ t ∈ T, s ∣ t := by
        intro t ht
        have hnot := List.find?_eq_none.mp hfound t ((Finset.mem_sort _).mpr ht)
        rw [hindivisible, not_not] at hnot
        exact hnot
      refine Or.inr ⟨fun s' heq => ?_, _, rfl, describes_of_step hT hstep hdvd⟩
      cases heq
      exact hdvd

end Kinds

/-! ## Directories -/

/-- An index that is found describes the times in the directory. -/
lemma exists_describes_of_discover {tree : FileTree} {directory : Path} {given : Option ℕ}
    {index : Index} (h : discover tree directory given = .ok index) :
    ∃ names, tree.namesIn directory = .ok names ∧ ∃ hT : (timesNamed names).Nonempty,
      index.Describes directory given (timesNamed names) hT := by
  obtain ⟨names, hnames, hT, hindex⟩ := exists_namesIn_of_discover h
  refine ⟨names, hnames, hT, ?_⟩
  rcases ofTimes_sort directory given hT with ⟨t, s, hout, -⟩ | ⟨-, index', hout, hdescribes⟩
  · rw [hout] at hindex
    cases hindex
  · rw [hout] at hindex
    cases hindex
    exact hdescribes

/-- **The index of a directory is exact.** Let `T` be the times that the names in the directory
stand for. The directory is refused as empty if and only if there are none. Otherwise a time is
refused as irregular if and only if it is the least one that is no multiple of the step, and if all
times are multiples, there is an index, which describes them: it lists the times, and its missing
steps are precisely those up to the last time that have no snapshot. -/
theorem discover_exact (tree : FileTree) (directory : Path) (given : Option ℕ)
    {names : List String} (h : tree.namesIn directory = .ok names) :
    (discover tree directory given = .error (.empty directory) ↔ timesNamed names = ∅) ∧
      ∀ hT : (timesNamed names).Nonempty,
        (∀ t s, discover tree directory given = .error (.irregular t s) ↔
          expectedStep given (timesNamed names) = some s ∧
            IsLeast {t | t ∈ timesNamed names ∧ ¬ s ∣ t} t) ∧
        ((∀ s, expectedStep given (timesNamed names) = some s →
            ∀ t ∈ timesNamed names, s ∣ t) →
          ∃ index, discover tree directory given = .ok index ∧
            index.Describes directory given (timesNamed names) hT) := by
  rw [discover_of_namesIn h]
  generalize timesNamed names = T
  constructor
  · by_cases hempty : T = ∅
    · simp [hempty]
    · rw [if_neg hempty]
      have hT := Finset.nonempty_iff_ne_empty.mpr hempty
      rcases ofTimes_sort directory given hT with ⟨t, s, hout, -⟩ | ⟨-, index, hout, -⟩
      · simp [hout, hempty]
      · simp [hout, hempty]
  · intro hT
    rw [if_neg hT.ne_empty]
    rcases ofTimes_sort directory given hT with
      ⟨t, s, hout, hstep, hleast⟩ | ⟨hdvd, index, hout, hindex⟩
    · rw [hout]
      refine ⟨fun t' s' => ⟨fun heq => ?_, fun ⟨hstep', hleast'⟩ => ?_⟩, fun hdvd => ?_⟩
      · cases heq
        exact ⟨hstep, hleast⟩
      · obtain rfl : s = s' := Option.some.inj (hstep.symm.trans hstep')
        rw [hleast.unique hleast']
      · exact absurd (hdvd s hstep t hleast.1.1) hleast.1.2
    · rw [hout]
      refine ⟨fun t s => ⟨fun heq => ?_, fun ⟨hstep, hleast⟩ => ?_⟩, fun _ => ?_⟩
      · cases heq
      · exact absurd (hdvd s hstep t hleast.1.1) hleast.1.2
      · exact ⟨index, rfl, hindex⟩

/-- A directory with a gap, with a name that is no snapshot, and with one that has zeros before its
time and belongs to a directory. -/
def sampleTree : FileTree :=
  .ofList [(["d"], .directory), (["d", "fstate_0.txt"], .file ByteArray.empty),
    (["d", "fstate_200.txt"], .file ByteArray.empty), (["d", "fstate_0300.txt"], .directory),
    (["d", "fstate_notes.txt"], .file ByteArray.empty)]

/-- The names in this directory. -/
def sampleNames : List String :=
  ["fstate_0.txt", "fstate_200.txt", "fstate_0300.txt", "fstate_notes.txt"]

/-- Its step is inferred and its gap is found, and a step that does not fit is refused. -/
theorem discover_exact_sample : sampleTree.namesIn ⟨"d"⟩ = .ok sampleNames ∧
    (∃ index, discover sampleTree ⟨"d"⟩ none = .ok index ∧ index.step = some 100 ∧
      index.times = [0, 200, 300] ∧ 1 ∈ index.missing ∧ index.stepCount = 4) ∧
    discover sampleTree ⟨"d"⟩ (some 200) = .error (.irregular 300 200) := by
  have hnames : sampleTree.namesIn ⟨"d"⟩ = .ok sampleNames := by decide
  have htimes : timesNamed sampleNames = [0, 200, 300].toFinset := by decide
  have hT : (timesNamed sampleNames).Nonempty := ⟨0, by decide⟩
  have hstep : expectedStep none (timesNamed sampleNames) = some 100 := by decide
  have hmax : (timesNamed sampleNames).max' hT = 300 :=
    (Finset.max'_eq_iff _ hT 300).mpr ⟨by decide, by decide⟩
  refine ⟨hnames, ?_, ?_⟩
  · obtain ⟨index, hindex, hdescribes⟩ :=
      ((discover_exact sampleTree ⟨"d"⟩ none hnames).2 hT).2 fun s hs => by
        cases hstep.symm.trans hs
        decide
    have hfound : index.step = some 100 := hdescribes.step.trans hstep
    refine ⟨index, hindex, hfound, ?_, ?_, ?_⟩
    · rw [hdescribes.times, htimes]
      exact (List.toFinset_sort _ (by decide)).mpr (by decide)
    · rw [hdescribes.mem_missing]
      exact ⟨100, hfound, by rw [hmax]; decide, by decide⟩
    · rw [hdescribes.stepCount_of_step 100 hfound, hmax]
  · refine (((discover_exact sampleTree ⟨"d"⟩ (some 200) hnames).2 hT).1 300 200).mpr ?_
    refine ⟨by decide, ⟨by decide, by decide⟩, fun t ht => ?_⟩
    obtain ⟨hmem, hdvd⟩ := ht
    rw [htimes, List.mem_toFinset] at hmem
    simp only [List.mem_cons, List.not_mem_nil, or_false] at hmem
    omega

end Snapshot

end Constellation
