import Constellation.History.Scan
import Constellation.Proofs.Snapshot.Discovery
set_option autoImplicit false

/-!
# The times at which a directory is scanned

A scan goes through the steps by their numbers, and finds the snapshot of a step under the product
of its number and the step duration. In a directory that may be scanned these products are the
times in ascending order.

## Main definitions

* `Snapshot.givenStep` — the step that a given duration stands for.

## Main results

* `SnapshotSource.timeOf?_eq_some` — a time that has 64 bits is not cut off.
* `Snapshot.Index.Describes.getElem?_times` — the times of a complete index are the multiples of
  its step.
* `Snapshot.Index.Describes.load_of_getElem?` — the snapshot of a step is loaded at the time of its
  number.
* `Snapshot.exists_times_of_stepsToScan` — the steps of a scan are at the times of the directory.
* `Snapshot.stepsToScan_times` — every step of a scan is read at the time that it is found under.

## Design

The product is taken of the lowest 64 bits of the duration. They are all of it unless the number of
the step is zero, and then the product is zero in any case. This is why a directory with a single
snapshot can be scanned with a fallback of any length.
-/

namespace Constellation

/-! ## Products -/

namespace SnapshotSource

/-- **A time that has 64 bits is not cut off.** -/
lemma timeOf?_eq_some {step : ℕ} {duration : Duration}
    (h : step * duration.nanos < Numeral.longBound) :
    timeOf? step duration = some (step * duration.nanos) := by
  have hproduct : step * (duration.nanos % Numeral.longBound) = step * duration.nanos := by
    rcases Nat.eq_zero_or_pos step with rfl | hpos
    · rw [Nat.zero_mul, Nat.zero_mul]
    · have hle : duration.nanos ≤ step * duration.nanos := Nat.le_mul_of_pos_left _ hpos
      rw [Nat.mod_eq_of_lt (lt_of_le_of_lt hle h)]
  rw [timeOf?]
  simp only [hproduct, h, if_true]

/-- The snapshot of a step is taken from the source at its time. -/
lemma load_of_timeOf? (source : SnapshotSource) {step time : ℕ} {duration : Duration}
    (h : timeOf? step duration = some time) :
    source.load step duration = (source step time).mapError (HistoryFault.snapshot step) := by
  cases hsource : source step time with
  | error fault => simp only [load, h, hsource, Except.mapError]
  | ok routes => simp only [load, h, hsource, Except.mapError]

end SnapshotSource

namespace Snapshot

/-! ## Complete indices -/

/-- The multiples of a step in ascending order. -/
lemma sort_image_mul {s : ℕ} (hs : 0 < s) (n : ℕ) :
    ((Finset.range n).image (· * s)).sort = (List.range n).map (· * s) := by
  have hmultiples : ((List.range n).map (· * s)).Pairwise (· < ·) := by
    rw [List.pairwise_map]
    refine List.pairwise_lt_range.imp fun hlt => ?_
    exact Nat.mul_lt_mul_of_pos_right hlt hs
  refine (Finset.sortedLT_sort _).pairwise.eq_of_mem_iff hmultiples fun t => ?_
  simp only [Finset.mem_sort, Finset.mem_image, Finset.mem_range, List.mem_map, List.mem_range]

namespace Index.Describes

variable {index : Index} {directory : Path} {given : Option ℕ} {T : Finset ℕ} {hT : T.Nonempty}

/-- A complete index counts its times. -/
lemma stepCount_of_isComplete (h : index.Describes directory given T hT)
    (hcomplete : index.isComplete = true) : index.stepCount = T.card := by
  rw [Index.isComplete, List.isEmpty_iff] at hcomplete
  rw [h.stepCount, hcomplete, h.times, Finset.length_sort]
  rfl

/-- **The times of a complete index are the multiples of its step**, or of anything else if there is
only a snapshot at time zero. -/
lemma getElem?_times (h : index.Describes directory given T hT)
    (hcomplete : index.isComplete = true) (fallback : Duration) {i : ℕ}
    (hi : i < index.stepCount) :
    T.sort[i]? = some (i * ((index.step.map Duration.mk).getD fallback).nanos) := by
  cases hstep : index.step with
  | some s =>
    have hs : 0 < s := expectedStep_pos hT (h.step.symm.trans hstep)
    rw [h.stepCount_of_step s hstep] at hi
    rw [(h.isComplete_of_step s hstep).mp hcomplete, sort_image_mul hs, List.getElem?_map,
      List.getElem?_range hi]
    rfl
  | none =>
    have hzero : T = {0} := (h.isComplete_of_none hstep).mp hcomplete
    rw [h.stepCount_of_isComplete hcomplete, hzero, Finset.card_singleton, Nat.lt_one_iff] at hi
    rw [hzero, Finset.sort_singleton, hi, Nat.zero_mul]
    rfl

/-- The steps of a complete index are as many as its times. -/
lemma lt_stepCount_iff (h : index.Describes directory given T hT)
    (hcomplete : index.isComplete = true) {i : ℕ} :
    i < index.stepCount ↔ ∃ time, T.sort[i]? = some time := by
  have hlength : T.sort.length = T.card := Finset.length_sort _
  rw [h.stepCount_of_isComplete hcomplete, ← hlength]
  constructor
  · intro hlt
    exact ⟨T.sort[i], List.getElem?_eq_getElem hlt⟩
  · rintro ⟨time, htime⟩
    exact (List.getElem?_eq_some_iff.mp htime).1

/-- **The snapshot of a step is loaded at the time of its number** if the index is complete. -/
lemma load_of_getElem? {names : List String} {hT : (timesNamed names).Nonempty}
    (h : index.Describes directory given (timesNamed names) hT)
    (hcomplete : index.isComplete = true) (fallback : Duration) {i time : ℕ}
    (htime : (timesNamed names).sort[i]? = some time) (source : SnapshotSource) :
    source.load i ((index.step.map Duration.mk).getD fallback) =
      (source i time).mapError (HistoryFault.snapshot i) := by
  have hproduct :=
    h.getElem?_times hcomplete fallback ((h.lt_stepCount_iff hcomplete).mpr ⟨time, htime⟩)
  obtain rfl := Option.some.inj (htime.symm.trans hproduct)
  have hmem := (Finset.mem_sort _).mp (List.mem_of_getElem? htime)
  exact source.load_of_timeOf?
    (SnapshotSource.timeOf?_eq_some (lt_longBound_of_mem_timesNamed hmem))

end Index.Describes

/-! ## Scans -/

/-- The step in nanoseconds that a directory is checked against if a duration is given. One that
needs more than 64 bits is cut down. -/
def givenStep (duration : Option Duration) : Option ℕ :=
  duration.map fun d => min UpdateInterval.saturation d.nanos

section Scans

variable {tree : FileTree} {directory : Path} {duration : Option Duration}

/-- What is to be scanned if the directory has an index. -/
lemma stepsToScan_of_discover {index : Index}
    (h : discover tree directory (givenStep duration) = .ok index) (fallback : Duration) :
    stepsToScan tree directory none duration fallback =
      if index.isComplete then
        .ok (index.stepCount, (index.step.map Duration.mk).getD fallback)
      else .error (.missingSteps index.missing) := by
  rw [givenStep] at h
  simp only [stepsToScan, h]

/-- Nothing is to be scanned if it has none. -/
lemma stepsToScan_of_discover_error {fault : SnapshotFault}
    (h : discover tree directory (givenStep duration) = .error fault) (fallback : Duration) :
    stepsToScan tree directory none duration fallback = .error (.discovery fault) := by
  rw [givenStep] at h
  simp only [stepsToScan, h]

/-- A directory that may be scanned has a complete index. -/
lemma exists_index_of_stepsToScan {fallback d : Duration} {n : ℕ}
    (h : stepsToScan tree directory none duration fallback = .ok (n, d)) :
    ∃ index, discover tree directory (givenStep duration) = .ok index ∧
      index.isComplete = true ∧ n = index.stepCount ∧
      d = (index.step.map Duration.mk).getD fallback := by
  cases hindex : discover tree directory (givenStep duration) with
  | error fault =>
    rw [stepsToScan_of_discover_error hindex] at h
    cases h
  | ok index =>
    rw [stepsToScan_of_discover hindex] at h
    split at h
    · next hcomplete =>
      cases h
      exact ⟨index, rfl, hcomplete, rfl, rfl⟩
    · cases h

/-- A directory with missing steps has an index that tells them. -/
lemma exists_index_of_missingSteps {fallback : Duration} {missing : List ℕ}
    (h : stepsToScan tree directory none duration fallback = .error (.missingSteps missing)) :
    ∃ index, discover tree directory (givenStep duration) = .ok index ∧
      index.missing ≠ [] ∧ missing = index.missing := by
  cases hindex : discover tree directory (givenStep duration) with
  | error fault =>
    rw [stepsToScan_of_discover_error hindex] at h
    cases h
  | ok index =>
    rw [stepsToScan_of_discover hindex] at h
    split at h
    · cases h
    · next hincomplete =>
      cases h
      rw [Index.isComplete, List.isEmpty_iff] at hincomplete
      exact ⟨index, rfl, hincomplete, rfl⟩

/-- **The steps of a scan are at the times of the directory**, one after the other. -/
lemma exists_times_of_stepsToScan {fallback d : Duration} {n : ℕ}
    (h : stepsToScan tree directory none duration fallback = .ok (n, d)) :
    ∃ names, tree.namesIn directory = .ok names ∧ n = (timesNamed names).card ∧
      ∀ i < n, (timesNamed names).sort[i]? = some (i * d.nanos) ∧ ∀ source : SnapshotSource,
        source.load i d = (source i (i * d.nanos)).mapError (HistoryFault.snapshot i) := by
  obtain ⟨index, hindex, hcomplete, rfl, rfl⟩ := exists_index_of_stepsToScan h
  obtain ⟨names, hnames, hT, hdescribes⟩ := exists_describes_of_discover hindex
  refine ⟨names, hnames, hdescribes.stepCount_of_isComplete hcomplete, fun i hi => ?_⟩
  have htime := hdescribes.getElem?_times hcomplete fallback hi
  exact ⟨htime, hdescribes.load_of_getElem? hcomplete fallback htime⟩

end Scans

/-- **Every step of a scan is read at the time that it is found under.** If a directory may be
scanned, there are as many steps as times, and the snapshot of step `i` is loaded at the `i`-th time
in ascending order, which is the whole product of `i` and the step duration. If steps are missing,
there are some, and none of them has a time. -/
theorem stepsToScan_times (tree : FileTree) (directory : Path) (duration : Option Duration)
    (fallback : Duration) :
    (∀ n d, stepsToScan tree directory none duration fallback = .ok (n, d) →
      ∃ names, tree.namesIn directory = .ok names ∧ n = (timesNamed names).card ∧
        ∀ i < n, ∃ time, (timesNamed names).sort[i]? = some time ∧ i * d.nanos = time ∧
          ∀ source : SnapshotSource,
            source.load i d = (source i time).mapError (HistoryFault.snapshot i)) ∧
      ∀ missing,
        stepsToScan tree directory none duration fallback = .error (.missingSteps missing) →
        missing ≠ [] ∧ ∃ names s, tree.namesIn directory = .ok names ∧
          expectedStep (givenStep duration) (timesNamed names) = some s ∧
            ∀ k ∈ missing, k * s ∉ timesNamed names := by
  constructor
  · intro n d h
    obtain ⟨names, hnames, hcard, hsteps⟩ := exists_times_of_stepsToScan h
    refine ⟨names, hnames, hcard, fun i hi => ?_⟩
    obtain ⟨htime, hload⟩ := hsteps i hi
    exact ⟨i * d.nanos, htime, rfl, hload⟩
  · intro missing h
    obtain ⟨index, hindex, hne, rfl⟩ := exists_index_of_missingSteps h
    obtain ⟨names, hnames, hT, hdescribes⟩ := exists_describes_of_discover hindex
    obtain ⟨k, hk⟩ := List.exists_mem_of_ne_nil _ hne
    obtain ⟨s, hstep, -⟩ := (hdescribes.mem_missing k).mp hk
    refine ⟨hne, names, s, hnames, hdescribes.step.symm.trans hstep, fun j hj => ?_⟩
    obtain ⟨s', hstep', -, hnotMem⟩ := (hdescribes.mem_missing j).mp hj
    obtain rfl : s = s' := Option.some.inj (hstep.symm.trans hstep')
    exact hnotMem

/-- A directory whose second snapshot is as late as it can be. -/
def farTree : FileTree :=
  .ofList [(["d"], .directory), (["d", "fstate_0.txt"], .file ByteArray.empty),
    (["d", "fstate_18446744073709551615.txt"], .file ByteArray.empty)]

/-- The names in this directory. -/
def farNames : List String := ["fstate_0.txt", "fstate_18446744073709551615.txt"]

/-- They are found. -/
lemma namesIn_farTree : farTree.namesIn ⟨"d"⟩ = .ok farNames := by decide

/-- A longer duration is cut down to the time of the second snapshot. -/
lemma stepsToScan_farTree : stepsToScan farTree ⟨"d"⟩ none (some ⟨18446744073709551621⟩) ⟨1⟩ =
    .ok (2, ⟨18446744073709551615⟩) := by
  have htimes : timesNamed farNames = [0, 18446744073709551615].toFinset := by decide
  have hindex : discover farTree ⟨"d"⟩ (givenStep (some ⟨18446744073709551621⟩)) =
      .ok ⟨⟨"d"⟩, [0, 18446744073709551615], some 18446744073709551615, []⟩ := by
    rw [discover_of_times namesIn_farTree htimes (by decide) (by decide)]
    decide
  exact stepsToScan_of_discover hindex ⟨1⟩

/-- The second snapshot is read at its time; and where a step is missing, it is one of those that
are told. -/
theorem stepsToScan_times_sample :
    (∃ names, farTree.namesIn ⟨"d"⟩ = .ok names ∧ (timesNamed names).card = 2 ∧
        ∀ source : SnapshotSource, source.load 1 ⟨18446744073709551615⟩ =
          (source 1 18446744073709551615).mapError (HistoryFault.snapshot 1)) ∧
      stepsToScan sampleTree ⟨"d"⟩ none none ⟨1⟩ = .error (.missingSteps [1]) ∧
      ∃ names, sampleTree.namesIn ⟨"d"⟩ = .ok names ∧ 1 * 100 ∉ timesNamed names := by
  have hsample : sampleTree.namesIn ⟨"d"⟩ = .ok sampleNames := by decide
  have hsampleTimes : timesNamed sampleNames = [0, 200, 300].toFinset := by decide
  have hsampleIndex : discover sampleTree ⟨"d"⟩ (givenStep none) =
      .ok ⟨⟨"d"⟩, [0, 200, 300], some 100, [1]⟩ := by
    have hstep : effectiveStep (givenStep none) [0, 200, 300] = some 100 := by
      simp [givenStep, effectiveStep, commonDivisor, euclid]
    rw [discover_of_times hsample hsampleTimes (by decide) (by decide), Index.ofTimes, hstep]
    decide
  have hmissing : stepsToScan sampleTree ⟨"d"⟩ none none ⟨1⟩ = .error (.missingSteps [1]) :=
    stepsToScan_of_discover hsampleIndex ⟨1⟩
  refine ⟨?_, hmissing, ?_⟩
  · obtain ⟨names, hnames, hcard, hsteps⟩ :=
      (stepsToScan_times farTree ⟨"d"⟩ _ ⟨1⟩).1 _ _ stepsToScan_farTree
    obtain ⟨time, -, rfl, hload⟩ := hsteps 1 (by decide)
    exact ⟨names, hnames, hcard.symm, hload⟩
  · obtain ⟨-, names, s, hnames, hstep, hnotMem⟩ :=
      (stepsToScan_times sampleTree ⟨"d"⟩ none ⟨1⟩).2 _ hmissing
    cases hnames.symm.trans hsample
    have hfound : expectedStep none (timesNamed sampleNames) = some 100 := by decide
    cases hstep.symm.trans hfound
    exact ⟨sampleNames, hsample, hnotMem 1 (List.mem_singleton_self 1)⟩

end Snapshot

end Constellation
