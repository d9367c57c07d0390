import Constellation.Proofs.Snapshot.StepTimes
set_option autoImplicit false

/-!
# Directories whose snapshots can all be read

The snapshots of a directory are gone through in two ways: in the order of the times that its names
stand for, or step by step, where the time of a step is computed. Both ways read the same files.

## Main definitions

* `Snapshot.IsReadable` — no step is missing in a directory, and each of its snapshots can be read.

## Main results

* `Snapshot.forall_load_iff` — the steps of a complete index can be loaded if its times can be read.
* `Snapshot.isReadable_iff` — the steps that are to be scanned in a directory can all be loaded if
  and only if the directory is readable.
-/

namespace Constellation

namespace Snapshot

/-- The snapshot at a time can be read. -/
def CanRead (tree : FileTree) (directory : Path) (time : ℕ) : Prop :=
  ∃ routes, readAt tree (path directory time) = .ok routes

/-- No step is missing in a directory, and each of its snapshots can be read. -/
def IsReadable (tree : FileTree) (directory : Path) (given : Option ℕ) : Prop :=
  ∃ index, discover tree directory given = .ok index ∧ index.isComplete = true ∧
    ∀ time ∈ index.times, CanRead tree directory time

/-- A duration of whole nanoseconds that needs 64 bits at most is not cut down. -/
lemma givenStep_map {step : Option ℕ} (h : ∀ s, step = some s → s < Numeral.longBound) :
    givenStep (step.map Duration.mk) = step := by
  cases step with
  | none => rfl
  | some s =>
    have hle : s ≤ UpdateInterval.saturation := Nat.le_pred_of_lt (h s rfl)
    rw [givenStep, Option.map_some, Option.map_some, Nat.min_eq_right hle]

variable {tree : FileTree} {directory : Path} {given : Option ℕ}

/-- **The steps of a complete index can be loaded** if and only if the snapshots at its times can be
read. -/
lemma forall_load_iff {index : Index} (hindex : discover tree directory given = .ok index)
    (hcomplete : index.isComplete = true) (fallback : Duration) :
    (∀ i < index.stepCount, ∃ routes, (SnapshotSource.ofDirectory tree directory).load i
        ((index.step.map Duration.mk).getD fallback) = .ok routes) ↔
      ∀ time ∈ index.times, CanRead tree directory time := by
  obtain ⟨names, -, hT, hdescribes⟩ := exists_describes_of_discover hindex
  have hload : ∀ i time, (timesNamed names).sort[i]? = some time →
      ((∃ routes, (SnapshotSource.ofDirectory tree directory).load i
        ((index.step.map Duration.mk).getD fallback) = .ok routes) ↔
          CanRead tree directory time) := by
    intro i time htime
    rw [hdescribes.load_of_getElem? hcomplete fallback htime, CanRead, SnapshotSource.ofDirectory]
    cases readAt tree (path directory time) with
    | error fault => simp [Except.mapError]
    | ok routes => simp [Except.mapError]
  rw [hdescribes.times]
  constructor
  · intro hall time hmem
    obtain ⟨i, htime⟩ := List.getElem?_of_mem hmem
    have hi := (hdescribes.lt_stepCount_iff hcomplete).mpr ⟨time, htime⟩
    exact (hload i time htime).mp (hall i hi)
  · intro hall i hi
    obtain ⟨time, htime⟩ := (hdescribes.lt_stepCount_iff hcomplete).mp hi
    exact (hload i time htime).mpr (hall time (List.mem_of_getElem? htime))

/-- **The steps that are to be scanned can all be loaded** if and only if the directory is
readable. -/
lemma isReadable_iff (tree : FileTree) (directory : Path) (duration : Option Duration)
    (fallback : Duration) :
    (∃ n d, stepsToScan tree directory none duration fallback = .ok (n, d) ∧
        ∀ i < n, ∃ routes,
          (SnapshotSource.ofDirectory tree directory).load i d = .ok routes) ↔
      IsReadable tree directory (givenStep duration) := by
  constructor
  · rintro ⟨n, d, hsteps, hall⟩
    obtain ⟨index, hindex, hcomplete, rfl, rfl⟩ := exists_index_of_stepsToScan hsteps
    exact ⟨index, hindex, hcomplete, (forall_load_iff hindex hcomplete fallback).mp hall⟩
  · rintro ⟨index, hindex, hcomplete, hall⟩
    refine ⟨_, _, ?_, (forall_load_iff hindex hcomplete fallback).mpr hall⟩
    rw [stepsToScan_of_discover hindex, if_pos hcomplete]

end Snapshot

end Constellation
