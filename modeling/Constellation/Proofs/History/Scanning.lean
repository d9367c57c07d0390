import Constellation.History.Scan
import Constellation.Proofs.History.Recorded
set_option autoImplicit false

/-!
# When a scan succeeds

A scan takes its snapshots in the order of their steps, so none of them is ever refused as out of
order. All that can stop it is a snapshot that cannot be loaded.

## Main definitions

* `SnapshotSource.series` — the snapshots of the first steps of a source.

## Main results

* `SnapshotSource.scan_of_loads` — a scan describes the snapshots that it loads.
* `SnapshotSource.scan_of_fault` — a scan ends with the first fault.
* `SnapshotSource.exists_scan_iff` — a scan succeeds if and only if all of its steps can be loaded.
-/

namespace Constellation

namespace SnapshotSource

variable (source : SnapshotSource) (duration : Duration)

/-! ## The snapshots of a scan -/

/-- The snapshot of a step, which is empty if it cannot be loaded. -/
def snapshotAt (step : ℕ) : ℕ × List Route :=
  (step, (source.load step duration).toOption.getD [])

/-- The snapshots of the first steps. -/
def series (count : ℕ) : List (ℕ × List Route) :=
  (List.range count).map (source.snapshotAt duration)

/-- The steps of a series ascend. -/
lemma pairwise_series (count : ℕ) :
    ((source.series duration count).map Prod.fst).Pairwise (· < ·) := by
  rw [series, List.map_map]
  exact (List.map_id (List.range count)).symm ▸ List.pairwise_lt_range

/-- A scan takes the snapshots of its steps if all of them can be loaded. -/
lemma scanFrom_of_ingestAll (count step : ℕ) {a b : Analyzer}
    (hloads : ∀ i, step ≤ i → i < step + count → ∃ routes, source.load i duration = .ok routes)
    (h : a.ingestAll ((List.range' step count).map (source.snapshotAt duration)) = .ok b) :
    source.scanFrom duration count step a = .ok b := by
  induction count generalizing step a with
  | zero => exact congrArg _ (Except.ok.inj h)
  | succ count ih =>
    obtain ⟨routes, hroutes⟩ := hloads step (Nat.le_refl step) (by omega)
    have hsnapshot : source.snapshotAt duration step = (step, routes) := by
      rw [snapshotAt, hroutes]
      rfl
    rw [List.range'_succ, List.map_cons, Analyzer.ingestAll, hsnapshot] at h
    rw [scanFrom, hroutes]
    cases htaken : a.ingest step routes with
    | error fault =>
      rw [htaken] at h
      cases h
    | ok a' =>
      rw [htaken] at h
      simp only [htaken]
      exact ih (step + 1) (fun i hle hlt => hloads i (by omega) (by omega)) h

/-- **A scan describes the snapshots that it loads.** -/
lemma scan_of_loads (watched : List RoutePair) {count : ℕ}
    (hloads : ∀ i < count, ∃ routes, source.load i duration = .ok routes) :
    ∃ history, source.scan watched count duration = .ok history ∧
      history.Describes watched (source.series duration count) duration := by
  obtain ⟨a, ha, htracks, hcount⟩ := Analyzer.exists_ingestAll watched
    (source.series duration count) (source.pairwise_series duration count)
  have hscan : source.scanFrom duration count 0 (.new watched) = .ok a := by
    refine source.scanFrom_of_ingestAll duration count 0 (fun i _ hlt => hloads i (by omega)) ?_
    rw [← List.range_eq_range']
    exact ha
  refine ⟨a.finish duration, ?_, htracks.finish_describes hcount duration⟩
  rw [scan, hscan]
  rfl

/-! ## Faults -/

/-- A scan that gets to a fault ends with it. -/
lemma scanFrom_of_fault {count step k : ℕ} {a : Analyzer} {fault : HistoryFault}
    (hlater : ∀ last, a.lastStep = some last → last < step) (hle : step ≤ k)
    (hlt : k < step + count)
    (hloads : ∀ i, step ≤ i → i < k → ∃ routes, source.load i duration = .ok routes)
    (hfault : source.load k duration = .error fault) :
    source.scanFrom duration count step a = .error fault := by
  induction count generalizing step a with
  | zero => omega
  | succ count ih =>
    rw [scanFrom]
    rcases Nat.eq_or_lt_of_le hle with rfl | hbefore
    · rw [hfault]
    · obtain ⟨routes, hroutes⟩ := hloads step (Nat.le_refl step) hbefore
      simp only [hroutes, Analyzer.ingest_of_lt routes hlater]
      refine ih (fun last heq => ?_) hbefore (by omega) fun i hi => hloads i (by omega)
      cases heq
      exact Nat.lt_succ_self step

/-- **A scan ends with the first fault.** -/
lemma scan_of_fault (watched : List RoutePair) {count k : ℕ} {fault : HistoryFault}
    (hlt : k < count) (hloads : ∀ i < k, ∃ routes, source.load i duration = .ok routes)
    (hfault : source.load k duration = .error fault) :
    source.scan watched count duration = .error fault := by
  rw [scan, source.scanFrom_of_fault duration (fun _ h => by cases h) (Nat.zero_le k) (by omega)
    (fun i _ => hloads i) hfault]
  rfl

/-- **A scan succeeds** if and only if each of its steps can be loaded. -/
lemma exists_scan_iff (watched : List RoutePair) (count : ℕ) :
    (∃ history, source.scan watched count duration = .ok history) ↔
      ∀ i < count, ∃ routes, source.load i duration = .ok routes := by
  constructor
  · rintro ⟨history, hscan⟩ i
    -- the first step that cannot be loaded would end the scan
    induction i using Nat.strongRecOn with
    | ind i ih =>
      intro hi
      cases hload : source.load i duration with
      | ok routes => exact ⟨routes, rfl⟩
      | error fault =>
        have hbefore : ∀ j < i, ∃ routes, source.load j duration = .ok routes :=
          fun j hj => ih j hj (Nat.lt_trans hj hi)
        rw [source.scan_of_fault duration watched hi hbefore hload] at hscan
        cases hscan
  · intro hloads
    obtain ⟨history, hscan, -⟩ := source.scan_of_loads duration watched hloads
    exact ⟨history, hscan⟩

end SnapshotSource

end Constellation
