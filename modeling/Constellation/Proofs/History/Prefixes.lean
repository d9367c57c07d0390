import Mathlib.Data.ENat.Lattice
import Mathlib.Data.List.Induction
import Mathlib.Tactic.IntervalCases
import Constellation.Proofs.History.Scanning
set_option autoImplicit false

/-!
# Shorter and longer scans

A scan of fewer steps reads a part of what a longer scan of the same source reads, and its history
is a part of the history of the longer one.

## Main definitions

* `SnapshotSource.firstFault` — the first step that cannot be loaded.
* `SnapshotSource.Prolongs` — the history of a scan continues that of a shorter one.

## Main results

* `filter_changesOf_append` — later sightings leave the earlier changes alone.
* `SnapshotSource.scan_prolongs` — all scans of a source agree as far as they go.
-/

namespace Constellation

/-! ## Changes in two parts of a series -/

/-- Later sightings add changes, each of them at the step of one of these sightings. -/
lemma exists_changesOf_append (pair : RoutePair) (h t : List Sighting) :
    ∃ later, changesOf pair (h ++ t) = changesOf pair h ++ later ∧
      ∀ i ∈ later, ∃ s ∈ t, i.step = s.step := by
  induction t using List.reverseRecOn with
  | nil => exact ⟨[], by simp⟩
  | append_singleton t s ih =>
    obtain ⟨later, hlater, hsteps⟩ := ih
    rw [← List.append_assoc, changesOf_snoc, hlater, List.append_assoc]
    refine ⟨_, rfl, fun i hi => ?_⟩
    rcases List.mem_append.mp hi with hold | hnew
    · obtain ⟨s', hs', heq⟩ := hsteps i hold
      exact ⟨s', List.mem_append_left _ hs', heq⟩
    · split at hnew
      · obtain rfl := List.mem_singleton.mp hnew
        exact ⟨s, by simp, rfl⟩
      · cases hnew

/-- A change is at the step of a sighting. -/
lemma exists_step_of_mem_changesOf {pair : RoutePair} {h : List Sighting} {i : UpdateInterval}
    (hi : i ∈ changesOf pair h) : ∃ s ∈ h, i.step = s.step := by
  obtain ⟨later, hlater, hsteps⟩ := exists_changesOf_append pair [] h
  rw [changesOf_nil, List.nil_append, List.nil_append] at hlater
  exact hsteps i (hlater ▸ hi)

/-- **The changes before a step** are those of the sightings before it. -/
lemma filter_changesOf_append (pair : RoutePair) {h t : List Sighting} {n : ℕ}
    (hh : ∀ s ∈ h, s.step < n) (ht : ∀ s ∈ t, n ≤ s.step) :
    (changesOf pair (h ++ t)).filter (·.step < n) = changesOf pair h := by
  obtain ⟨later, hlater, hsteps⟩ := exists_changesOf_append pair h t
  have hold : (changesOf pair h).filter (·.step < n) = changesOf pair h := by
    refine List.filter_eq_self.mpr fun i hi => ?_
    obtain ⟨s, hs, heq⟩ := exists_step_of_mem_changesOf hi
    simpa [heq] using hh s hs
  have hnew : later.filter (·.step < n) = [] := by
    refine List.filter_eq_nil_iff.mpr fun i hi => ?_
    obtain ⟨s, hs, heq⟩ := hsteps i hi
    simpa [heq] using ht s hs
  rw [hlater, List.filter_append, hold, hnew, List.append_nil]

/-- The changes from a step on are all others. -/
lemma length_changesOf_append (pair : RoutePair) {h t : List Sighting} {n m : ℕ}
    (hh : ∀ s ∈ h, s.step < n) (ht : ∀ s ∈ t, n ≤ s.step ∧ s.step < m) :
    (changesOf pair (h ++ t)).length = (changesOf pair h).length +
      ((changesOf pair (h ++ t)).filter fun i => n ≤ i.step ∧ i.step < m).length := by
  obtain ⟨later, hlater, hsteps⟩ := exists_changesOf_append pair h t
  have hold : (changesOf pair h).filter (fun i => n ≤ i.step ∧ i.step < m) = [] := by
    refine List.filter_eq_nil_iff.mpr fun i hi => ?_
    obtain ⟨s, hs, heq⟩ := exists_step_of_mem_changesOf hi
    have := hh s hs
    simp only [decide_eq_true_eq]
    omega
  have hnew : later.filter (fun i => n ≤ i.step ∧ i.step < m) = later := by
    refine List.filter_eq_self.mpr fun i hi => ?_
    obtain ⟨s, hs, heq⟩ := hsteps i hi
    simpa [heq] using ht s hs
  rw [hlater, List.filter_append, hold, hnew, List.nil_append, List.length_append]

/-- A sighting is made at the step of a snapshot. -/
lemma exists_of_mem_sightingsOf {pair : RoutePair} {snapshots : List (ℕ × List Route)}
    {s : Sighting} (hs : s ∈ sightingsOf pair (observations snapshots)) :
    ∃ snapshot ∈ snapshots, s.step = snapshot.1 := by
  obtain ⟨o, ho, rfl⟩ := List.mem_map.mp hs
  obtain ⟨snapshot, hsnapshot, ho⟩ := List.mem_flatMap.mp (List.mem_filter.mp ho).1
  obtain ⟨route, -, rfl⟩ := List.mem_map.mp ho
  exact ⟨snapshot, hsnapshot, rfl⟩

namespace SnapshotSource

variable (source : SnapshotSource) (duration : Duration)

/-- The sightings of a pair in a series are those of a shorter series and those at later steps. -/
lemma exists_sightingsOf_series (pair : RoutePair) {n m : ℕ} (h : n ≤ m) :
    ∃ t, sightingsOf pair (observations (source.series duration m)) =
        sightingsOf pair (observations (source.series duration n)) ++ t ∧
      (∀ s ∈ sightingsOf pair (observations (source.series duration n)), s.step < n) ∧
        ∀ s ∈ t, n ≤ s.step ∧ s.step < m := by
  obtain ⟨more, rfl⟩ := Nat.exists_eq_add_of_le h
  have hseries : source.series duration (n + more) = source.series duration n ++
      (List.range' n more).map (source.snapshotAt duration) := by
    rw [series, List.range_add, List.map_append, ← List.range'_eq_map_range, series]
  refine ⟨_, by rw [hseries, observations_append, sightingsOf_append], ?_, ?_⟩
  · intro s hs
    obtain ⟨snapshot, hmem, heq⟩ := exists_of_mem_sightingsOf hs
    obtain ⟨step, hstep, rfl⟩ := List.mem_map.mp hmem
    exact heq ▸ List.mem_range.mp hstep
  · intro s hs
    obtain ⟨snapshot, hmem, heq⟩ := exists_of_mem_sightingsOf hs
    obtain ⟨step, hstep, rfl⟩ := List.mem_map.mp hmem
    have hbounds := List.mem_range'_1.mp hstep
    rw [heq]
    exact hbounds

/-! ## Faults -/

/-- A step that cannot be loaded is never out of order. -/
lemma ne_outOfOrder_of_load {step : ℕ} {fault : HistoryFault}
    (h : source.load step duration = .error fault) (o : OutOfOrder) : fault ≠ .outOfOrder o := by
  rintro rfl
  rw [load] at h
  split at h
  · cases h
  · split at h <;> cases h

/-- The first step that cannot be loaded, infinite if there is none. A time that needs more than 64
bits cannot be loaded either. -/
noncomputable def firstFault : ℕ∞ :=
  ⨅ step ∈ {step : ℕ | ∃ fault, source.load step duration = .error fault}, (step : ℕ∞)

/-- There is no fault before a step if all steps before it can be loaded. -/
lemma le_firstFault_iff {n : ℕ} : n ≤ source.firstFault duration ↔
    ∀ i < n, ∃ routes, source.load i duration = .ok routes := by
  rw [firstFault, le_iInf₂_iff]
  constructor
  · intro h i hi
    cases hload : source.load i duration with
    | error fault => exact absurd (Nat.cast_le.mp (h i ⟨fault, hload⟩)) (Nat.not_le.mpr hi)
    | ok routes => exact ⟨routes, rfl⟩
  · rintro h i ⟨fault, hfault⟩
    refine Nat.cast_le.mpr (Nat.not_lt.mp fun hi => ?_)
    obtain ⟨routes, hroutes⟩ := h i hi
    rw [hfault] at hroutes
    cases hroutes

/-- The first fault is one. -/
lemma exists_fault_of_firstFault_lt {n : ℕ} (h : source.firstFault duration < n) :
    ∃ k < n, source.firstFault duration = k ∧ ∃ fault, source.load k duration = .error fault := by
  obtain ⟨k, hk⟩ := ENat.ne_top_iff_exists.mp (ne_top_of_lt h)
  have hnot : ¬ ((k + 1 : ℕ) : ℕ∞) ≤ source.firstFault duration := by
    rw [← hk, Nat.cast_le]
    omega
  have hbefore := (source.le_firstFault_iff duration (n := k)).mp (le_of_eq hk)
  rw [le_firstFault_iff] at hnot
  refine ⟨k, by rwa [← hk, Nat.cast_lt] at h, hk.symm, ?_⟩
  cases hload : source.load k duration with
  | error fault => exact ⟨fault, rfl⟩
  | ok routes =>
    refine absurd (fun i hi => ?_) hnot
    rcases Nat.lt_succ_iff_lt_or_eq.mp hi with hlt | rfl
    · exact hbefore i hlt
    · exact ⟨routes, hload⟩

/-! ## Two scans -/

/-- What a scan of `m` steps sees of a pair. -/
def seen (m : ℕ) (pair : RoutePair) : List Sighting :=
  sightingsOf pair (observations (source.series duration m))

/-- The history of a scan of `m` steps continues that of a scan of `n` steps. -/
structure Prolongs (n m : ℕ) (shorter longer : History) : Prop where
  /-- The shorter history has the changes before step `n`, in the same order. -/
  intervals : shorter.intervals = longer.intervals.filter (·.step < n)
  /-- Its pairs are found in the longer history, where the changes from step `n` on are counted in
  addition. -/
  counts : ∀ c ∈ shorter.counts, ∃ d ∈ longer.counts, d.pair = c.pair ∧
    d.changes = c.changes + ((changesOf c.pair (source.seen duration m c.pair)).filter
      fun i => n ≤ i.step ∧ i.step < m).length
  /-- The other pairs of the longer history are those that are first seen at step `n` or later. -/
  added : ∀ d ∈ longer.counts, d.pair ∉ shorter.counts.map ChangeCount.pair ↔
    ∃ first ∈ (source.seen duration m d.pair).head?, n ≤ first.step

/-- **Descriptions of a shorter and of a longer series** are the history of a scan and its
continuation. -/
lemma prolongs_of_describes {watched : List RoutePair} {n m : ℕ} {shorter longer : History}
    (hle : n ≤ m) (hn : shorter.Describes watched (source.series duration n) duration)
    (hm : longer.Describes watched (source.series duration m) duration) :
    source.Prolongs duration n m shorter longer where
  intervals := by
    refine eq_of_sorted_intervals hn.sorted_intervals (hm.sorted_intervals.filter _) fun i => ?_
    obtain ⟨t, hseen, hbefore, hafter⟩ := source.exists_sightingsOf_series duration i.pair hle
    have hchanges := filter_changesOf_append i.pair hbefore fun s hs => (hafter s hs).1
    rw [← hseen] at hchanges
    rw [hn.count_intervals, ← hchanges]
    by_cases hi : i.step < n
    · rw [List.count_filter (by simpa using hi), List.count_filter (by simpa using hi),
        hm.count_intervals]
    · have hnone : ∀ l : List UpdateInterval, (l.filter (·.step < n)).count i = 0 := fun l =>
        List.count_eq_zero.mpr fun hmem => hi (by simpa using (List.mem_filter.mp hmem).2)
      rw [hnone, hnone, ite_self]
  counts := by
    intro c hc
    obtain ⟨t, hseen, hbefore, hafter⟩ := source.exists_sightingsOf_series duration c.pair hle
    obtain ⟨hne, hchanges⟩ := (hn.mem_counts c).mp hc
    have hlength := length_changesOf_append c.pair hbefore hafter
    rw [← hseen, ← hchanges] at hlength
    have hne' : source.seen duration m c.pair ≠ [] := by
      rw [seen, hseen]
      exact List.append_ne_nil_of_left_ne_nil hne t
    exact ⟨⟨c.source, c.destination, (changesOf c.pair (source.seen duration m c.pair)).length⟩,
      (hm.mem_counts _).mpr ⟨hne', rfl⟩, rfl, hlength⟩
  added := by
    intro d hd
    obtain ⟨t, hseen, hbefore, hafter⟩ := source.exists_sightingsOf_series duration d.pair hle
    obtain ⟨hne, -⟩ := (hm.mem_counts d).mp hd
    have hlisted : d.pair ∈ shorter.counts.map ChangeCount.pair ↔
        sightingsOf d.pair (observations (source.series duration n)) ≠ [] := by
      rw [List.mem_map]
      constructor
      · rintro ⟨c, hc, heq⟩
        exact heq ▸ ((hn.mem_counts c).mp hc).1
      · intro hseen
        exact ⟨⟨d.source, d.destination, (changesOf d.pair
          (sightingsOf d.pair (observations (source.series duration n)))).length⟩,
          (hn.mem_counts _).mpr ⟨hseen, rfl⟩, rfl⟩
    rw [hlisted, not_not, seen, hseen]
    rw [hseen] at hne
    constructor
    · intro hnil
      rw [hnil, List.nil_append] at hne ⊢
      obtain ⟨first, rest, rfl⟩ := List.exists_cons_of_ne_nil hne
      exact ⟨first, rfl, (hafter first List.mem_cons_self).1⟩
    · rintro ⟨first, hfirst, hlater⟩
      by_contra hnil
      rw [List.head?_append_of_ne_nil _ hnil] at hfirst
      exact absurd (hbefore first (List.mem_of_mem_head? hfirst)) (Nat.not_lt.mpr hlater)

/-- **Scans of a source agree as far as they go.** Up to the first step that cannot be loaded every
scan succeeds, and every longer scan ends with the fault of that step, never because steps are out
of order. Of two scans that succeed, the longer one continues the history of the shorter one.

**Proof sketch.** Both histories describe the snapshots that are loaded (`scan_of_loads`), and the
shorter series is a part of the longer one. What is seen of a pair from step `n` on adds changes at
these steps only (`exists_changesOf_append`), so the changes before step `n` are the same, and
ascending lists with the same items are equal (`eq_of_sorted_intervals`). -/
theorem scan_prolongs (watched : List RoutePair) :
    (∀ n : ℕ, n ≤ source.firstFault duration →
      ∃ history, source.scan watched n duration = .ok history) ∧
    (∀ n : ℕ, source.firstFault duration < n → ∃ (k : ℕ) (fault : HistoryFault),
      source.firstFault duration = k ∧ source.load k duration = .error fault ∧
        source.scan watched n duration = .error fault ∧ ∀ o, fault ≠ .outOfOrder o) ∧
    ∀ n m : ℕ, n ≤ m → m ≤ source.firstFault duration → ∃ shorter longer,
      source.scan watched n duration = .ok shorter ∧
        source.scan watched m duration = .ok longer ∧
          source.Prolongs duration n m shorter longer := by
  refine ⟨fun n hn => ?_, fun n hn => ?_, fun n m hle hm => ?_⟩
  · obtain ⟨history, hscan, -⟩ :=
      source.scan_of_loads duration watched ((source.le_firstFault_iff duration).mp hn)
    exact ⟨history, hscan⟩
  · obtain ⟨k, hlt, hk, fault, hfault⟩ := source.exists_fault_of_firstFault_lt duration hn
    have hloads := (source.le_firstFault_iff duration).mp (le_of_eq hk.symm)
    exact ⟨k, fault, hk, hfault, source.scan_of_fault duration watched hlt hloads hfault,
      source.ne_outOfOrder_of_load duration hfault⟩
  · have hloads := (source.le_firstFault_iff duration).mp hm
    obtain ⟨shorter, hshorter, hn⟩ :=
      source.scan_of_loads duration watched fun i hi => hloads i (Nat.lt_of_lt_of_le hi hle)
    obtain ⟨longer, hlonger, hm⟩ := source.scan_of_loads duration watched hloads
    exact ⟨shorter, longer, hshorter, hlonger, source.prolongs_of_describes duration hle hn hm⟩

/-- Three snapshots, in which one pair changes and another one is seen late. -/
def threeSnapshots : SnapshotSource :=
  (MemorySnapshots.ofList [[⟨1, 2, 10⟩], [⟨1, 2, 11⟩, ⟨3, 4, 5⟩], [⟨3, 4, 6⟩]]).source

/-- A scan of all three snapshots continues that of the first one, and one step more is too many. -/
theorem scan_prolongs_three :
    threeSnapshots.firstFault ⟨100⟩ = 3 ∧
    (∃ shorter longer, threeSnapshots.scan [] 1 ⟨100⟩ = .ok shorter ∧
      threeSnapshots.scan [] 3 ⟨100⟩ = .ok longer ∧
        threeSnapshots.Prolongs ⟨100⟩ 1 3 shorter longer) ∧
    threeSnapshots.scan [] 4 ⟨100⟩ = .error (.snapshot 3 (.missing ⟨"fstate_300.txt"⟩)) := by
  have hfault : threeSnapshots.load 3 ⟨100⟩ =
      .error (.snapshot 3 (.missing ⟨"fstate_300.txt"⟩)) := by decide +kernel
  have hfirst : threeSnapshots.firstFault ⟨100⟩ = 3 := by
    refine le_antisymm (iInf₂_le 3 ⟨_, hfault⟩) ((threeSnapshots.le_firstFault_iff ⟨100⟩).mpr ?_)
    intro i hi
    interval_cases i <;> exact ⟨_, rfl⟩
  obtain ⟨-, hends, hprolongs⟩ := threeSnapshots.scan_prolongs ⟨100⟩ []
  refine ⟨hfirst, hprolongs 1 3 (by decide) (le_of_eq hfirst.symm), ?_⟩
  obtain ⟨k, fault, hk, hload, hscan, -⟩ := hends 4 (by rw [hfirst]; decide)
  obtain rfl : k = 3 := by exact_mod_cast hk.symm.trans hfirst
  obtain rfl := Except.error.inj (hload.symm.trans hfault)
  exact hscan

end SnapshotSource

end Constellation
