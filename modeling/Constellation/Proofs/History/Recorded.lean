import Mathlib.Data.List.Nodup
import Constellation.Proofs.History.Tracking
set_option autoImplicit false

/-!
# What a history records

A history that is finished after an ascending series of snapshots holds all changes of the watched
pairs and the number of changes of every pair, both in their order.

## Main definitions

* `History.Describes` — a history says of a series of snapshots all that there is to say.

## Main results

* `ChangeCount.pairwise_sorted` — sorted counts of different pairs ascend strictly.
* `eq_of_sorted_intervals`, `ChangeCount.eq_of_sorted` — sorted lists with the same members are
  equal.
* `Analyzer.Tracks.finish_describes` — what is tracked is what the history describes.
* `Analyzer.ingestAll_describes` — the history of an ascending series of snapshots describes it.

## Design

The contents of the lists and their order are stated apart from each other. Together they leave
no choice: two histories that describe the same snapshots have the same lists.
-/

namespace Constellation

/-- The pair that a count is about. -/
def ChangeCount.pair (c : ChangeCount) : RoutePair := ⟨c.source, c.destination⟩

/-- The identifiers of a pair, by which pairs are ordered. -/
def RoutePair.key (pair : RoutePair) : List ℕ := [pair.source.toNat, pair.destination.toNat]

/-- Pairs with equal keys are equal. -/
lemma RoutePair.key_injective {p q : RoutePair} (h : p.key = q.key) : p = q := by
  simp only [key, List.cons.injEq, UInt32.toNat_inj, and_true] at h
  cases p
  cases q
  simpa using h

/-- A history says of a series of snapshots all that there is to say. -/
structure History.Describes (history : History) (named : List RoutePair)
    (snapshots : List (ℕ × List Route)) (step : Duration) : Prop where
  /-- The changes of the watched pairs are recorded, each as often as it occurs. -/
  count_intervals : ∀ i, history.intervals.count i = if Watched named i.pair then
    (changesOf i.pair (sightingsOf i.pair (observations snapshots))).count i else 0
  /-- They ascend by gap, step, source, destination and next hop. -/
  sorted_intervals : history.intervals.Pairwise fun i j =>
    i = j ∨ List.Lex (· < ·) i.key j.key
  /-- Every observed pair is listed with the number of its changes, and no other pair is. -/
  mem_counts : ∀ c, c ∈ history.counts ↔ sightingsOf c.pair (observations snapshots) ≠ [] ∧
    c.changes = (changesOf c.pair (sightingsOf c.pair (observations snapshots))).length
  /-- No pair is listed twice. -/
  nodup_counts : (history.counts.map ChangeCount.pair).Nodup
  /-- The pairs descend by their changes, and those with equally many ascend. -/
  sorted_counts : history.counts.Pairwise fun c d =>
    d.changes < c.changes ∨ c.changes = d.changes ∧ List.Lex (· < ·) c.pair.key d.pair.key
  /-- All snapshots are counted. -/
  snapshots : history.snapshots = snapshots.length
  /-- The duration of a step is the given one. -/
  step : history.step = step

/-! ## The two orders -/

/-- Changes with equal keys are equal. -/
lemma UpdateInterval.key_injective {i j : UpdateInterval} (h : i.key = j.key) : i = j := by
  simp only [key, List.cons.injEq, UInt32.toNat_inj, and_true] at h
  cases i
  cases j
  simpa using h

/-- Sorted changes ascend. -/
lemma pairwise_sorted_intervals (l : List UpdateInterval) :
    (l.mergeSort fun i j => lexicographic i.key j.key).Pairwise fun i j =>
      i = j ∨ List.Lex (· < ·) i.key j.key := by
  have hsorted : (l.mergeSort fun i j => lexicographic i.key j.key).Pairwise fun i j =>
      lexicographic i.key j.key = true := by
    refine List.pairwise_mergeSort (fun i j k hij hjk => ?_) (fun i j => ?_) l
    · exact lexicographic_trans hij hjk
    · exact lexicographic_total i.key j.key
  refine hsorted.imp fun {i j} hij => ?_
  rcases (lexicographic_iff i.key j.key).mp hij with heq | hlt
  · exact Or.inl (UpdateInterval.key_injective heq)
  · exact Or.inr hlt

/-- **Ascending lists of the same changes are equal.** -/
lemma eq_of_sorted_intervals {l l' : List UpdateInterval}
    (hl : l.Pairwise fun i j => i = j ∨ List.Lex (· < ·) i.key j.key)
    (hl' : l'.Pairwise fun i j => i = j ∨ List.Lex (· < ·) i.key j.key)
    (hcount : ∀ i, l.count i = l'.count i) : l = l' := by
  have hperm : l.Perm l' := List.perm_iff_count.mpr hcount
  refine hperm.eq_of_pairwise (fun i j _ _ hij hji => ?_) hl hl'
  rcases hij with heq | hlt
  · exact heq
  · rcases hji with heq | hgt
    · exact heq.symm
    · exact absurd hgt (List.lex_asymm (fun h => Nat.lt_asymm h) hlt)

namespace ChangeCount

/-- When a count comes before another one. -/
lemma before_iff (c d : ChangeCount) : c.before d = true ↔
    d.changes < c.changes ∨
      c.changes = d.changes ∧ lexicographic c.pair.key d.pair.key = true := by
  rw [before]
  by_cases h : c.changes = d.changes
  · simp [h, pair, RoutePair.key]
  · simp [h]

/-- The order of counts is transitive. -/
lemma before_trans {c d e : ChangeCount} (hcd : c.before d = true) (hde : d.before e = true) :
    c.before e = true := by
  rw [before_iff] at hcd hde ⊢
  rcases hcd with hcd | ⟨hcd, hlex⟩
  · left
    omega
  · rcases hde with hde | ⟨hde, hlex'⟩
    · left
      omega
    · exact Or.inr ⟨hcd.trans hde, lexicographic_trans hlex hlex'⟩

/-- Of two counts one comes before the other. -/
lemma before_total (c d : ChangeCount) : (c.before d || d.before c) = true := by
  rw [Bool.or_eq_true, before_iff, before_iff]
  rcases Nat.lt_trichotomy c.changes d.changes with hlt | heq | hlt
  · exact Or.inr (Or.inl hlt)
  · rcases Bool.or_eq_true_iff.mp (lexicographic_total c.pair.key d.pair.key) with hlex | hlex
    · exact Or.inl (Or.inr ⟨heq, hlex⟩)
    · exact Or.inr (Or.inr ⟨heq.symm, hlex⟩)
  · exact Or.inl (Or.inl hlt)

/-- Sorted counts of different pairs ascend strictly. -/
lemma pairwise_sorted {l : List ChangeCount} (hnodup : (l.map pair).Nodup) :
    (l.mergeSort before).Pairwise fun c d =>
      d.changes < c.changes ∨ c.changes = d.changes ∧ List.Lex (· < ·) c.pair.key d.pair.key := by
  have hsorted : (l.mergeSort before).Pairwise fun c d => c.before d = true := by
    refine List.pairwise_mergeSort (fun c d e hcd hde => ?_) before_total l
    exact before_trans hcd hde
  have hdistinct : ((l.mergeSort before).map pair).Nodup :=
    ((List.mergeSort_perm l before).map pair).nodup_iff.mpr hnodup
  refine hsorted.imp₂ (fun c d hcd hne => ?_) (List.pairwise_map.mp hdistinct)
  rcases (before_iff c d).mp hcd with hlt | ⟨heq, hlex⟩
  · exact Or.inl hlt
  · rcases (lexicographic_iff _ _).mp hlex with hkey | hlex
    · exact absurd (RoutePair.key_injective hkey) hne
    · exact Or.inr ⟨heq, hlex⟩

/-- **Strictly ascending lists of the same counts are equal.** -/
lemma eq_of_sorted {l l' : List ChangeCount}
    (hl : l.Pairwise fun c d =>
      d.changes < c.changes ∨ c.changes = d.changes ∧ List.Lex (· < ·) c.pair.key d.pair.key)
    (hl' : l'.Pairwise fun c d =>
      d.changes < c.changes ∨ c.changes = d.changes ∧ List.Lex (· < ·) c.pair.key d.pair.key)
    (hnodup : (l.map pair).Nodup) (hnodup' : (l'.map pair).Nodup)
    (hmem : ∀ c, c ∈ l ↔ c ∈ l') : l = l' := by
  have hperm := (List.perm_ext_iff_of_nodup hnodup.of_map hnodup'.of_map).mpr hmem
  refine List.Perm.eq_of_pairwise (fun c d _ _ hcd hdc => ?_) hl hl' hperm
  -- neither count can come strictly before the other one and after it
  rcases hcd with hlt | ⟨heq, hlex⟩
  · rcases hdc with hgt | ⟨heq, -⟩ <;> omega
  · rcases hdc with hgt | ⟨-, hlex'⟩
    · omega
    · exact absurd hlex' (List.lex_asymm (fun h => Nat.lt_asymm h) hlex)

end ChangeCount

/-! ## Finishing -/

namespace Analyzer

namespace Tracks

variable {a : Analyzer} {named : List RoutePair} {os : List Observation}

/-- A pair has a track if and only if it has been seen. -/
lemma exists_track_iff (h : a.Tracks named os) (pair : RoutePair) :
    (∃ track ∈ a.tracks.toList, track.pair = pair) ↔ sightingsOf pair os ≠ [] := by
  constructor
  · rintro ⟨track, hmem, rfl⟩
    obtain ⟨id, hid⟩ := List.mem_iff_getElem?.mp hmem
    rw [Array.getElem?_toList] at hid
    exact (h.tracks id track hid).ne_nil
  · intro hseen
    obtain ⟨id, hid⟩ := Option.ne_none_iff_exists'.mp (h.seen pair hseen)
    obtain ⟨track, htrack, hpair⟩ := Option.map_eq_some_iff.mp ((h.index pair id).mp hid)
    rw [← Array.getElem?_toList] at htrack
    exact ⟨track, List.mem_of_getElem? htrack, hpair⟩

/-- No two tracks are about one pair. -/
lemma nodup_pairs (h : a.Tracks named os) : (a.tracks.toList.map (·.pair)).Nodup := by
  have hplace : ∀ (i : ℕ) pair, (a.tracks.toList.map (·.pair))[i]? = some pair →
      a.index[pair]? = some i := by
    intro i pair hi
    rw [List.getElem?_map, Array.getElem?_toList] at hi
    exact (h.index pair i).mpr hi
  rw [List.nodup_iff_getElem?_ne_getElem?]
  intro i j hij hj heq
  have hj' := List.getElem?_eq_getElem hj
  have hi := hplace i _ (heq.trans hj')
  rw [hplace j _ hj'] at hi
  cases hi
  omega

/-- The counts of an analyzer are those of the pairs that have been seen. -/
lemma mem_counts (h : a.Tracks named os) (c : ChangeCount) :
    c ∈ a.counts ↔ sightingsOf c.pair os ≠ [] ∧
      c.changes = (changesOf c.pair (sightingsOf c.pair os)).length := by
  rw [length_changesOf, counts, List.mem_map]
  constructor
  · rintro ⟨track, hmem, rfl⟩
    obtain ⟨id, hid⟩ := List.mem_iff_getElem?.mp hmem
    rw [Array.getElem?_toList] at hid
    have hs := h.tracks id track hid
    exact ⟨hs.ne_nil, hs.changes⟩
  · rintro ⟨hseen, hchanges⟩
    obtain ⟨track, hmem, hpair⟩ := (h.exists_track_iff c.pair).mpr hseen
    obtain ⟨id, hid⟩ := List.mem_iff_getElem?.mp hmem
    rw [Array.getElem?_toList] at hid
    have hs := h.tracks id track hid
    refine ⟨track, hmem, ?_⟩
    rw [hs.changes, hpair, ← hchanges]
    rfl

/-- The counts of an analyzer are about different pairs. -/
lemma nodup_counts (h : a.Tracks named os) : (a.counts.map ChangeCount.pair).Nodup := by
  rw [counts, List.map_map]
  exact h.nodup_pairs

/-- **A history describes the snapshots that were taken.** -/
lemma finish_describes {snapshots : List (ℕ × List Route)}
    (h : a.Tracks named (observations snapshots)) (hcount : a.snapshots = snapshots.length)
    (step : Duration) : (a.finish step).Describes named snapshots step where
  count_intervals i := by
    rw [finish, (List.mergeSort_perm _ _).count_eq, h.intervals i]
  sorted_intervals := pairwise_sorted_intervals _
  mem_counts c := by
    rw [finish, (List.mergeSort_perm _ _).mem_iff, h.mem_counts c]
  nodup_counts := ((List.mergeSort_perm _ _).map _).nodup_iff.mpr h.nodup_counts
  sorted_counts := ChangeCount.pairwise_sorted h.nodup_counts
  snapshots := hcount
  step := rfl

end Tracks

/-- **What the analyzer records.** An ascending series of snapshots is taken without a refusal,
and the history that is finished then describes it: which changes are recorded and how often,
which pairs are listed with how many changes, and in which order both come. -/
theorem ingestAll_describes (named : List RoutePair) (snapshots : List (ℕ × List Route))
    (step : Duration) (hsteps : (snapshots.map Prod.fst).Pairwise (· < ·)) :
    ∃ a, (new named).ingestAll snapshots = .ok a ∧
      (a.finish step).Describes named snapshots step := by
  obtain ⟨a, ha, htracks, hcount⟩ := exists_ingestAll named snapshots hsteps
  exact ⟨a, ha, htracks.finish_describes hcount step⟩

/-- A pair that is seen late, left out once and repeated within a snapshot, beside one that is not
watched. -/
def sampleSnapshots : List (ℕ × List Route) :=
  [(0, [⟨3, 4, 10⟩]), (2, [⟨1, 2, 10⟩, ⟨1, 2, 11⟩, ⟨3, 4, 12⟩]), (3, []),
    (7, [⟨1, 2, 11⟩, ⟨1, 2, 10⟩])]

/-- The sample is described, and both changes of its watched pair are recorded. -/
theorem ingestAll_describes_sample : (sampleSnapshots.map Prod.fst).Pairwise (· < ·) ∧
    ∃ a, (new [⟨1, 2⟩]).ingestAll sampleSnapshots = .ok a ∧
      (a.finish ⟨100⟩).Describes [⟨1, 2⟩] sampleSnapshots ⟨100⟩ ∧
      (a.finish ⟨100⟩).intervals.count ⟨0, 2, 1, 2, 11⟩ = 1 ∧
      (a.finish ⟨100⟩).intervals.count ⟨5, 7, 1, 2, 10⟩ = 1 ∧
      ⟨3, 4, 1⟩ ∈ (a.finish ⟨100⟩).counts := by
  have hsteps : (sampleSnapshots.map Prod.fst).Pairwise (· < ·) := by decide
  obtain ⟨a, ha, hdescribes⟩ := ingestAll_describes [⟨1, 2⟩] sampleSnapshots ⟨100⟩ hsteps
  refine ⟨hsteps, a, ha, hdescribes, ?_, ?_, ?_⟩
  · rw [hdescribes.count_intervals]
    decide
  · rw [hdescribes.count_intervals]
    decide
  · rw [hdescribes.mem_counts]
    decide

end Analyzer

end Constellation
