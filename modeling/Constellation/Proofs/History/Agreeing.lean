import Mathlib.Data.List.Perm.Subperm
import Constellation.Proofs.History.Condensing
import Constellation.Proofs.History.Prefixes
import Constellation.Snapshot.Fault
set_option autoImplicit false

/-!
# One change per step

A snapshot is meant to show one next hop of a pair, but nothing keeps a file from having several
rows of one pair. They are taken one after the other, so a pair can change more than once in a
single step, then with a gap of zero. It does not if its rows agree.

## Main definitions

* `RowsAgree` — the rows of a pair in a snapshot show one next hop.
* `History.ChangesOnce` — pairs change at most once in snapshots whose rows agree.

## Main results

* `changesOf_append_of_agree` — what agreeing sightings of one step add to the changes of a pair.
* `length_changesOf_lt` — a pair whose rows always agree has fewer changes than there are snapshots.
* `Analyzer.ingestAll_changesOnce` — the history of an ascending series of snapshots.
* `Analyzer.ingestAll_repeated` — a snapshot in which a pair changes twice.

## Design

Agreement is a property of one pair in one snapshot. What the rows of other pairs or of other
snapshots show does not matter to the changes at its step.
-/

namespace Constellation

/-- The rows of a pair in a snapshot show one next hop. -/
def RowsAgree (pair : RoutePair) (routes : List Route) : Prop :=
  ∀ r ∈ routes, ∀ r' ∈ routes, r.pair = pair → r'.pair = pair → r.nextHop = r'.nextHop

instance (pair : RoutePair) (routes : List Route) : Decidable (RowsAgree pair routes) :=
  inferInstanceAs (Decidable (∀ r ∈ routes, ∀ r' ∈ routes, _ → _ → _))

/-! ## Agreeing sightings -/

/-- Sightings that show the known next hop say nothing new. -/
lemma newHops_eq_nil {hop : NodeId} {t : List Sighting} (h : ∀ s ∈ t, s.nextHop = hop) :
    newHops (some hop) t = [] := by
  induction t with
  | nil => rfl
  | cons s t ih =>
    rw [List.forall_mem_cons] at h
    rw [newHops, h.1, if_pos rfl]
    exact ih h.2

/-- Of agreeing sightings at most the first one shows something new. -/
lemma newHops_of_agree (known : Option NodeId) {t : List Sighting} (h : ∀ s ∈ t, ∀ s' ∈ t, s = s') :
    newHops known t = [] ∨ ∃ s ∈ t, newHops known t = [s] := by
  cases t with
  | nil => exact Or.inl rfl
  | cons s t =>
    have hrest : newHops (some s.nextHop) t = [] := newHops_eq_nil fun s' hs' => by
      rw [h s' (List.mem_cons_of_mem s hs') s List.mem_cons_self]
    rw [newHops, hrest]
    split
    · exact Or.inl rfl
    · exact Or.inr ⟨s, List.mem_cons_self, rfl⟩

/-- The last change is not later than all sightings. -/
lemma lastChangeStep_lt {h : List Sighting} (hne : h ≠ []) {n : ℕ} (hlt : ∀ s ∈ h, s.step < n) :
    lastChangeStep h < n := by
  rw [lastChangeStep, List.getD_eq_getElem _ _ (originBefore_lt hne _)]
  exact hlt _ (List.getElem_mem _)

/-- **What agreeing sightings of one step add to the changes of a pair**: at most one change, which
has a positive gap, and none if the pair has not been seen before. -/
lemma changesOf_append_of_agree (pair : RoutePair) {h t : List Sighting} {n : ℕ}
    (hh : ∀ s ∈ h, s.step < n) (ht : ∀ s ∈ t, s.step = n) (hagree : ∀ s ∈ t, ∀ s' ∈ t, s = s') :
    ∃ later, changesOf pair (h ++ t) = changesOf pair h ++ later ∧ later.length ≤ 1 ∧
      (∀ i ∈ later, 1 ≤ i.gap) ∧ (h = [] → later = []) := by
  have hparts : condense (h ++ t) = condense h ++ newHops (h.getLast?.map (·.nextHop)) t := by
    rw [condense, newHops_append, Option.or_none, condense]
  rw [← changesOf_condense pair (h ++ t), ← changesOf_condense pair h, hparts]
  rcases newHops_of_agree (h.getLast?.map (·.nextHop)) hagree with hnew | ⟨s, hs, hnew⟩
  · exact ⟨[], by rw [hnew, List.append_nil, List.append_nil], by simp⟩
  · rw [hnew, changesOf_snoc]
    refine ⟨_, rfl, ?_⟩
    split
    · next hchange =>
      -- a change is not the first sighting, and all sightings before this one are earlier
      have hne : h ≠ [] := by
        rintro rfl
        exact absurd hchange.1 (Nat.lt_irrefl 0)
      have hlast := lastChangeStep_lt hne hh
      have hgap : 1 ≤ s.step - lastChangeStep (condense h) := by
        rw [(condense_keeps h).2.1, ht s hs]
        omega
      exact ⟨Nat.le_refl 1, by simpa using hgap, fun hnil => absurd hnil hne⟩
    · exact ⟨Nat.zero_le 1, by simp, fun _ => rfl⟩

/-- At a step with agreeing sightings a pair has at most one change, which has a positive gap. -/
lemma filter_changesOf_of_agree (pair : RoutePair) {h r t : List Sighting} {n : ℕ}
    (hh : ∀ s ∈ h, s.step < n) (hr : ∀ s ∈ r, s.step = n) (ht : ∀ s ∈ t, n < s.step)
    (hagree : ∀ s ∈ r, ∀ s' ∈ r, s = s') :
    ((changesOf pair (h ++ r ++ t)).filter (·.step = n)).length ≤ 1 ∧
      ∀ i ∈ changesOf pair (h ++ r ++ t), i.step = n → 1 ≤ i.gap := by
  obtain ⟨new, hnew, hlength, hgap, -⟩ := changesOf_append_of_agree pair hh hr hagree
  obtain ⟨later, hlater, hsteps⟩ := exists_changesOf_append pair (h ++ r) t
  have hold : ∀ i ∈ changesOf pair h, i.step ≠ n := fun i hi heq => by
    obtain ⟨s, hs, hstep⟩ := exists_step_of_mem_changesOf hi
    exact absurd (hh s hs) (by omega)
  have hrest : ∀ i ∈ later, i.step ≠ n := fun i hi heq => by
    obtain ⟨s, hs, hstep⟩ := hsteps i hi
    exact absurd (ht s hs) (by omega)
  rw [hlater, hnew]
  constructor
  · have hbefore : (changesOf pair h).filter (·.step = n) = [] :=
      List.filter_eq_nil_iff.mpr fun i hi => by simpa using hold i hi
    have hafter : later.filter (·.step = n) = [] :=
      List.filter_eq_nil_iff.mpr fun i hi => by simpa using hrest i hi
    rw [List.filter_append, List.filter_append, hbefore, hafter, List.nil_append, List.append_nil]
    exact Nat.le_trans (List.length_filter_le _ new) hlength
  · intro i hi hstep
    rcases List.mem_append.mp hi with hi | hi
    · rcases List.mem_append.mp hi with hi | hi
      · exact absurd hstep (hold i hi)
      · exact hgap i hi
    · exact absurd hstep (hrest i hi)

/-! ## Agreeing rows -/

section Rows

variable {pair : RoutePair} {snapshots : List (ℕ × List Route)}

/-- What is seen of a pair in a snapshot is shown by one of its rows. -/
lemma exists_route_of_mem_sightingsOf {step : ℕ} {routes : List Route} {s : Sighting}
    (hs : s ∈ sightingsOf pair (routes.map (Observation.mk step))) :
    ∃ route ∈ routes, route.pair = pair ∧ s = ⟨step, route.nextHop⟩ := by
  obtain ⟨o, ho, rfl⟩ := List.mem_map.mp hs
  obtain ⟨ho, hpair⟩ := List.mem_filter.mp ho
  obtain ⟨route, hroute, rfl⟩ := List.mem_map.mp ho
  exact ⟨route, hroute, by simpa using hpair, rfl⟩

/-- The sightings in a snapshot are made at its step. -/
lemma step_of_mem_sightingsOf_snapshot {step : ℕ} {routes : List Route} :
    ∀ s ∈ sightingsOf pair (routes.map (Observation.mk step)), s.step = step := by
  intro s hs
  obtain ⟨_, -, -, rfl⟩ := exists_route_of_mem_sightingsOf hs
  rfl

/-- If the rows of a pair agree, so do its sightings. -/
lemma RowsAgree.eq_of_mem_sightingsOf {step : ℕ} {routes : List Route} (h : RowsAgree pair routes) :
    ∀ s ∈ sightingsOf pair (routes.map (Observation.mk step)),
      ∀ s' ∈ sightingsOf pair (routes.map (Observation.mk step)), s = s' := by
  intro s hs s' hs'
  obtain ⟨r, hr, hpair, rfl⟩ := exists_route_of_mem_sightingsOf hs
  obtain ⟨r', hr', hpair', rfl⟩ := exists_route_of_mem_sightingsOf hs'
  rw [h r hr r' hr' hpair hpair']

/-- What is seen of a pair before a snapshot is seen at earlier steps, and what is seen after it at
later ones. -/
lemma exists_sightingsOf_split (hsteps : (snapshots.map Prod.fst).Pairwise (· < ·))
    {snapshot : ℕ × List Route} (hmem : snapshot ∈ snapshots) (pair : RoutePair) :
    ∃ h t, sightingsOf pair (observations snapshots) =
        h ++ sightingsOf pair (snapshot.2.map (Observation.mk snapshot.1)) ++ t ∧
      (∀ s ∈ h, s.step < snapshot.1) ∧ ∀ s ∈ t, snapshot.1 < s.step := by
  obtain ⟨front, back, rfl⟩ := List.append_of_mem hmem
  rw [List.pairwise_map, List.pairwise_append, List.pairwise_cons] at hsteps
  obtain ⟨-, ⟨hback, -⟩, hfront⟩ := hsteps
  refine ⟨sightingsOf pair (observations front), sightingsOf pair (observations back), ?_, ?_, ?_⟩
  · rw [observations_append, observations_cons, sightingsOf_append, sightingsOf_append,
      List.append_assoc]
  · intro s hs
    obtain ⟨other, hother, heq⟩ := exists_of_mem_sightingsOf hs
    exact heq ▸ hfront other hother snapshot List.mem_cons_self
  · intro s hs
    obtain ⟨other, hother, heq⟩ := exists_of_mem_sightingsOf hs
    exact heq ▸ hback other hother

/-- **At a step whose rows agree** a pair has at most one change, which has a positive gap. -/
lemma RowsAgree.filter_changesOf (hsteps : (snapshots.map Prod.fst).Pairwise (· < ·))
    {snapshot : ℕ × List Route} (hmem : snapshot ∈ snapshots) (h : RowsAgree pair snapshot.2) :
    ((changesOf pair (sightingsOf pair (observations snapshots))).filter
        (·.step = snapshot.1)).length ≤ 1 ∧
      ∀ i ∈ changesOf pair (sightingsOf pair (observations snapshots)),
        i.step = snapshot.1 → 1 ≤ i.gap := by
  obtain ⟨before, after, hsplit, hbefore, hafter⟩ := exists_sightingsOf_split hsteps hmem pair
  rw [hsplit]
  exact filter_changesOf_of_agree pair hbefore step_of_mem_sightingsOf_snapshot hafter
    h.eq_of_mem_sightingsOf

/-- **A pair whose rows always agree** has fewer changes than there are snapshots.

**Proof sketch.** Induction on the series, from its end. The last snapshot adds at most one change,
and none if the pair is seen for the first time. -/
lemma length_changesOf_lt (hsteps : (snapshots.map Prod.fst).Pairwise (· < ·))
    (hagree : ∀ s ∈ snapshots, RowsAgree pair s.2)
    (hseen : sightingsOf pair (observations snapshots) ≠ []) :
    (changesOf pair (sightingsOf pair (observations snapshots))).length < snapshots.length := by
  induction snapshots using List.reverseRecOn with
  | nil => exact absurd rfl hseen
  | append_singleton snapshots s ih =>
    have hrows : observations [s] = s.2.map (Observation.mk s.1) := by
      rw [observations_cons]
      exact List.append_nil _
    rw [List.pairwise_map, List.pairwise_append, ← List.pairwise_map] at hsteps
    obtain ⟨hsteps, -, hlast⟩ := hsteps
    have hbefore : ∀ x ∈ sightingsOf pair (observations snapshots), x.step < s.1 := by
      intro x hx
      obtain ⟨other, hother, heq⟩ := exists_of_mem_sightingsOf hx
      exact heq ▸ hlast other hother s (List.mem_singleton_self s)
    obtain ⟨later, hlater, hlength, -, hfirst⟩ := changesOf_append_of_agree pair hbefore
      step_of_mem_sightingsOf_snapshot (hagree s (by simp)).eq_of_mem_sightingsOf
    rw [observations_append, hrows, sightingsOf_append, hlater, List.length_append,
      List.length_append, List.length_singleton]
    by_cases hnil : sightingsOf pair (observations snapshots) = []
    · rw [hnil, hfirst hnil]
      exact Nat.succ_pos _
    · have := ih hsteps (fun x hx => hagree x (List.mem_append_left _ hx)) hnil
      omega

end Rows

/-! ## Histories -/

namespace History

/-- Pairs change at most once in snapshots whose rows agree. -/
structure ChangesOnce (history : History) (snapshots : List (ℕ × List Route)) : Prop where
  /-- A change is recorded at the step of a snapshot. If the rows of the pair agree there, its gap
  is positive. -/
  gap : ∀ i ∈ history.intervals, ∃ s ∈ snapshots, i.step = s.1 ∧
    (RowsAgree i.pair s.2 → 1 ≤ i.gap)
  /-- At a step where the rows of a pair agree, no two changes of the pair are recorded. -/
  single : ∀ s ∈ snapshots, ∀ pair, RowsAgree pair s.2 →
    (history.intervals.filter fun i => i.pair = pair ∧ i.step = s.1).length ≤ 1
  /-- A pair whose rows agree in every snapshot has fewer changes than there are snapshots. -/
  changes : ∀ c ∈ history.counts, (∀ s ∈ snapshots, RowsAgree c.pair s.2) →
    c.changes + 1 ≤ history.snapshots

namespace Describes

variable {history : History} {named : List RoutePair} {snapshots : List (ℕ × List Route)}
  {duration : Duration}

/-- Only changes of the pair are recorded for it, and none more often than it occurs. -/
lemma count_le (h : history.Describes named snapshots duration) (i : UpdateInterval) :
    history.intervals.count i ≤
      (changesOf i.pair (sightingsOf i.pair (observations snapshots))).count i := by
  rw [h.count_intervals]
  split
  · exact Nat.le_refl _
  · exact Nat.zero_le _

/-- A recorded change is a change of its pair. -/
lemma mem_changesOf (h : history.Describes named snapshots duration) {i : UpdateInterval}
    (hi : i ∈ history.intervals) :
    i ∈ changesOf i.pair (sightingsOf i.pair (observations snapshots)) :=
  List.count_pos_iff.mp (Nat.lt_of_lt_of_le (List.count_pos_iff.mpr hi) (h.count_le i))

/-- What is recorded of a pair at a step is found among the changes of the pair at that step. -/
lemma filter_subperm (h : history.Describes named snapshots duration) (pair : RoutePair) (n : ℕ) :
    (history.intervals.filter fun i => i.pair = pair ∧ i.step = n).Subperm
      ((changesOf pair (sightingsOf pair (observations snapshots))).filter (·.step = n)) := by
  refine List.subperm_ext_iff.mpr fun i hi => ?_
  obtain ⟨hpair, hstep⟩ : i.pair = pair ∧ i.step = n := by simpa using (List.mem_filter.mp hi).2
  calc (history.intervals.filter fun i => i.pair = pair ∧ i.step = n).count i
      ≤ history.intervals.count i := List.filter_sublist.count_le i
    _ ≤ (changesOf pair (sightingsOf pair (observations snapshots))).count i :=
        hpair ▸ h.count_le i
    _ = _ := (List.count_filter (by simpa using hstep)).symm

/-- **Pairs change at most once where their rows agree.** -/
lemma changesOnce (h : history.Describes named snapshots duration)
    (hsteps : (snapshots.map Prod.fst).Pairwise (· < ·)) : history.ChangesOnce snapshots where
  gap i hi := by
    have hchange := h.mem_changesOf hi
    obtain ⟨sighting, hsighting, hstep⟩ := exists_step_of_mem_changesOf hchange
    obtain ⟨s, hs, heq⟩ := exists_of_mem_sightingsOf hsighting
    exact ⟨s, hs, hstep.trans heq, fun hagree =>
      (hagree.filter_changesOf hsteps hs).2 i hchange (hstep.trans heq)⟩
  single s hs pair hagree :=
    Nat.le_trans (h.filter_subperm pair s.1).length_le (hagree.filter_changesOf hsteps hs).1
  changes c hc hagree := by
    obtain ⟨hseen, hchanges⟩ := (h.mem_counts c).mp hc
    rw [hchanges, h.snapshots]
    exact length_changesOf_lt hsteps hagree hseen

end Describes

end History

namespace Analyzer

/-- **A pair changes at most once per step where its rows agree.** An ascending series of snapshots
is taken without a refusal. In the history a change has a positive gap and shares its step with no
other change of its pair if the rows of the pair agree in the snapshot of that step. A pair whose
rows agree in every snapshot has fewer changes than there are snapshots. -/
theorem ingestAll_changesOnce (named : List RoutePair) (snapshots : List (ℕ × List Route))
    (duration : Duration) (hsteps : (snapshots.map Prod.fst).Pairwise (· < ·)) :
    ∃ a, (new named).ingestAll snapshots = .ok a ∧ (a.finish duration).ChangesOnce snapshots := by
  obtain ⟨a, ha, htracks, hcount⟩ := exists_ingestAll named snapshots hsteps
  exact ⟨a, ha, (htracks.finish_describes hcount duration).changesOnce hsteps⟩

/-- Two pairs change at step 4. The rows of the first one agree, although it has two of them. -/
def twoRows : List (ℕ × List Route) :=
  [(0, [⟨1, 2, 10⟩, ⟨3, 4, 10⟩]), (4, [⟨1, 2, 11⟩, ⟨3, 4, 11⟩, ⟨3, 4, 12⟩, ⟨1, 2, 11⟩])]

/-- The first pair changes at most once. -/
theorem ingestAll_changesOnce_twoRows : (twoRows.map Prod.fst).Pairwise (· < ·) ∧
    (∀ s ∈ twoRows, RowsAgree ⟨1, 2⟩ s.2) ∧ (¬ ∀ s ∈ twoRows, RowsAgree ⟨3, 4⟩ s.2) ∧
    ∃ a, (new []).ingestAll twoRows = .ok a ∧ (a.finish ⟨100⟩).ChangesOnce twoRows ∧
      ∀ c ∈ (a.finish ⟨100⟩).counts, c.pair = ⟨1, 2⟩ →
        c.changes + 1 ≤ (a.finish ⟨100⟩).snapshots := by
  have hsteps : (twoRows.map Prod.fst).Pairwise (· < ·) := by decide
  have hagree : ∀ s ∈ twoRows, RowsAgree ⟨1, 2⟩ s.2 := by decide
  obtain ⟨a, ha, honce⟩ := ingestAll_changesOnce [] twoRows ⟨100⟩ hsteps
  refine ⟨hsteps, hagree, by decide, a, ha, honce, fun c hc hpair => ?_⟩
  exact honce.changes c hc (hpair ▸ hagree)

/-- **Rows that disagree.** A file with three rows of one pair is read, and taken as a single
snapshot it makes two changes of the pair, both at step 0 and both with a gap of zero. -/
theorem ingestAll_repeated : ∃ routes a,
    Snapshot.parse ⟨"fstate_0.txt"⟩ "1,2,3\n1,2,4\n1,2,3\n".toUTF8 = .ok routes ∧
    (new []).ingestAll [(0, routes)] = .ok a ∧ (a.finish ⟨100⟩).snapshots = 1 ∧
    (a.finish ⟨100⟩).intervals.count ⟨0, 0, 1, 2, 4⟩ = 1 ∧
    (a.finish ⟨100⟩).intervals.count ⟨0, 0, 1, 2, 3⟩ = 1 ∧
    ⟨1, 2, 2⟩ ∈ (a.finish ⟨100⟩).counts := by
  have hparse : Snapshot.parse ⟨"fstate_0.txt"⟩ "1,2,3\n1,2,4\n1,2,3\n".toUTF8 =
      .ok [⟨1, 2, 3⟩, ⟨1, 2, 4⟩, ⟨1, 2, 3⟩] := by rfl
  obtain ⟨a, ha, htracks, hcount⟩ :=
    exists_ingestAll [] [(0, [⟨1, 2, 3⟩, ⟨1, 2, 4⟩, ⟨1, 2, 3⟩])] (by decide)
  have hdescribes := htracks.finish_describes hcount ⟨100⟩
  refine ⟨_, a, hparse, ha, hdescribes.snapshots, ?_, ?_, ?_⟩
  · rw [hdescribes.count_intervals]
    decide
  · rw [hdescribes.count_intervals]
    decide
  · rw [hdescribes.mem_counts]
    decide

end Analyzer

end Constellation
