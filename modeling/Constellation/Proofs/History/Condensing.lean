import Mathlib.Data.List.Forall2
import Mathlib.Data.List.Induction
import Constellation.Proofs.History.Recorded
set_option autoImplicit false

/-!
# What a history depends on

A sighting that shows the next hop which is known already says nothing new. A history is the same
with and without such sightings, and in whatever order the rows of different pairs are written.

## Main definitions

* `condense` — the sightings of a pair that show another next hop than the one right before them.
* `changedSnapshots` — snapshots without the rows that show the next hop which is known already.
* `Analyzer.SameHistory` — two series of snapshots have the same history.

## Main results

* `changesOf_condense` — a pair has the changes of its condensed sightings.
* `sightingsOf_changedSnapshots` — what is seen of a pair in the changed rows alone.
* `Analyzer.sameHistory_of_condense` — the history depends on the condensed sightings only.

## Design

That two histories are equal needs nothing about the analyzer that made them: both describe their
snapshots, the descriptions agree pair by pair, and sorted lists with the same items are equal.
-/

namespace Constellation

/-! ## Condensed sightings -/

/-- The sightings that show another next hop than the one right before them, where `known` is the
next hop before the first one. -/
def newHops (known : Option NodeId) : List Sighting → List Sighting
  | [] => []
  | s :: rest =>
    if known = some s.nextHop then newHops (some s.nextHop) rest
    else s :: newHops (some s.nextHop) rest

/-- The sightings of a pair without those that show the next hop of the sighting right before
them. -/
def condense (h : List Sighting) : List Sighting := newHops none h

/-- Sightings are condensed one part after the other. -/
lemma newHops_append (known : Option NodeId) (h t : List Sighting) :
    newHops known (h ++ t) =
      newHops known h ++ newHops ((h.getLast?.map (·.nextHop)).or known) t := by
  induction h generalizing known with
  | nil => rfl
  | cons s h ih =>
    have hlast : ((s :: h).getLast?.map (·.nextHop)).or known =
        (h.getLast?.map (·.nextHop)).or (some s.nextHop) := by
      cases h with
      | nil => rfl
      | cons next h => simp [List.getLast?_eq_some_getLast]
    rw [List.cons_append, newHops, newHops, ih, hlast]
    split <;> rfl

/-- Condensed sightings cannot be condensed any further. -/
lemma newHops_newHops (known : Option NodeId) (h : List Sighting) :
    newHops known (newHops known h) = newHops known h := by
  induction h generalizing known with
  | nil => rfl
  | cons s h ih =>
    rw [newHops]
    split
    · next hknown =>
      rw [hknown]
      exact ih _
    · next hknown => rw [newHops, if_neg hknown, ih]

/-- What another sighting adds to the condensed ones. -/
lemma condense_snoc (h : List Sighting) (s : Sighting) :
    condense (h ++ [s]) =
      condense h ++ if h.getLast?.map (·.nextHop) = some s.nextHop then [] else [s] := by
  rw [condense, newHops_append, Option.or_none]
  rfl

/-- The first sighting of a pair is kept. -/
lemma condense_eq_nil_iff {h : List Sighting} : condense h = [] ↔ h = [] := by
  cases h <;> simp [condense, newHops]

/-- Another sighting is a change if a next hop is known and differs from its own. -/
lemma isChange_length_iff_map (h : List Sighting) (s : Sighting) :
    IsChange (h ++ [s]) h.length ↔
      h.getLast?.map (·.nextHop) ≠ none ∧ h.getLast?.map (·.nextHop) ≠ some s.nextHop := by
  rw [isChange_length_iff]
  cases h.getLast? <;> simp

/-- Condensing keeps the known next hop, the step of the last change, and all changes. -/
lemma condense_keeps (h : List Sighting) :
    (condense h).getLast?.map (·.nextHop) = h.getLast?.map (·.nextHop) ∧
      lastChangeStep (condense h) = lastChangeStep h ∧
        ∀ pair, changesOf pair (condense h) = changesOf pair h := by
  induction h using List.reverseRecOn with
  | nil => exact ⟨rfl, rfl, fun _ => rfl⟩
  | append_singleton h s ih =>
    obtain ⟨hhop, hstep, hchanges⟩ := ih
    have hchange : IsChange (condense h ++ [s]) (condense h).length ↔
        IsChange (h ++ [s]) h.length := by
      rw [isChange_length_iff_map, isChange_length_iff_map, hhop]
    rw [condense_snoc]
    split
    · -- the sighting shows the known next hop, so it is neither kept nor a change
      next hknown =>
      have hnot : ¬ IsChange (h ++ [s]) h.length := by
        rw [isChange_length_iff_map]
        exact fun hboth => hboth.2 hknown
      have hne : h ≠ [] := by
        rintro rfl
        cases hknown
      rw [List.append_nil]
      refine ⟨by simpa [hhop] using hknown, ?_, fun pair => ?_⟩
      · rw [lastChangeStep_snoc, if_neg (by simp [hne, hnot]), hstep]
      · rw [changesOf_snoc, if_neg hnot, List.append_nil, hchanges]
    · refine ⟨by simp, ?_, fun pair => ?_⟩
      · simp only [lastChangeStep_snoc, hchange, condense_eq_nil_iff, hstep]
      · simp only [changesOf_snoc, hchange, hchanges, hstep]

/-- **A pair has the changes of its condensed sightings.** -/
lemma changesOf_condense (pair : RoutePair) (h : List Sighting) :
    changesOf pair (condense h) = changesOf pair h := (condense_keeps h).2.2 pair

/-! ## Changed rows -/

/-- The next hop of a pair that is known after some observations. -/
def knownHop (pair : RoutePair) (os : List Observation) : Option NodeId :=
  (sightingsOf pair os).getLast?.map (·.nextHop)

/-- What is known after more observations. -/
lemma knownHop_append (pair : RoutePair) (os os' : List Observation) :
    knownHop pair (os ++ os') =
      ((sightingsOf pair os').getLast?.map (·.nextHop)).or (knownHop pair os) := by
  rw [knownHop, sightingsOf_append, List.getLast?_append, Option.map_or, knownHop]

/-- What is known of a pair after it has been observed once more. -/
lemma knownHop_snoc_self {pair : RoutePair} (os : List Observation) (step : ℕ) {route : Route}
    (h : route.pair = pair) : knownHop pair (os ++ [⟨step, route⟩]) = some route.nextHop := by
  rw [knownHop, sightingsOf_snoc_self os h]
  simp [Observation.sighting]

/-- An observation of another pair tells nothing. -/
lemma knownHop_snoc_of_ne {pair : RoutePair} (os : List Observation) (step : ℕ) {route : Route}
    (h : route.pair ≠ pair) : knownHop pair (os ++ [⟨step, route⟩]) = knownHop pair os := by
  rw [knownHop, sightingsOf_snoc_of_ne os h, knownHop]

/-- The rows of a snapshot that do not show the next hop which is known after some observations and
the rows before. -/
def changedRows (os : List Observation) (step : ℕ) : List Route → List Route
  | [] => []
  | route :: rest =>
    let later := changedRows (os ++ [⟨step, route⟩]) step rest
    if knownHop route.pair os = some route.nextHop then later else route :: later

/-- Snapshots without the rows that show the next hop which is known already, after some
observations. -/
def changedSnapshots (os : List Observation) : List (ℕ × List Route) → List (ℕ × List Route)
  | [] => []
  | (step, routes) :: rest =>
    (step, changedRows os step routes) ::
      changedSnapshots (os ++ routes.map (Observation.mk step)) rest

/-- No snapshot is left out. -/
@[simp] lemma map_fst_changedSnapshots (os : List Observation) (snapshots : List (ℕ × List Route)) :
    (changedSnapshots os snapshots).map Prod.fst = snapshots.map Prod.fst := by
  induction snapshots generalizing os with
  | nil => rfl
  | cons snapshot rest ih => rw [changedSnapshots, List.map_cons, List.map_cons, ih]

/-- The changed rows of a snapshot show the new next hops of each pair. -/
lemma sightingsOf_changedRows (pair : RoutePair) (os : List Observation) (step : ℕ)
    (routes : List Route) :
    sightingsOf pair ((changedRows os step routes).map (Observation.mk step)) =
      newHops (knownHop pair os) (sightingsOf pair (routes.map (Observation.mk step))) := by
  induction routes generalizing os with
  | nil => rfl
  | cons route rest ih =>
    have hrest := ih (os ++ [⟨step, route⟩])
    by_cases hpair : route.pair = pair
    · have hcons : ∀ os', sightingsOf pair (⟨step, route⟩ :: os') =
          ⟨step, route.nextHop⟩ :: sightingsOf pair os' := fun os' => by
        simp [sightingsOf, hpair, Observation.sighting]
      rw [knownHop_snoc_self os step hpair] at hrest
      rw [changedRows, hpair, List.map_cons, hcons, newHops]
      split
      · exact hrest
      · rw [List.map_cons, hcons, hrest]
    · have hskip : ∀ os', sightingsOf pair (⟨step, route⟩ :: os') = sightingsOf pair os' :=
        fun os' => by simp [sightingsOf, hpair]
      rw [knownHop_snoc_of_ne os step hpair] at hrest
      rw [changedRows, List.map_cons, hskip]
      split
      · exact hrest
      · rw [List.map_cons, hskip, hrest]

/-- **The changed rows alone show the new next hops of each pair.** -/
lemma sightingsOf_changedSnapshots (pair : RoutePair) (os : List Observation)
    (snapshots : List (ℕ × List Route)) :
    sightingsOf pair (observations (changedSnapshots os snapshots)) =
      newHops (knownHop pair os) (sightingsOf pair (observations snapshots)) := by
  induction snapshots generalizing os with
  | nil => rfl
  | cons snapshot rest ih =>
    rw [changedSnapshots, observations_cons, observations_cons, sightingsOf_append,
      sightingsOf_append, sightingsOf_changedRows, ih, knownHop_append, newHops_append]

/-! ## Histories -/

/-- **Two histories are equal** if both describe equally many snapshots in which the same is seen of
each pair, up to sightings that show nothing new. -/
lemma History.Describes.eq_of_condense {history history' : History} {named : List RoutePair}
    {snapshots snapshots' : List (ℕ × List Route)} {step : Duration}
    (h : history.Describes named snapshots step) (h' : history'.Describes named snapshots' step)
    (hlength : snapshots.length = snapshots'.length)
    (hpairs : ∀ pair, condense (sightingsOf pair (observations snapshots)) =
      condense (sightingsOf pair (observations snapshots'))) : history = history' := by
  have hchanges : ∀ pair, changesOf pair (sightingsOf pair (observations snapshots)) =
      changesOf pair (sightingsOf pair (observations snapshots')) := by
    intro pair
    rw [← changesOf_condense, hpairs, changesOf_condense]
  have hseen : ∀ pair, sightingsOf pair (observations snapshots) = [] ↔
      sightingsOf pair (observations snapshots') = [] := by
    intro pair
    rw [← condense_eq_nil_iff, hpairs, condense_eq_nil_iff]
  have hintervals : history.intervals = history'.intervals := by
    refine eq_of_sorted_intervals h.sorted_intervals h'.sorted_intervals fun i => ?_
    rw [h.count_intervals, h'.count_intervals, hchanges]
  have hcounts : history.counts = history'.counts := by
    refine ChangeCount.eq_of_sorted h.sorted_counts h'.sorted_counts h.nodup_counts
      h'.nodup_counts fun c => ?_
    rw [h.mem_counts, h'.mem_counts, hchanges, ne_eq, hseen]
  have hsnapshots : history.snapshots = history'.snapshots := by
    rw [h.snapshots, h'.snapshots, hlength]
  have hstep : history.step = history'.step := h.step.trans h'.step.symm
  cases history
  cases history'
  congr

namespace Analyzer

/-- Two series of snapshots are both taken and have the same history, whichever pairs are named and
however long a step is. -/
def SameHistory (snapshots snapshots' : List (ℕ × List Route)) : Prop :=
  ∀ (named : List RoutePair) (step : Duration), ∃ a b, (new named).ingestAll snapshots = .ok a ∧
    (new named).ingestAll snapshots' = .ok b ∧ a.finish step = b.finish step

/-- **The history depends on the condensed sightings only.** -/
lemma sameHistory_of_condense {snapshots snapshots' : List (ℕ × List Route)}
    (hfst : snapshots.map Prod.fst = snapshots'.map Prod.fst)
    (hsteps : (snapshots.map Prod.fst).Pairwise (· < ·))
    (hpairs : ∀ pair, condense (sightingsOf pair (observations snapshots)) =
      condense (sightingsOf pair (observations snapshots'))) :
    SameHistory snapshots snapshots' := by
  intro named step
  obtain ⟨a, ha, htracks, hcount⟩ := exists_ingestAll named snapshots hsteps
  obtain ⟨b, hb, htracks', hcount'⟩ := exists_ingestAll named snapshots' (hfst ▸ hsteps)
  have hlength : snapshots.length = snapshots'.length := by
    simpa using congrArg List.length hfst
  exact ⟨a, b, ha, hb, (htracks.finish_describes hcount step).eq_of_condense
    (htracks'.finish_describes hcount' step) hlength hpairs⟩

/-- Snapshots whose rows differ only in how those of different pairs are mixed show the same of each
pair. -/
lemma sightingsOf_eq_of_forall₂ {snapshots snapshots' : List (ℕ × List Route)} (pair : RoutePair)
    (h : List.Forall₂ (fun s t => s.1 = t.1 ∧
      ∀ pair, s.2.filter (·.pair = pair) = t.2.filter (·.pair = pair)) snapshots snapshots') :
    sightingsOf pair (observations snapshots) = sightingsOf pair (observations snapshots') := by
  have hrows : ∀ s : ℕ × List Route, sightingsOf pair (s.2.map (Observation.mk s.1)) =
      (s.2.filter (·.pair = pair)).map fun route => ⟨s.1, route.nextHop⟩ := by
    intro s
    rw [sightingsOf, List.filter_map, List.map_map]
    rfl
  induction h with
  | nil => rfl
  | @cons s t rest rest' hst _ ih =>
    show sightingsOf pair (s.2.map _ ++ observations rest) =
      sightingsOf pair (t.2.map _ ++ observations rest')
    rw [sightingsOf_append, sightingsOf_append, ih, hrows, hrows, hst.1, hst.2]

/-- **How the routes are written down does not matter.** Two series of snapshots over the same
ascending steps have the same history if the sightings of each pair agree once those that show the
next hop right before them are left out. In particular the rows of different pairs can be mixed in
any way, and the rows that show nothing new can be left out.

**Proof sketch.** Both series are described by their histories. What a description says of a pair
depends on its changes and on whether it is seen at all, and neither depends on sightings that show
a known next hop (`condense_keeps`). The changed rows show just the condensed sightings
(`sightingsOf_changedSnapshots`), which cannot be condensed any further. -/
theorem history_of_condensed :
    (∀ snapshots snapshots' : List (ℕ × List Route),
      snapshots.map Prod.fst = snapshots'.map Prod.fst →
      (snapshots.map Prod.fst).Pairwise (· < ·) →
      (∀ pair, condense (sightingsOf pair (observations snapshots)) =
        condense (sightingsOf pair (observations snapshots'))) →
      SameHistory snapshots snapshots') ∧
    (∀ snapshots snapshots' : List (ℕ × List Route),
      (snapshots.map Prod.fst).Pairwise (· < ·) →
      List.Forall₂ (fun s t => s.1 = t.1 ∧
        ∀ pair, s.2.filter (·.pair = pair) = t.2.filter (·.pair = pair)) snapshots snapshots' →
      SameHistory snapshots snapshots') ∧
    ∀ snapshots : List (ℕ × List Route), (snapshots.map Prod.fst).Pairwise (· < ·) →
      SameHistory snapshots (changedSnapshots [] snapshots) := by
  refine ⟨fun s t hfst hsteps hpairs => sameHistory_of_condense hfst hsteps hpairs, ?_, ?_⟩
  · intro s t hsteps hrows
    have hfst : s.map Prod.fst = t.map Prod.fst :=
      List.forall₂_eq_eq_eq ▸ List.forall₂_map_left_iff.mpr
        (List.forall₂_map_right_iff.mpr (hrows.imp fun _ _ hst => hst.1))
    refine sameHistory_of_condense hfst hsteps fun pair => ?_
    rw [sightingsOf_eq_of_forall₂ pair hrows]
  · intro s hsteps
    refine sameHistory_of_condense (map_fst_changedSnapshots [] s).symm hsteps fun pair => ?_
    rw [sightingsOf_changedSnapshots]
    exact (newHops_newHops none _).symm

/-- Two pairs, both of them in each snapshot. -/
def fullSnapshots : List (ℕ × List Route) :=
  [(0, [⟨1, 2, 5⟩, ⟨3, 4, 6⟩]), (1, [⟨1, 2, 5⟩, ⟨3, 4, 7⟩]), (4, [⟨1, 2, 8⟩, ⟨3, 4, 7⟩])]

/-- The same without most of the rows that show nothing new, and in another order. -/
def sparseSnapshots : List (ℕ × List Route) :=
  [(0, [⟨3, 4, 6⟩, ⟨1, 2, 5⟩]), (1, [⟨3, 4, 7⟩, ⟨1, 2, 5⟩, ⟨3, 4, 7⟩]), (4, [⟨1, 2, 8⟩])]

/-- Both series have the same history, and so has the full one without any such row. -/
theorem history_of_condensed_sparse :
    fullSnapshots.map Prod.fst = sparseSnapshots.map Prod.fst ∧
    (fullSnapshots.map Prod.fst).Pairwise (· < ·) ∧
    (∀ pair, condense (sightingsOf pair (observations fullSnapshots)) =
      condense (sightingsOf pair (observations sparseSnapshots))) ∧
    SameHistory fullSnapshots sparseSnapshots ∧
    changedSnapshots [] fullSnapshots =
      [(0, [⟨1, 2, 5⟩, ⟨3, 4, 6⟩]), (1, [⟨3, 4, 7⟩]), (4, [⟨1, 2, 8⟩])] ∧
    SameHistory fullSnapshots (changedSnapshots [] fullSnapshots) := by
  have hfst : fullSnapshots.map Prod.fst = sparseSnapshots.map Prod.fst := by decide
  have hsteps : (fullSnapshots.map Prod.fst).Pairwise (· < ·) := by decide
  have hunseen : ∀ pair : RoutePair, pair ≠ ⟨1, 2⟩ → pair ≠ ⟨3, 4⟩ → ∀ os : List Observation,
      (∀ o ∈ os, o.route.pair = ⟨1, 2⟩ ∨ o.route.pair = ⟨3, 4⟩) → sightingsOf pair os = [] := by
    intro pair h₁ h₂ os hos
    rw [sightingsOf, List.map_eq_nil_iff, List.filter_eq_nil_iff]
    intro o ho heq
    rw [← of_decide_eq_true heq] at h₁ h₂
    exact (hos o ho).elim h₁ h₂
  have hpairs : ∀ pair, condense (sightingsOf pair (observations fullSnapshots)) =
      condense (sightingsOf pair (observations sparseSnapshots)) := by
    intro pair
    by_cases h₁ : pair = ⟨1, 2⟩
    · rw [h₁]
      decide
    · by_cases h₂ : pair = ⟨3, 4⟩
      · rw [h₂]
        decide
      · rw [hunseen pair h₁ h₂ _ (by decide), hunseen pair h₁ h₂ _ (by decide)]
  exact ⟨hfst, hsteps, hpairs, history_of_condensed.1 _ _ hfst hsteps hpairs, by decide,
    history_of_condensed.2.2 _ hsteps⟩

end Analyzer

end Constellation
