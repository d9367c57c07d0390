import Mathlib.Algebra.Order.Ring.Nat
import Constellation.Proofs.History.Agreeing
import Constellation.Proofs.History.Refusals
set_option autoImplicit false

/-!
# The state of the analyzer, column by column

The analyzer keeps one track per pair. Here the five parts of the tracks are kept apart, each in a
column of its own, so that a pair is spread over five places which nothing but the code keeps
together. Every access to a column is checked for its bounds, and every difference of steps for its
sign. No check ever fails, and the columns stay what the tracks are.

## Main definitions

* `Columns` — what is known after some snapshots, column by column.
* `Columns.observed?` — the columns after an observation, unless a check fails.
* `Columns.call?`, `Columns.callAll?` — calls the columns with one snapshot or with several.
* `Analyzer.columns` — the columns of the tracks of an analyzer.
* `Columns.Represents` — what the columns are after some calls.

## Main results

* `first_add_sum_gaps` — the gaps of a pair add up to the time from its first sighting to its last
  change.
* `Analyzer.Tracks.observed?_columns` — one observation.
* `Analyzer.Reached.call?_columns` — one call.
* `Columns.callAll_represents` — any calls.

## Design

A check that fails yields nothing, so a run that yields something has passed all of its checks, also
those in the middle of a snapshot, when the last step is still the one before. The columns are not
read off the tracks at the end: they are changed one by one, and each change is shown to be that of
the tracks.
-/

namespace Constellation

/-! ## Gaps -/

/-- A change of a pair is about the pair. -/
lemma pair_of_mem_changesOf {pair : RoutePair} {h : List Sighting} {i : UpdateInterval}
    (hi : i ∈ changesOf pair h) : i.pair = pair := by
  obtain ⟨j, -, rfl⟩ := List.mem_map.mp hi
  rfl

/-- What is seen of a pair in an ascending series is seen at steps that do not descend. -/
lemma pairwise_sightingsOf {snapshots : List (ℕ × List Route)}
    (hsteps : (snapshots.map Prod.fst).Pairwise (· < ·)) (pair : RoutePair) :
    (sightingsOf pair (observations snapshots)).Pairwise (·.step ≤ ·.step) := by
  rw [sightingsOf, List.pairwise_map]
  refine List.Pairwise.filter _ (List.pairwise_flatMap.mpr ⟨fun snapshot _ => ?_, ?_⟩)
  · exact List.pairwise_map.mpr (List.pairwise_of_forall fun _ _ => Nat.le_refl _)
  · refine (List.pairwise_map.mp hsteps).imp fun {s t} hlt o ho o' ho' => ?_
    obtain ⟨_, -, rfl⟩ := List.mem_map.mp ho
    obtain ⟨_, -, rfl⟩ := List.mem_map.mp ho'
    exact Nat.le_of_lt hlt

/-- **The gaps of a pair add up** to the time from its first sighting to its last change.

**Proof sketch.** Induction on the sightings, from their end. A further change is measured from the
last one, so its gap is what it adds to the time. -/
lemma first_add_sum_gaps (pair : RoutePair) {h : List Sighting} {first : Sighting}
    (hfirst : h.head? = some first) (hsteps : h.Pairwise (·.step ≤ ·.step)) :
    first.step + ((changesOf pair h).map (·.gap)).sum = lastChangeStep h := by
  induction h using List.reverseRecOn with
  | nil => cases hfirst
  | append_singleton h s ih =>
    rw [List.pairwise_append] at hsteps
    obtain ⟨hsteps, -, hlast⟩ := hsteps
    rw [changesOf_snoc, lastChangeStep_snoc]
    by_cases hne : h = []
    · subst hne
      cases hfirst
      simp [IsChange]
    · rw [List.head?_append_of_ne_nil _ hne] at hfirst
      have hsum := ih hfirst hsteps
      have hle : lastChangeStep h < s.step + 1 := lastChangeStep_lt hne fun s' hs' =>
        Nat.lt_succ_of_le (hlast s' hs' s (List.mem_singleton_self s))
      by_cases hchange : IsChange (h ++ [s]) h.length
      · simp only [hchange, or_true, if_true, List.map_append, List.sum_append, List.map_singleton,
          List.sum_singleton]
        omega
      · simpa [hchange, hne] using hsum

/-! ## Columns -/

/-- What is known after some snapshots, column by column. -/
structure Columns where
  /-- The pairs whose changes are recorded one by one; no pairs stand for all. -/
  watched : List RoutePair
  /-- The number of each observed pair. -/
  index : Std.HashMap RoutePair ℕ
  /-- The observed pairs. -/
  pairs : Array RoutePair
  /-- The next hop of each pair. -/
  nextHops : Array NodeId
  /-- The step of the last change of each pair, or of its first observation. -/
  lastChanges : Array ℕ
  /-- The number of changes of each pair. -/
  changes : Array ℕ
  /-- Whether the changes of each pair are recorded one by one. -/
  flags : Array Bool
  /-- The recorded changes in the order in which they were found. -/
  intervals : Array UpdateInterval
  /-- The step of the last snapshot. -/
  lastStep : Option ℕ
  /-- The number of snapshots. -/
  snapshots : ℕ

/-- The difference of two steps, unless it is negative. -/
def difference? (later earlier : ℕ) : Option ℕ :=
  if earlier ≤ later then some (later - earlier) else none

/-- A column with another item at a place, unless the column has no such place. -/
def replaced? {α : Type} (column : Array α) (id : ℕ) (item : α) : Option (Array α) :=
  if id < column.size then some (column.set! id item) else none

namespace Columns

/-- The columns before any snapshot. -/
def new (watched : List RoutePair) : Columns where
  watched := watched
  index := ∅
  pairs := #[]
  nextHops := #[]
  lastChanges := #[]
  changes := #[]
  flags := #[]
  intervals := #[]
  lastStep := none
  snapshots := 0

/-- The columns after the first observation of a pair, which gets a place in each of them. -/
def discover (c : Columns) (step : ℕ) (route : Route) : Columns :=
  { c with
    index := c.index.insert route.pair c.pairs.size
    pairs := c.pairs.push route.pair
    nextHops := c.nextHops.push route.nextHop
    lastChanges := c.lastChanges.push step
    changes := c.changes.push 0
    flags := c.flags.push (c.watched.isEmpty || c.watched.contains route.pair) }

/-- The recorded changes after a change of the pair with number `id`. -/
def recorded? (c : Columns) (step : ℕ) (route : Route) (id : ℕ) :
    Option (Array UpdateInterval) := do
  if ← c.flags[id]? then
    let gap ← difference? step (← c.lastChanges[id]?)
    return c.intervals.push ⟨gap, step, route.source, route.destination, route.nextHop⟩
  else return c.intervals

/-- The columns after another observation of the pair with number `id`. -/
def updated? (c : Columns) (step : ℕ) (route : Route) (id : ℕ) : Option Columns := do
  if (← c.nextHops[id]?) = route.nextHop then return c
  else
    let intervals ← c.recorded? step route id
    let nextHops ← replaced? c.nextHops id route.nextHop
    let lastChanges ← replaced? c.lastChanges id step
    let changes ← replaced? c.changes id ((← c.changes[id]?) + 1)
    return { c with intervals, nextHops, lastChanges, changes }

/-- The columns after one observation. -/
def observed? (c : Columns) (step : ℕ) (route : Route) : Option Columns :=
  match c.index[route.pair]? with
  | none => some (c.discover step route)
  | some id => c.updated? step route id

/-- The columns after all observations of a snapshot. -/
def taken? (c : Columns) (step : ℕ) (routes : List Route) : Option Columns := do
  let c ← routes.foldlM (fun c route => c.observed? step route) c
  return { c with lastStep := some step, snapshots := c.snapshots + 1 }

/-- Calls the columns with a snapshot. It has to be later than the last one; otherwise nothing
changes. -/
def call? (c : Columns) (step : ℕ) (routes : List Route) :
    Option (Except OutOfOrder Unit × Columns) :=
  match c.lastStep with
  | some last =>
    if step ≤ last then some (.error ⟨last, step⟩, c) else (c.taken? step routes).map (.ok (), ·)
  | none => (c.taken? step routes).map (.ok (), ·)

/-- Calls the columns with some snapshots, whether they are refused or not. -/
def callAll? (c : Columns) (calls : List (ℕ × List Route)) : Option Columns :=
  calls.foldlM (fun c call => (c.call? call.1 call.2).map Prod.snd) c

/-- The recorded changes of a pair. -/
def recordedOf (c : Columns) (pair : RoutePair) : List UpdateInterval :=
  c.intervals.toList.filter (·.pair = pair)

end Columns

/-- The columns of the tracks of an analyzer. -/
def Analyzer.columns (a : Analyzer) : Columns where
  watched := a.watched
  index := a.index
  pairs := a.tracks.map (·.pair)
  nextHops := a.tracks.map (·.nextHop)
  lastChanges := a.tracks.map (·.lastChange)
  changes := a.tracks.map (·.changes)
  flags := a.tracks.map (·.watched)
  intervals := a.intervals
  lastStep := a.lastStep
  snapshots := a.snapshots

/-! ## No check fails -/

/-- A difference that is not negative is one. -/
lemma difference?_of_le {later earlier : ℕ} (h : earlier ≤ later) :
    difference? later earlier = some (later - earlier) :=
  if_pos h

section Mapped

variable {α β : Type} {items : Array α} {id : ℕ} {item : α}

/-- A column has the part of an item at its place. -/
lemma getElem?_map_of_eq (h : items[id]? = some item) (f : α → β) :
    (items.map f)[id]? = some (f item) := by
  rw [Array.getElem?_map, h, Option.map_some]

/-- Replacing an item replaces its part in a column. -/
lemma replaced?_map (h : items[id]? = some item) (f : α → β) (other : α) :
    replaced? (items.map f) id (f other) = some ((items.set! id other).map f) := by
  obtain ⟨hlt, -⟩ := Array.getElem?_eq_some_iff.mp h
  rw [replaced?, Array.size_map, if_pos hlt, Array.set!_eq_setIfInBounds,
    Array.set!_eq_setIfInBounds, Array.map_setIfInBounds]

/-- An item with the same part leaves a column as it is. -/
lemma map_set!_of_eq (h : items[id]? = some item) {f : α → β} {other : α}
    (heq : f other = f item) : (items.set! id other).map f = items.map f := by
  obtain ⟨hlt, -⟩ := Array.getElem?_eq_some_iff.mp h
  refine Array.ext_getElem? fun i => ?_
  rw [Array.getElem?_map, Array.getElem?_map, Array.set!_eq_setIfInBounds,
    Array.getElem?_setIfInBounds]
  by_cases hi : id = i
  · subst hi
    rw [if_pos rfl, if_pos hlt, h, Option.map_some, Option.map_some, heq]
  · rw [if_neg hi]

end Mapped

namespace Analyzer

/-- Nothing is known before the first snapshot. -/
lemma columns_new (named : List RoutePair) : (new named).columns = Columns.new named := by
  simp [columns, new, Columns.new]

/-- A new pair gets a place in every column. -/
lemma columns_discover (a : Analyzer) (step : ℕ) (route : Route) :
    a.columns.discover step route = (a.discover step route).columns := by
  simp [columns, Columns.discover, discover, watches]

variable {a : Analyzer} {step : ℕ} {id : ℕ} {track : Track}

/-- A change is recorded with the gap that the track gives it. -/
lemma recorded?_columns (htrack : a.tracks[id]? = some track) (hle : track.lastChange ≤ step)
    (route : Route) : a.columns.recorded? step route id = some
      (if track.watched then a.intervals.push (track.changeAt step route) else a.intervals) := by
  simp only [Columns.recorded?, columns, Array.getElem?_map, htrack, Option.map_some,
    difference?_of_le hle, Option.bind_eq_bind, Option.bind_some, Option.pure_def]
  split <;> rfl

/-- **A pair with a track is observed again.** -/
lemma updated?_columns (htrack : a.tracks[id]? = some track) (hle : track.lastChange ≤ step)
    (route : Route) :
    a.columns.updated? step route id = some (a.update step route id track).columns := by
  have hhop : a.columns.nextHops[id]? = some track.nextHop := getElem?_map_of_eq htrack _
  have hchanges : a.columns.changes[id]? = some track.changes := getElem?_map_of_eq htrack _
  rw [Columns.updated?, Analyzer.update, hhop, Option.bind_eq_bind, Option.bind_some]
  split
  · rfl
  · -- the three columns are replaced one after the other, the other two keep their items
    have hhops := replaced?_map htrack (·.nextHop) (track.change step route)
    have hlast := replaced?_map htrack (·.lastChange) (track.change step route)
    have hcount := replaced?_map htrack (·.changes) (track.change step route)
    have hpairs : (a.tracks.set! id (track.change step route)).map (·.pair) =
      a.tracks.map (·.pair) := map_set!_of_eq htrack rfl
    have hflags : (a.tracks.set! id (track.change step route)).map (·.watched) =
      a.tracks.map (·.watched) := map_set!_of_eq htrack rfl
    have hrecorded := recorded?_columns htrack hle route
    simp only [Track.change] at hhops hlast hcount hpairs hflags
    simp only [hrecorded, hchanges, Option.bind_eq_bind, Option.bind_some, Option.pure_def]
    simp only [columns, hhops, hlast, hcount, hpairs, hflags, Track.change, Option.bind_some]

namespace Tracks

variable {named : List RoutePair} {os : List Observation}

/-- No last change is later than all observations. -/
lemma lastChange_le (h : a.Tracks named os) (hos : ∀ o ∈ os, o.step ≤ step)
    (htrack : a.tracks[id]? = some track) : track.lastChange ≤ step := by
  have hs := h.tracks id track htrack
  rw [hs.lastChange]
  refine Nat.le_of_lt_succ (lastChangeStep_lt hs.ne_nil fun s hmem => ?_)
  obtain ⟨o, ho, rfl⟩ := List.mem_map.mp hmem
  exact Nat.lt_succ_of_le (hos o (List.mem_filter.mp ho).1)

/-- **One observation**, at a step that is not earlier than the others, passes all checks. -/
lemma observed?_columns (h : a.Tracks named os) (hos : ∀ o ∈ os, o.step ≤ step) (route : Route) :
    a.columns.observed? step route = some (a.observe step route).columns := by
  have hindex : a.columns.index = a.index := rfl
  rw [Columns.observed?, Analyzer.observe, hindex]
  cases hid : a.index[route.pair]? with
  | none => exact congrArg some (a.columns_discover step route)
  | some id =>
    obtain ⟨track, htrack, -⟩ := Option.map_eq_some_iff.mp ((h.index _ id).mp hid)
    have hget : a.tracks.getD id default = track := by
      rw [Array.getD_eq_getD_getElem?, htrack, Option.getD_some]
    show a.columns.updated? step route id =
      some (a.update step route id (a.tracks.getD id default)).columns
    rw [hget]
    exact updated?_columns htrack (h.lastChange_le hos htrack) route

/-- So do all observations of a snapshot. -/
lemma foldlM_observed?_columns (h : a.Tracks named os) (hos : ∀ o ∈ os, o.step ≤ step)
    (routes : List Route) :
    routes.foldlM (fun c route => c.observed? step route) a.columns =
      some (routes.foldl (fun a route => a.observe step route) a).columns := by
  induction routes generalizing a os with
  | nil => rfl
  | cons route routes ih =>
    rw [List.foldlM_cons, h.observed?_columns hos, Option.bind_eq_bind, Option.bind_some]
    refine ih (h.observe step route) fun o ho => ?_
    rcases List.mem_append.mp ho with ho | ho
    · exact hos o ho
    · obtain rfl := List.mem_singleton.mp ho
      exact Nat.le_refl step

/-- **A snapshot** that is not earlier than all observations passes all checks. -/
lemma taken?_columns (h : a.Tracks named os) (hos : ∀ o ∈ os, o.step ≤ step)
    (routes : List Route) :
    a.columns.taken? step routes = some (ingest.take step routes a).columns := by
  rw [Columns.taken?, h.foldlM_observed?_columns hos, Option.bind_eq_bind, Option.bind_some,
    ingest.take, ← snapshots_foldl_observe a step routes]
  rfl

end Tracks

variable {named : List RoutePair} {calls : List (ℕ × List Route)}

/-- **One call**, whether it is refused or not, passes all checks. -/
lemma Reached.call?_columns (h : Reached named calls a) (step : ℕ) (routes : List Route) :
    a.columns.call? step routes =
      some ((a.call step routes).1, (a.call step routes).2.columns) := by
  have hlastStep : a.columns.lastStep = a.lastStep := rfl
  by_cases hlt : ∀ c ∈ calls, c.1 < step
  · have hlast := h.lastStep_lt hlt
    have hearlier : ∀ o ∈ observations (latestCalls calls), o.step ≤ step := fun o ho => by
      obtain ⟨last, heq, hle⟩ := h.exists_step_le ho
      exact Nat.le_trans hle (Nat.le_of_lt (hlast last heq))
    rw [call_of_lt hlast, Columns.call?, h.tracks.taken?_columns hearlier, hlastStep]
    split
    · next last heq => rw [if_neg (Nat.not_le.mpr (hlast last heq)), Option.map_some]
    · rw [Option.map_some]
  · obtain ⟨last, hlast, hle⟩ := h.exists_last hlt
    rw [call_of_le hlast hle, Columns.call?, hlastStep, hlast]
    exact if_pos hle

end Analyzer

/-! ## What the columns are -/

namespace Columns

/-- **Any calls** pass all checks. -/
lemma callAll?_new (named : List RoutePair) (calls : List (ℕ × List Route)) :
    (new named).callAll? calls = some ((Analyzer.new named).callAll calls).columns := by
  induction calls using List.reverseRecOn with
  | nil => exact congrArg some (Analyzer.columns_new named).symm
  | append_singleton calls call ih =>
    rw [callAll?] at ih ⊢
    rw [List.foldlM_append, ih, Option.bind_eq_bind, Option.bind_some, List.foldlM_cons,
      (Analyzer.reached_callAll named calls).call?_columns, Analyzer.callAll_snoc]
    rfl

/-- What the columns are after some calls. -/
structure Represents (c : Columns) (named : List RoutePair) (calls : List (ℕ × List Route)) :
    Prop where
  /-- All columns have equally many places. -/
  sizes : c.nextHops.size = c.pairs.size ∧ c.lastChanges.size = c.pairs.size ∧
    c.changes.size = c.pairs.size ∧ c.flags.size = c.pairs.size
  /-- The number of a pair is its place, and nothing else has a number. -/
  index : ∀ pair (id : ℕ), c.index[pair]? = some id ↔ c.pairs[id]? = some pair
  /-- No pair has two places. -/
  nodup : c.pairs.toList.Nodup
  /-- The flag of a pair says whether it is watched. -/
  flagged : ∀ (id : ℕ) pair, c.pairs[id]? = some pair →
    c.flags[id]? = some (decide (Watched named pair))
  /-- No last change is later than the last step. -/
  changed : ∀ n ∈ c.lastChanges, ∃ last, c.lastStep = some last ∧ n ≤ last
  /-- As many changes of a watched pair are recorded as are counted. -/
  recorded : ∀ (id : ℕ) pair, c.pairs[id]? = some pair → Watched named pair →
    c.changes[id]? = some (c.recordedOf pair).length
  /-- Their gaps add up to the time from the first observation of the pair to its last change. -/
  gaps : ∀ (id : ℕ) pair, c.pairs[id]? = some pair → Watched named pair →
    ∃ first ∈ (sightingsOf pair (observations (latestCalls calls))).head?,
      c.lastChanges[id]? = some (first.step + ((c.recordedOf pair).map (·.gap)).sum)
  /-- No changes of other pairs are recorded. -/
  unwatched : ∀ pair, ¬ Watched named pair → c.recordedOf pair = []

end Columns

namespace Analyzer

variable {a : Analyzer} {named : List RoutePair} {calls : List (ℕ × List Route)}
  {os : List Observation}

/-- A place in the column of pairs is that of a track. -/
lemma columns_pairs_eq_some_iff {id : ℕ} {pair : RoutePair} :
    a.columns.pairs[id]? = some pair ↔ ∃ track, a.tracks[id]? = some track ∧ track.pair = pair := by
  rw [columns, Array.getElem?_map, Option.map_eq_some_iff]

/-- What is recorded of a watched pair are its changes, in some order. -/
lemma Tracks.perm_recordedOf (h : a.Tracks named os) {pair : RoutePair}
    (hwatched : Watched named pair) :
    (a.columns.recordedOf pair).Perm (changesOf pair (sightingsOf pair os)) := by
  refine List.perm_iff_count.mpr fun i => ?_
  rw [Columns.recordedOf, columns]
  by_cases hi : i.pair = pair
  · rw [List.count_filter (by simpa using hi), h.intervals i, hi, if_pos hwatched]
  · -- neither list has a change of another pair
    rw [List.count_eq_zero.mpr fun hmem => hi (by simpa using (List.mem_filter.mp hmem).2),
      List.count_eq_zero.mpr fun hmem => hi (pair_of_mem_changesOf hmem)]

/-- Nothing is recorded of a pair that is not watched. -/
lemma Tracks.recordedOf_eq_nil (h : a.Tracks named os) {pair : RoutePair}
    (hnot : ¬ Watched named pair) : a.columns.recordedOf pair = [] := by
  refine List.filter_eq_nil_iff.mpr fun i hi => ?_
  have hcount := h.intervals i
  rw [decide_eq_true_eq]
  rintro rfl
  rw [if_neg hnot] at hcount
  exact List.count_eq_zero.mp hcount hi

/-- The last change of a pair is not later than the last step. -/
lemma Reached.exists_lastChange_le (h : Reached named calls a) {id : ℕ} {track : Track}
    (htrack : a.tracks[id]? = some track) :
    ∃ last, a.lastStep = some last ∧ track.lastChange ≤ last := by
  obtain ⟨s, hs⟩ := List.exists_mem_of_ne_nil _ (h.tracks.tracks id track htrack).ne_nil
  obtain ⟨o, ho, rfl⟩ := List.mem_map.mp hs
  obtain ⟨last, hlast, -⟩ := h.exists_step_le (List.mem_filter.mp ho).1
  refine ⟨last, hlast, h.tracks.lastChange_le (fun o ho => ?_) htrack⟩
  obtain ⟨last', hlast', hle⟩ := h.exists_step_le ho
  obtain rfl := Option.some.inj (hlast.symm.trans hlast')
  exact hle

/-- **What the columns are** once an analyzer has been called. -/
lemma Reached.represents (h : Reached named calls a) : a.columns.Represents named calls where
  sizes := by simp [columns]
  index pair id := by
    rw [columns, Array.getElem?_map]
    exact h.tracks.index pair id
  nodup := by
    rw [columns, Array.toList_map]
    exact h.tracks.nodup_pairs
  flagged id pair hpair := by
    obtain ⟨track, htrack, rfl⟩ := columns_pairs_eq_some_iff.mp hpair
    rw [← (h.tracks.tracks id track htrack).watched]
    exact getElem?_map_of_eq htrack _
  changed n hn := by
    obtain ⟨track, hmem, rfl⟩ := Array.mem_map.mp hn
    obtain ⟨id, htrack⟩ := Array.mem_iff_getElem?.mp hmem
    exact h.exists_lastChange_le htrack
  recorded id pair hpair hwatched := by
    obtain ⟨track, htrack, rfl⟩ := columns_pairs_eq_some_iff.mp hpair
    rw [(h.tracks.perm_recordedOf hwatched).length_eq, length_changesOf,
      ← (h.tracks.tracks id track htrack).changes]
    exact getElem?_map_of_eq htrack _
  gaps id pair hpair hwatched := by
    obtain ⟨track, htrack, rfl⟩ := columns_pairs_eq_some_iff.mp hpair
    have hs := h.tracks.tracks id track htrack
    obtain ⟨first, hfirst⟩ := Option.ne_none_iff_exists'.mp (mt List.head?_eq_none_iff.mp hs.ne_nil)
    have hsum := first_add_sum_gaps track.pair hfirst
      (pairwise_sightingsOf (pairwise_latestCalls calls) track.pair)
    refine ⟨first, hfirst, ?_⟩
    rw [((h.tracks.perm_recordedOf hwatched).map _).sum_eq, hsum, ← hs.lastChange]
    exact getElem?_map_of_eq htrack _
  unwatched _ := h.tracks.recordedOf_eq_nil

end Analyzer

namespace Columns

/-- **The columns represent what has been observed.** Whatever they are called with, no access is
out of bounds and no difference is negative, not even in the middle of a snapshot. The columns
become those of the tracks. They have equally many places; the numbers of the pairs are their
places, and no pair has two of them. The flags tell the watched pairs, and no last change is later
than the last step. Of each watched pair as many changes are recorded as are counted, their gaps add
up to the time from its first observation to its last change, and none are recorded of the others.

**Proof sketch.** The tracks say what has been observed (`Analyzer.Reached.tracks`). So the number
of a pair is a place in every column, and its last change is not later than the step that is being
taken (`Analyzer.Tracks.lastChange_le`), whose own rows may have come before. -/
theorem callAll_represents (named : List RoutePair) (calls : List (ℕ × List Route)) :
    (new named).callAll? calls = some ((Analyzer.new named).callAll calls).columns ∧
      ((Analyzer.new named).callAll calls).columns.Represents named calls :=
  ⟨callAll?_new named calls, (Analyzer.reached_callAll named calls).represents⟩

end Columns

end Constellation
