import Mathlib.Data.List.Count
import Constellation.Proofs.History.Sightings
set_option autoImplicit false

/-!
# The analyzer keeps track of what it has observed

The analyzer keeps one track for each pair and the changes found so far. After any observations,
each track says what the sightings of its pair say, and the recorded changes are those of the
watched pairs.

## Main definitions

* `Watched` — whether the changes of a pair are to be recorded.
* `Track.Summarizes` — a track says what the sightings of its pair say.
* `Analyzer.Tracks` — an analyzer says what some observations say.
* `Analyzer.ingestAll` — takes a series of snapshots.

## Main results

* `Analyzer.Tracks.observe` — one observation keeps the agreement.
* `Analyzer.Tracks.take` — so does a snapshot.
* `Analyzer.exists_ingestAll` — and an ascending series of snapshots, which is never refused.

## Design

The numbering of the pairs is described in both directions at once: the number of a pair is the
place of its track. Neither can a number be stale then, nor can two tracks be about one pair. The
recorded changes are described by how often each of them occurs, so that nothing has to be said
about the order in which the changes of different pairs are found.
-/

namespace Constellation

/-- Whether the changes of a pair are recorded when the given pairs are named. -/
def Watched (named : List RoutePair) (pair : RoutePair) : Prop := named = [] ∨ pair ∈ named

instance (named : List RoutePair) : DecidablePred (Watched named) := fun _ =>
  inferInstanceAs (Decidable (_ ∨ _))

/-- The analyzer watches the pairs that are named, or all. -/
lemma Analyzer.watches_eq (a : Analyzer) (pair : RoutePair) :
    a.watches pair = decide (Watched a.watched pair) := by
  rw [Bool.eq_iff_iff, decide_eq_true_eq, watches, Bool.or_eq_true, List.isEmpty_iff,
    List.contains_iff_mem]
  rfl

/-- A track says what the sightings of its pair say. -/
structure Track.Summarizes (track : Track) (named : List RoutePair) (h : List Sighting) :
    Prop where
  /-- The next hop is that of the last sighting. -/
  nextHop : h.getLast?.map (·.nextHop) = some track.nextHop
  /-- The step is that of the last change or of the first sighting. -/
  lastChange : track.lastChange = lastChangeStep h
  /-- All changes are counted. -/
  changes : track.changes = (changePositions h).length
  /-- The track knows whether its pair is watched. -/
  watched : track.watched = decide (Watched named track.pair)

namespace Track.Summarizes

variable {track : Track} {named : List RoutePair} {h : List Sighting}

/-- A pair with a track has been seen. -/
lemma ne_nil (hs : track.Summarizes named h) : h ≠ [] := by
  rintro rfl
  simpa using hs.nextHop

/-- Another sighting is a change if its next hop is not the one of the track. -/
lemma isChange_iff (hs : track.Summarizes named h) (s : Sighting) :
    IsChange (h ++ [s]) h.length ↔ track.nextHop ≠ s.nextHop := by
  rw [isChange_length_iff]
  obtain ⟨last, hlast, heq⟩ := Option.map_eq_some_iff.mp hs.nextHop
  simp [hlast, ← heq]

/-- The first sighting of a pair gives its track. -/
lemma first (named : List RoutePair) (pair : RoutePair) (s : Sighting) :
    Summarizes ⟨pair, s.nextHop, s.step, 0, decide (Watched named pair)⟩ named [s] where
  nextHop := rfl
  lastChange := rfl
  changes := rfl
  watched := rfl

/-- A sighting that shows the known next hop leaves the track as it is. -/
lemma same (hs : track.Summarizes named h) {s : Sighting} (heq : track.nextHop = s.nextHop) :
    track.Summarizes named (h ++ [s]) := by
  have hchange : ¬ IsChange (h ++ [s]) h.length := by simpa [hs.isChange_iff] using heq
  constructor
  · simp [heq]
  · simp [hs.lastChange, lastChangeStep_snoc, hchange, hs.ne_nil]
  · simp [hs.changes, changePositions_snoc, hchange]
  · exact hs.watched

/-- A sighting that shows a new next hop changes the track. -/
lemma change (hs : track.Summarizes named h) {step : ℕ} {route : Route}
    (hne : track.nextHop ≠ route.nextHop) :
    (track.change step route).Summarizes named (h ++ [⟨step, route.nextHop⟩]) := by
  have hchange : IsChange (h ++ [⟨step, route.nextHop⟩]) h.length := (hs.isChange_iff _).mpr hne
  constructor
  · simp [Track.change]
  · simp [Track.change, lastChangeStep_snoc, hchange]
  · simp [Track.change, hs.changes, changePositions_snoc, hchange]
  · exact hs.watched

end Track.Summarizes

namespace Analyzer

/-- An analyzer says what some observations say. -/
structure Tracks (a : Analyzer) (named : List RoutePair) (os : List Observation) : Prop where
  /-- The named pairs are kept. -/
  watched : a.watched = named
  /-- The number of a pair is the place of its track. -/
  index : ∀ pair (id : ℕ), a.index[pair]? = some id ↔ a.tracks[id]?.map (·.pair) = some pair
  /-- All pairs that have been seen have numbers. -/
  seen : ∀ pair, sightingsOf pair os ≠ [] → a.index[pair]? ≠ none
  /-- Each track says what the sightings of its pair say. -/
  tracks : ∀ (id : ℕ) track, a.tracks[id]? = some track →
    track.Summarizes named (sightingsOf track.pair os)
  /-- The changes of the watched pairs are recorded, each as often as it occurs. -/
  intervals : ∀ i, a.intervals.toList.count i =
    if Watched named i.pair then (changesOf i.pair (sightingsOf i.pair os)).count i else 0

/-- Nothing has been observed before the first snapshot. -/
lemma tracks_new (named : List RoutePair) : (new named).Tracks named [] where
  watched := rfl
  index pair id := by simp [new]
  seen pair h := absurd rfl h
  tracks id track h := by simp [new] at h
  intervals i := by simp [new, sightingsOf]

/-- What is tracked depends neither on the last step nor on the number of snapshots. -/
lemma Tracks.congr {a b : Analyzer} {named : List RoutePair} {os : List Observation}
    (h : a.Tracks named os) (hwatched : b.watched = a.watched) (hindex : b.index = a.index)
    (htracks : b.tracks = a.tracks) (hintervals : b.intervals = a.intervals) :
    b.Tracks named os where
  watched := hwatched.trans h.watched
  index := by rw [hindex, htracks]; exact h.index
  seen := by rw [hindex]; exact h.seen
  tracks := by rw [htracks]; exact h.tracks
  intervals := by rw [hintervals]; exact h.intervals

namespace Tracks

variable {a : Analyzer} {named : List RoutePair} {os : List Observation}

/-- A pair without a number has not been seen. -/
lemma sightingsOf_eq_nil (h : a.Tracks named os) {pair : RoutePair}
    (hnone : a.index[pair]? = none) : sightingsOf pair os = [] :=
  by_contra fun hne => h.seen pair hne hnone

/-- **A pair is observed for the first time.** -/
lemma discover (h : a.Tracks named os) {step : ℕ} {route : Route}
    (hnone : a.index[route.pair]? = none) :
    (a.discover step route).Tracks named (os ++ [⟨step, route⟩]) := by
  have hnil := h.sightingsOf_eq_nil hnone
  have hself : sightingsOf route.pair (os ++ [⟨step, route⟩]) = [⟨step, route.nextHop⟩] := by
    rw [sightingsOf_snoc_self os (o := ⟨step, route⟩) rfl, hnil]
    rfl
  constructor
  · exact h.watched
  · intro pair id
    simp only [Analyzer.discover, Std.HashMap.getElem?_insert, Array.getElem?_push, beq_iff_eq]
    by_cases hpair : route.pair = pair
    · subst hpair
      by_cases hid : id = a.tracks.size
      · simp [hid]
      · have hold := h.index route.pair id
        rw [hnone] at hold
        simpa [hid, Ne.symm hid] using hold
    · by_cases hid : id = a.tracks.size
      · have hold := h.index pair id
        rw [hid, Array.getElem?_eq_none (Nat.le_refl _)] at hold
        simpa [hid, hpair] using hold
      · simpa [hid, hpair] using h.index pair id
  · intro pair hseen
    simp only [Analyzer.discover, Std.HashMap.getElem?_insert, beq_iff_eq]
    by_cases hpair : route.pair = pair
    · simp [hpair]
    · rw [if_neg hpair]
      rw [sightingsOf_snoc_of_ne os hpair] at hseen
      exact h.seen pair hseen
  · intro id track htrack
    rw [Analyzer.discover, Array.getElem?_push] at htrack
    split at htrack
    · cases htrack
      rw [hself, watches_eq, h.watched]
      exact Track.Summarizes.first named route.pair ⟨step, route.nextHop⟩
    · have hne : route.pair ≠ track.pair := by
        intro heq
        have hid := (h.index track.pair id).mpr (by rw [htrack]; rfl)
        rw [← heq, hnone] at hid
        cases hid
      rw [sightingsOf_snoc_of_ne os hne]
      exact h.tracks id track htrack
  · intro i
    rw [Analyzer.discover, h.intervals i]
    by_cases hpair : route.pair = i.pair
    · have hfirst : changesOf i.pair [⟨step, route.nextHop⟩] = [] := rfl
      rw [← hpair, hself, hnil, hpair, hfirst, changesOf_nil]
    · rw [sightingsOf_snoc_of_ne os hpair]

/-- A pair has only one track. -/
lemma eq_of_pair_eq (h : a.Tracks named os) {i j : ℕ} {track track' : Track}
    (hi : a.tracks[i]? = some track) (hj : a.tracks[j]? = some track')
    (heq : track.pair = track'.pair) : i = j := by
  have hi' := (h.index track.pair i).mpr (by rw [hi]; rfl)
  have hj' := (h.index track'.pair j).mpr (by rw [hj]; rfl)
  rw [heq, hj'] at hi'
  exact (Option.some.inj hi').symm

/-- **A pair is observed again**: its track is replaced by one that takes the sighting into
account, and the recorded changes are brought up to date. -/
lemma replace (h : a.Tracks named os) {step : ℕ} {route : Route} {id : ℕ} {track track' : Track}
    (htrack : a.tracks[id]? = some track) (hpair : track.pair = route.pair)
    (hpair' : track'.pair = route.pair)
    (hs : track'.Summarizes named (sightingsOf route.pair os ++ [⟨step, route.nextHop⟩]))
    (intervals : Array UpdateInterval)
    (hintervals : ∀ i, intervals.toList.count i = if Watched named i.pair then
      (changesOf i.pair (sightingsOf i.pair (os ++ [⟨step, route⟩]))).count i else 0) :
    Tracks { a with tracks := a.tracks.set! id track', intervals := intervals } named
      (os ++ [⟨step, route⟩]) := by
  have hlt : id < a.tracks.size := (Array.getElem?_eq_some_iff.mp htrack).1
  refine ⟨h.watched, ?_, ?_, ?_, hintervals⟩
  · intro pair id'
    rw [h.index pair id', Array.set!_eq_setIfInBounds, Array.getElem?_setIfInBounds]
    by_cases hid : id = id'
    · subst hid
      rw [if_pos rfl, if_pos hlt, htrack, Option.map_some, Option.map_some, hpair, hpair']
    · rw [if_neg hid]
  · intro pair hseen
    by_cases hp : route.pair = pair
    · rw [← hp, ← hpair]
      exact h.seen track.pair (h.tracks id track htrack).ne_nil
    · rw [sightingsOf_snoc_of_ne os hp] at hseen
      exact h.seen pair hseen
  · intro id' other hother
    rw [Array.set!_eq_setIfInBounds, Array.getElem?_setIfInBounds] at hother
    by_cases hid : id = id'
    · rw [if_pos hid, if_pos hlt] at hother
      cases hother
      rw [sightingsOf_snoc_self os hpair'.symm, hpair']
      exact hs
    · rw [if_neg hid] at hother
      have hne : route.pair ≠ other.pair := fun heq =>
        hid (h.eq_of_pair_eq htrack hother (hpair.trans heq))
      rw [sightingsOf_snoc_of_ne os hne]
      exact h.tracks id' other hother

/-- What another observation of a pair adds to the changes that have to be recorded. -/
lemma count_changesOf_snoc (h : a.Tracks named os) (step : ℕ) {route : Route} {id : ℕ}
    {track : Track} (htrack : a.tracks[id]? = some track) (hpair : track.pair = route.pair)
    (i : UpdateInterval) :
    (changesOf i.pair (sightingsOf i.pair (os ++ [⟨step, route⟩]))).count i =
      (changesOf i.pair (sightingsOf i.pair os)).count i +
        if track.nextHop ≠ route.nextHop then [track.changeAt step route].count i else 0 := by
  have hs := h.tracks id track htrack
  rw [hpair] at hs
  by_cases hp : route.pair = i.pair
  · rw [sightingsOf_snoc_self os hp, Observation.sighting, changesOf_snoc, List.count_append,
      ← hp, Track.changeAt, hs.lastChange]
    simp only [hs.isChange_iff]
    split <;> rfl
  · have hne : track.changeAt step route ≠ i := by
      rintro rfl
      exact hp rfl
    rw [sightingsOf_snoc_of_ne os hp, List.count_singleton, beq_eq_false_iff_ne.mpr hne]
    simp

/-- A change is recorded if its pair is watched. -/
lemma count_recorded {track : Track} {step : ℕ} {route : Route}
    (hwatched : track.watched = decide (Watched named route.pair))
    (intervals : Array UpdateInterval) (i : UpdateInterval) :
    (if track.watched then intervals.push (track.changeAt step route) else intervals).toList.count
        i =
      intervals.toList.count i +
        if Watched named i.pair then [track.changeAt step route].count i else 0 := by
  by_cases hi : track.changeAt step route = i
  · have hpair : i.pair = route.pair := by rw [← hi]; rfl
    rw [hwatched, hpair]
    by_cases hw : Watched named route.pair <;> simp [hw, hi]
  · split <;> simp [hi]

/-- **A pair is observed again.** -/
lemma update (h : a.Tracks named os) {step : ℕ} {route : Route} {id : ℕ} {track : Track}
    (htrack : a.tracks[id]? = some track) (hpair : track.pair = route.pair) :
    (a.update step route id track).Tracks named (os ++ [⟨step, route⟩]) := by
  have hs := h.tracks id track htrack
  rw [hpair] at hs
  have hcount := h.count_changesOf_snoc step htrack hpair
  by_cases hhop : track.nextHop = route.nextHop
  · have hset : a.tracks.set! id track = a.tracks := by
      obtain ⟨hlt, rfl⟩ := Array.getElem?_eq_some_iff.mp htrack
      rw [Array.set!_eq_setIfInBounds, Array.setIfInBounds_def, dif_pos hlt,
        Array.set_getElem_self]
    have hkeep := h.replace htrack hpair hpair (hs.same (s := ⟨step, route.nextHop⟩) hhop)
      a.intervals fun i => by rw [hcount, h.intervals i]; simp [hhop]
    rw [hset] at hkeep
    rw [Analyzer.update, if_pos hhop]
    exact hkeep
  · rw [Analyzer.update, if_neg hhop]
    have hpair' : (track.change step route).pair = route.pair := hpair
    refine h.replace htrack hpair hpair' (hs.change hhop) _ fun i => ?_
    rw [count_recorded (hpair ▸ hs.watched), hcount, h.intervals i, if_pos hhop]
    split <;> rfl

/-- **One observation keeps the agreement.** -/
lemma observe (h : a.Tracks named os) (step : ℕ) (route : Route) :
    (a.observe step route).Tracks named (os ++ [⟨step, route⟩]) := by
  rw [Analyzer.observe]
  split
  · next hnone => exact h.discover hnone
  · next id hid =>
    obtain ⟨track, htrack, hpair⟩ := Option.map_eq_some_iff.mp ((h.index _ id).mp hid)
    have hget : a.tracks.getD id default = track := by
      rw [Array.getD_eq_getD_getElem?, htrack, Option.getD_some]
    rw [hget]
    exact h.update htrack hpair

/-- So do all observations of a snapshot. -/
lemma foldl_observe (h : a.Tracks named os) (step : ℕ) (routes : List Route) :
    (routes.foldl (fun a route => a.observe step route) a).Tracks named
      (os ++ routes.map (Observation.mk step)) := by
  induction routes generalizing a os with
  | nil => simpa using h
  | cons route routes ih =>
    have hrest := ih (h.observe step route)
    rwa [List.append_assoc] at hrest

/-- **A snapshot keeps the agreement.** -/
lemma take (h : a.Tracks named os) (step : ℕ) (routes : List Route) :
    (ingest.take step routes a).Tracks named (os ++ routes.map (Observation.mk step)) :=
  (h.foldl_observe step routes).congr rfl rfl rfl rfl

end Tracks

/-! ## Series of snapshots -/

/-- Takes a series of snapshots, up to the first one that is refused. -/
def ingestAll (a : Analyzer) : List (ℕ × List Route) → Except OutOfOrder Analyzer
  | [] => .ok a
  | snapshot :: rest =>
    match a.ingest snapshot.1 snapshot.2 with
    | .error fault => .error fault
    | .ok a => a.ingestAll rest

/-- A snapshot that is later than the last one is taken. -/
lemma ingest_of_lt {a : Analyzer} {step : ℕ} (routes : List Route)
    (h : ∀ last, a.lastStep = some last → last < step) :
    a.ingest step routes = .ok (ingest.take step routes a) := by
  rw [ingest]
  split
  · next last hlast => rw [if_neg (Nat.not_le.mpr (h last hlast))]
  · rfl

/-- **An ascending series of snapshots is never refused**, and the agreement is kept.

**Proof sketch.** Induction on the series. The first snapshot is later than the last step by
assumption, and all others are later than the first, which is the last step from then on. -/
lemma exists_ingestAll_of_tracks {a : Analyzer} {named : List RoutePair} {os : List Observation}
    (h : a.Tracks named os) (snapshots : List (ℕ × List Route))
    (hlater : ∀ last, a.lastStep = some last → ∀ s ∈ snapshots, last < s.1)
    (hsteps : (snapshots.map Prod.fst).Pairwise (· < ·)) :
    ∃ b, a.ingestAll snapshots = .ok b ∧ b.Tracks named (os ++ observations snapshots) ∧
      b.snapshots = a.snapshots + snapshots.length := by
  induction snapshots generalizing a os with
  | nil => exact ⟨a, rfl, by simpa [observations] using h, rfl⟩
  | cons s rest ih =>
    rw [List.map_cons, List.pairwise_cons] at hsteps
    have hfirst : a.ingest s.1 s.2 = .ok (ingest.take s.1 s.2 a) :=
      ingest_of_lt s.2 fun last hlast => hlater last hlast s (by simp)
    obtain ⟨b, hb, htracks, hcount⟩ := ih (h.take s.1 s.2)
      (fun last hlast t ht => by
        cases hlast
        exact hsteps.1 t.1 (List.mem_map_of_mem ht)) hsteps.2
    refine ⟨b, ?_, ?_, ?_⟩
    · rw [ingestAll, hfirst]
      exact hb
    · rw [List.append_assoc] at htracks
      exact htracks
    · rw [hcount, List.length_cons]
      show a.snapshots + 1 + rest.length = _
      omega

/-- An ascending series of snapshots is taken by a new analyzer. -/
lemma exists_ingestAll (named : List RoutePair) (snapshots : List (ℕ × List Route))
    (hsteps : (snapshots.map Prod.fst).Pairwise (· < ·)) :
    ∃ a, (new named).ingestAll snapshots = .ok a ∧ a.Tracks named (observations snapshots) ∧
      a.snapshots = snapshots.length := by
  obtain ⟨a, ha, htracks, hcount⟩ :=
    exists_ingestAll_of_tracks (tracks_new named) snapshots (fun _ h => by cases h) hsteps
  exact ⟨a, ha, htracks, by rw [hcount]; simp [new]⟩

end Analyzer

end Constellation
