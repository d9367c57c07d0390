import Mathlib.Data.List.GetD
import Constellation.History.Analyzer
set_option autoImplicit false

/-!
# Sightings of a pair and its changes

The rows of a series of snapshots are observations, and the observations of one pair, in the order
in which they are made, are its sightings. The changes of a pair are defined on its sightings
alone, without any state that is carried along.

## Main definitions

* `Observation`, `observations` — the rows of a series of snapshots in order.
* `Sighting`, `sightingsOf` — what is observed of one pair.
* `IsChange` — whether the sighting at a position differs from the one right before it.
* `originBefore` — the position from which the gap of a change is measured.
* `changesOf` — the changes of a pair in order.

## Main results

* `changesOf_snoc`, `lastChangeStep_snoc` — what another sighting adds.

## Design

Changes are found by position. Whether a position holds a change depends on nothing after it, so
all that is needed of a longer series is how its last position relates to the others.
-/

namespace Constellation

/-- One row of a snapshot with the step of the snapshot. -/
structure Observation where
  /-- The step of the snapshot. -/
  step : ℕ
  /-- The row. -/
  route : Route
  deriving DecidableEq, Repr

/-- The rows of a series of snapshots in the order in which they are taken. -/
def observations (snapshots : List (ℕ × List Route)) : List Observation :=
  snapshots.flatMap fun snapshot => snapshot.2.map (Observation.mk snapshot.1)

/-- The rows of one more snapshot in front of a series. -/
lemma observations_cons (snapshot : ℕ × List Route) (snapshots : List (ℕ × List Route)) :
    observations (snapshot :: snapshots) =
      snapshot.2.map (Observation.mk snapshot.1) ++ observations snapshots := List.flatMap_cons

/-- The rows in two parts of a series. -/
lemma observations_append (snapshots snapshots' : List (ℕ × List Route)) :
    observations (snapshots ++ snapshots') = observations snapshots ++ observations snapshots' :=
  List.flatMap_append

/-- What one observation says about its pair. -/
structure Sighting where
  /-- When the pair is seen. -/
  step : ℕ
  /-- Its next hop then. -/
  nextHop : NodeId
  deriving DecidableEq, Repr, Inhabited

/-- What an observation says about its pair. -/
def Observation.sighting (o : Observation) : Sighting := ⟨o.step, o.route.nextHop⟩

/-- The sightings of a pair in order. -/
def sightingsOf (pair : RoutePair) (os : List Observation) : List Sighting :=
  (os.filter fun o => o.route.pair = pair).map Observation.sighting

/-- The sightings in two parts of a series. -/
lemma sightingsOf_append (pair : RoutePair) (os os' : List Observation) :
    sightingsOf pair (os ++ os') = sightingsOf pair os ++ sightingsOf pair os' := by
  simp [sightingsOf]

/-- An observation is a sighting of its own pair. -/
lemma sightingsOf_snoc_self {pair : RoutePair} (os : List Observation) {o : Observation}
    (h : o.route.pair = pair) :
    sightingsOf pair (os ++ [o]) = sightingsOf pair os ++ [o.sighting] := by
  simp [sightingsOf, h]

/-- An observation is no sighting of another pair. -/
lemma sightingsOf_snoc_of_ne {pair : RoutePair} (os : List Observation) {o : Observation}
    (h : o.route.pair ≠ pair) : sightingsOf pair (os ++ [o]) = sightingsOf pair os := by
  simp [sightingsOf, h]

/-! ## Changes -/

/-- The sighting at position `i` is a change: it is not the first, and its next hop differs from
that of the sighting right before it. -/
def IsChange (h : List Sighting) (i : ℕ) : Prop :=
  0 < i ∧ i < h.length ∧ (h.getD (i - 1) default).nextHop ≠ (h.getD i default).nextHop

instance (h : List Sighting) : DecidablePred (IsChange h) := fun _ =>
  inferInstanceAs (Decidable (_ ∧ _ ∧ _))

/-- The positions of the changes in order. -/
def changePositions (h : List Sighting) : List ℕ :=
  (List.range h.length).filter fun i => IsChange h i

/-- The position of the last change before position `i`, or that of the first sighting if there
is none. -/
def originBefore (h : List Sighting) (i : ℕ) : ℕ :=
  ((changePositions h).filter fun j => j < i).getLast?.getD 0

/-- The change of a pair at position `i` of its sightings. -/
def changeAt (pair : RoutePair) (h : List Sighting) (i : ℕ) : UpdateInterval where
  gap := (h.getD i default).step - (h.getD (originBefore h i) default).step
  step := (h.getD i default).step
  source := pair.source
  destination := pair.destination
  nextHop := (h.getD i default).nextHop

/-- The changes of a pair with the given sightings, in order. -/
def changesOf (pair : RoutePair) (h : List Sighting) : List UpdateInterval :=
  (changePositions h).map (changeAt pair h)

/-- The step of the last change, or of the first sighting if there is none. -/
def lastChangeStep (h : List Sighting) : ℕ := (h.getD (originBefore h h.length) default).step

/-- The pair that a change is about. -/
def UpdateInterval.pair (i : UpdateInterval) : RoutePair := ⟨i.source, i.destination⟩

/-- A pair that is never seen does not change. -/
@[simp] lemma changesOf_nil (pair : RoutePair) : changesOf pair [] = [] := rfl

/-- A pair has as many changes as there are positions of changes. -/
@[simp] lemma length_changesOf (pair : RoutePair) (h : List Sighting) :
    (changesOf pair h).length = (changePositions h).length := by
  simp [changesOf]

/-! ## Another sighting -/

/-- Positions of changes lie inside the series. -/
lemma lt_length_of_mem_changePositions {h : List Sighting} {i : ℕ}
    (hi : i ∈ changePositions h) : i < h.length := by
  have := (List.mem_filter.mp hi).1
  simpa using this

/-- The sighting that is added stands at the end. -/
lemma getD_snoc_length (h : List Sighting) (s : Sighting) :
    (h ++ [s]).getD h.length default = s := by
  simp [List.getD_eq_getElem?_getD]

/-- Whether a position holds a change does not depend on later sightings. -/
lemma isChange_append_iff {h : List Sighting} (t : List Sighting) {i : ℕ} (hi : i < h.length) :
    IsChange (h ++ t) i ↔ IsChange h i := by
  have hi' : i < (h ++ t).length := by rw [List.length_append]; omega
  have hpred : i - 1 < h.length := by omega
  simp only [IsChange, List.getD_append h t default i hi, List.getD_append h t default _ hpred,
    hi, hi', true_and]

/-- Another sighting is a change if its next hop is new. -/
lemma isChange_length_iff (h : List Sighting) (s : Sighting) :
    IsChange (h ++ [s]) h.length ↔ ∃ last, h.getLast? = some last ∧ last.nextHop ≠ s.nextHop := by
  rcases List.eq_nil_or_concat h with rfl | ⟨h, last, rfl⟩
  · simp [IsChange]
  · have hlast : ((h ++ [last]) ++ [s]).getD h.length default = last := by
      rw [List.getD_append _ _ _ _ (by simp), getD_snoc_length]
    have hs := getD_snoc_length (h ++ [last]) s
    rw [List.length_append, List.length_singleton] at hs
    simp only [IsChange, List.concat_eq_append, List.length_append, List.length_singleton,
      Nat.add_sub_cancel, hlast, hs]
    simp

/-- What another sighting adds to the positions of changes. -/
lemma changePositions_snoc (h : List Sighting) (s : Sighting) :
    changePositions (h ++ [s]) =
      changePositions h ++ if IsChange (h ++ [s]) h.length then [h.length] else [] := by
  have hold : ∀ i ∈ List.range h.length,
      decide (IsChange (h ++ [s]) i) = decide (IsChange h i) := by
    intro i hi
    rw [decide_eq_decide]
    exact isChange_append_iff [s] (List.mem_range.mp hi)
  rw [changePositions, List.length_append, List.length_singleton, List.range_succ,
    List.filter_append, List.filter_congr hold, ← changePositions]
  by_cases hchange : IsChange (h ++ [s]) h.length <;> simp [hchange]

/-- The origin of a position does not depend on later sightings. -/
lemma originBefore_snoc (h : List Sighting) (s : Sighting) {i : ℕ} (hi : i ≤ h.length) :
    originBefore (h ++ [s]) i = originBefore h i := by
  have hnone : ((if IsChange (h ++ [s]) h.length then [h.length] else []).filter
      fun j => j < i) = [] := by
    split
    · simpa using hi
    · rfl
  rw [originBefore, changePositions_snoc, List.filter_append, hnone, List.append_nil, originBefore]

/-- The origin of a position lies inside the series. -/
lemma originBefore_lt {h : List Sighting} (hne : h ≠ []) (i : ℕ) :
    originBefore h i < h.length := by
  have hpos : 0 < h.length := List.length_pos_iff.mpr hne
  rw [originBefore]
  cases hlast : ((changePositions h).filter fun j => j < i).getLast? with
  | none => simpa using hpos
  | some j =>
    have hj := List.mem_of_getLast? hlast
    exact lt_length_of_mem_changePositions (List.mem_filter.mp hj).1

/-- All changes lie before the end of the series. -/
lemma originBefore_length (h : List Sighting) :
    originBefore h h.length = (changePositions h).getLast?.getD 0 := by
  have hall : ((changePositions h).filter fun j => j < h.length) = changePositions h :=
    List.filter_eq_self.mpr fun j hj => by simpa using lt_length_of_mem_changePositions hj
  rw [originBefore, hall]

/-- **What another sighting adds to the changes of a pair.** -/
lemma changesOf_snoc (pair : RoutePair) (h : List Sighting) (s : Sighting) :
    changesOf pair (h ++ [s]) = changesOf pair h ++
      if IsChange (h ++ [s]) h.length then
        [⟨s.step - lastChangeStep h, s.step, pair.source, pair.destination, s.nextHop⟩]
      else [] := by
  have hold : ∀ i ∈ changePositions h, changeAt pair (h ++ [s]) i = changeAt pair h i := by
    intro i hi
    have hlt := lt_length_of_mem_changePositions hi
    have hne : h ≠ [] := by rintro rfl; simp at hlt
    simp only [changeAt, originBefore_snoc h s (Nat.le_of_lt hlt),
      List.getD_append h [s] default _ hlt,
      List.getD_append h [s] default _ (originBefore_lt hne i)]
  rw [changesOf, changePositions_snoc, List.map_append, List.map_congr_left hold, changesOf]
  congr 1
  split
  · next hchange =>
    have hne : h ≠ [] := by rintro rfl; simp [IsChange] at hchange
    simp only [List.map_singleton, changeAt, getD_snoc_length,
      originBefore_snoc h s (Nat.le_refl _),
      List.getD_append h [s] default _ (originBefore_lt hne h.length), lastChangeStep]
  · rfl

/-- **Where the gap of the next change is measured from** after another sighting. -/
lemma lastChangeStep_snoc (h : List Sighting) (s : Sighting) :
    lastChangeStep (h ++ [s]) =
      if h = [] ∨ IsChange (h ++ [s]) h.length then s.step else lastChangeStep h := by
  rw [lastChangeStep, originBefore_length, changePositions_snoc]
  by_cases hchange : IsChange (h ++ [s]) h.length
  · simp only [hchange, or_true, if_true, List.getLast?_append, List.getLast?_singleton,
      Option.some_or, Option.getD_some, getD_snoc_length]
  · by_cases hne : h = []
    · subst hne
      simp [changePositions, IsChange]
    · simp only [hchange, hne, or_self, if_false, List.append_nil, ← originBefore_length]
      rw [List.getD_append h [s] default _ (originBefore_lt hne _), lastChangeStep]

end Constellation
