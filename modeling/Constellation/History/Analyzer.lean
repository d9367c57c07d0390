import Std.Data.HashMap
import Constellation.Duration
import Constellation.Lexicographic
import Constellation.Snapshot.Route
set_option autoImplicit false

/-!
# The history of next hops

The analyzer goes through the snapshots of a network in the order of time and records, for each
pair of a source and a destination, when its next hop changes.

## Main definitions

* `Analyzer` — what is known after some snapshots.
* `Analyzer.ingest` — takes one more snapshot.
* `Analyzer.finish` — the history that has been recorded.
* `UpdateInterval`, `ChangeCount`, `History` — the parts of the history.

## Main results

* `Analyzer.ingest_of_le` — a snapshot that is not later than the last one is refused.

## Design

Only the present state of each pair is kept: its next hop, the step of its last change, and the
number of its changes. A pair gets a number when it is first observed, which is no change, and its
state is kept under that number. A pair that a snapshot leaves out keeps its next hop.

A change comes with its gap, the number of steps since the previous change of the pair or since its
first observation. Gaps are recorded for the watched pairs, or for all if none are named.
-/

namespace Constellation

/-- A change of the next hop of a pair. -/
structure UpdateInterval where
  /-- The number of steps since the previous change or the first observation. -/
  gap : Nat
  /-- The step of the change. -/
  step : Nat
  /-- The source of the pair. -/
  source : NodeId
  /-- The destination of the pair. -/
  destination : NodeId
  /-- The new next hop. -/
  nextHop : NodeId
  deriving DecidableEq, Repr

namespace UpdateInterval

/-- What intervals are ordered by: gap, step, source, destination and next hop. -/
def key (interval : UpdateInterval) : List Nat :=
  [interval.gap, interval.step, interval.source.toNat, interval.destination.toNat,
    interval.nextHop.toNat]

/-- The greatest number of 64 bits. -/
def saturation : Nat := Numeral.longBound - 1

/-- The gap as a duration, of which neither the step nor the product exceeds 64 bits of
nanoseconds. -/
def gapDuration (interval : UpdateInterval) (step : Duration) : Duration :=
  ⟨min saturation (min saturation step.nanos * min saturation interval.gap)⟩

end UpdateInterval

/-- The number of changes of a pair. -/
structure ChangeCount where
  /-- The source of the pair. -/
  source : NodeId
  /-- The destination of the pair. -/
  destination : NodeId
  /-- The number of its changes. -/
  changes : Nat
  deriving DecidableEq, Repr

namespace ChangeCount

/-- Whether a count comes before another one: more changes first, then by source and
destination. -/
def before (a b : ChangeCount) : Bool :=
  if a.changes = b.changes then
    lexicographic [a.source.toNat, a.destination.toNat] [b.source.toNat, b.destination.toNat]
  else decide (b.changes < a.changes)

end ChangeCount

/-- What has been recorded over some snapshots. -/
structure History where
  /-- The changes of the watched pairs, ascending. -/
  intervals : List UpdateInterval
  /-- All observed pairs, those with the most changes first. -/
  counts : List ChangeCount
  /-- The number of snapshots. -/
  snapshots : Nat
  /-- The duration of a step. -/
  step : Duration
  deriving DecidableEq, Repr

/-- The number of changes of a pair, if it has been observed. -/
def History.changesOf? (history : History) (pair : RoutePair) : Option Nat :=
  (history.counts.find? fun c => c.source == pair.source && c.destination == pair.destination).map
    (·.changes)

/-- The present state of a pair. -/
structure Track where
  /-- The pair. -/
  pair : RoutePair
  /-- Its next hop. -/
  nextHop : NodeId
  /-- The step of its last change, or of its first observation. -/
  lastChange : Nat
  /-- The number of its changes. -/
  changes : Nat
  /-- Whether its changes are recorded one by one. -/
  watched : Bool
  deriving DecidableEq, Repr, Inhabited

namespace Track

/-- The change that another observation of the pair makes. -/
def changeAt (track : Track) (step : Nat) (route : Route) : UpdateInterval :=
  ⟨step - track.lastChange, step, route.source, route.destination, route.nextHop⟩

/-- The state after that change. -/
def change (track : Track) (step : Nat) (route : Route) : Track :=
  { track with nextHop := route.nextHop, lastChange := step, changes := track.changes + 1 }

end Track

/-- Why a snapshot is refused: it is not later than the last one. -/
structure OutOfOrder where
  /-- The step of the last snapshot. -/
  last : Nat
  /-- The step of the refused snapshot. -/
  got : Nat
  deriving DecidableEq, Repr

/-- What is known after some snapshots. -/
structure Analyzer where
  /-- The pairs whose changes are recorded one by one; no pairs stand for all. -/
  watched : List RoutePair
  /-- The number of each observed pair. -/
  index : Std.HashMap RoutePair Nat
  /-- The state of each pair under its number. -/
  tracks : Array Track
  /-- The recorded changes in the order in which they were found. -/
  intervals : Array UpdateInterval
  /-- The step of the last snapshot. -/
  lastStep : Option Nat
  /-- The number of snapshots. -/
  snapshots : Nat

namespace Analyzer

/-- The analyzer before any snapshot. -/
def new (watched : List RoutePair) : Analyzer where
  watched := watched
  index := ∅
  tracks := #[]
  intervals := #[]
  lastStep := none
  snapshots := 0

/-- Whether the changes of a pair are recorded one by one. -/
def watches (a : Analyzer) (pair : RoutePair) : Bool :=
  a.watched.isEmpty || a.watched.contains pair

/-- The number of observed pairs. -/
def pairCount (a : Analyzer) : Nat := a.tracks.size

/-- Takes the first observation of a pair. -/
def discover (a : Analyzer) (step : Nat) (route : Route) : Analyzer :=
  { a with
    index := a.index.insert route.pair a.tracks.size
    tracks := a.tracks.push ⟨route.pair, route.nextHop, step, 0, a.watches route.pair⟩ }

/-- Takes another observation of the pair with number `id`. -/
def update (a : Analyzer) (step : Nat) (route : Route) (id : Nat) (track : Track) : Analyzer :=
  if track.nextHop = route.nextHop then a
  else
    { a with
      tracks := a.tracks.set! id (track.change step route)
      intervals :=
        if track.watched then a.intervals.push (track.changeAt step route) else a.intervals }

/-- Takes one observation. -/
def observe (a : Analyzer) (step : Nat) (route : Route) : Analyzer :=
  match a.index[route.pair]? with
  | none => a.discover step route
  | some id => a.update step route id (a.tracks.getD id default)

/-- Takes one more snapshot. It has to be later than the last one; otherwise nothing changes. -/
def ingest (a : Analyzer) (step : Nat) (routes : List Route) : Except OutOfOrder Analyzer :=
  match a.lastStep with
  | some last =>
    if step ≤ last then .error ⟨last, step⟩ else .ok (take a)
  | none => .ok (take a)
where
  /-- Takes all observations of the snapshot. -/
  take (a : Analyzer) : Analyzer :=
    { routes.foldl (fun a route => a.observe step route) a with
      lastStep := some step
      snapshots := a.snapshots + 1 }

/-- The number of changes of each pair in the order of their first observations. -/
def counts (a : Analyzer) : List ChangeCount :=
  a.tracks.toList.map fun track => ⟨track.pair.source, track.pair.destination, track.changes⟩

/-- The history that has been recorded. -/
def finish (a : Analyzer) (step : Duration) : History where
  intervals := a.intervals.toList.mergeSort fun i j => lexicographic i.key j.key
  counts := a.counts.mergeSort ChangeCount.before
  snapshots := a.snapshots
  step := step

/-- A snapshot that is not later than the last one is refused. -/
theorem ingest_of_le {a : Analyzer} {last step : Nat} {routes : List Route}
    (hlast : a.lastStep = some last) (h : step ≤ last) :
    a.ingest step routes = .error ⟨last, step⟩ := by
  simp [ingest, hlast, h]

end Analyzer

end Constellation
