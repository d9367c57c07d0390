import Constellation.History.Analyzer
import Constellation.Snapshot.Source
set_option autoImplicit false

/-!
# Scanning a series of snapshots

## Main definitions

* `HistoryFault` — why a scan cannot be made.
* `SnapshotSource.load` — the snapshot of a step.
* `SnapshotSource.scan` — the history over the first steps of a source.
* `Snapshot.stepsToScan` — how many steps of what duration a directory holds.

## Design

The time of a step is its number times the step duration, of which 64 bits of nanoseconds are
used. A product of more than 64 bits is a fault of its own.
-/

namespace Constellation

/-- Why a scan cannot be made. -/
inductive HistoryFault
  /-- The snapshot of a step cannot be read. -/
  | snapshot (step : Nat) (fault : SnapshotFault)
  /-- The steps do not ascend. -/
  | outOfOrder (fault : OutOfOrder)
  /-- The snapshots cannot be listed. -/
  | discovery (fault : SnapshotFault)
  /-- Some steps have no snapshot. -/
  | missingSteps (steps : List Nat)
  /-- The time of a step needs more than 64 bits. -/
  | overflow
  deriving DecidableEq

/-- The number of missing steps that a message lists. -/
def listedSteps : Nat := 10

/-- The wording of a fault. -/
def HistoryFault.message : HistoryFault → String
  | snapshot step fault => s!"Snapshot Error at step {step}: {fault.message}"
  | outOfOrder fault =>
    s!"Steps must be processed in increasing order, got step {fault.got} after step {fault.last}"
  | discovery fault => s!"Cannot list the snapshots: {fault.message}"
  | missingSteps steps =>
    let listed := ", ".intercalate ((steps.take listedSteps).map toString)
    s!"{steps.length} snapshots are missing (steps {listed})"
  | overflow => "attempt to multiply with overflow"

namespace SnapshotSource

/-- The time of a step, if it has 64 bits. -/
def timeOf? (step : Nat) (duration : Duration) : Option Nat :=
  let time := step * (duration.nanos % Numeral.longBound)
  if time < Numeral.longBound then some time else none

/-- The snapshot of a step. -/
def load (source : SnapshotSource) (step : Nat) (duration : Duration) :
    Except HistoryFault (List Route) :=
  match timeOf? step duration with
  | none => .error .overflow
  | some time =>
    match source step time with
    | .ok routes => .ok routes
    | .error fault => .error (.snapshot step fault)

/-- Takes the snapshots of `count` steps from `step` on. -/
def scanFrom (source : SnapshotSource) (duration : Duration) :
    (count step : Nat) → Analyzer → Except HistoryFault Analyzer
  | 0, _, a => .ok a
  | count + 1, step, a =>
    match source.load step duration with
    | .error fault => .error fault
    | .ok routes =>
      match a.ingest step routes with
      | .error fault => .error (.outOfOrder fault)
      | .ok a => scanFrom source duration count (step + 1) a

/-- **The history over the first steps of a source**, up to the first snapshot that cannot be
read. -/
def scan (source : SnapshotSource) (watched : List RoutePair) (count : Nat)
    (duration : Duration) : Except HistoryFault History :=
  (source.scanFrom duration count 0 (.new watched)).map fun a => a.finish duration

end SnapshotSource

namespace Snapshot

/-- How many steps of what duration are to be scanned in a directory. What is not given is found
from the names of the snapshots. Unless the number of steps is given, none of them may be
missing. -/
def stepsToScan (tree : FileTree) (directory : Path) (steps : Option Nat)
    (duration : Option Duration) (fallback : Duration) : Except HistoryFault (Nat × Duration) :=
  match steps, duration with
  | some steps, some duration => .ok (steps, duration)
  | _, _ =>
    let given := duration.map fun d => min UpdateInterval.saturation d.nanos
    match discover tree directory given with
    | .error fault => .error (.discovery fault)
    | .ok index =>
      let found := (index.step.map Duration.mk).getD fallback
      match steps with
      | some steps => .ok (steps, found)
      | none =>
        if index.isComplete then .ok (index.stepCount, found)
        else .error (.missingSteps index.missing)

end Snapshot

end Constellation
