import Constellation.Duration
import Constellation.Snapshot.Index
set_option autoImplicit false

/-!
# Where snapshots come from

## Main definitions

* `SnapshotSource` — gives the routes of each step.
* `SnapshotSource.ofDirectory` — reads them from the files of a directory.
* `MemorySnapshots` — keeps them by step.
-/

namespace Constellation

/-- Gives the routes of a step, whose number and time in nanoseconds are known. -/
abbrev SnapshotSource : Type := (step time : Nat) → Except SnapshotFault (List Route)

/-- The snapshots in the files of a directory, which are found by their times. -/
def SnapshotSource.ofDirectory (tree : FileTree) (directory : Path) : SnapshotSource :=
  fun _ time => Snapshot.readAt tree (Snapshot.path directory time)

/-- Snapshots by step, each step at most once. -/
structure MemorySnapshots where
  /-- The steps with their routes. -/
  entries : List (Nat × List Route)
  deriving DecidableEq, Repr

namespace MemorySnapshots

/-- No snapshots. -/
def empty : MemorySnapshots := ⟨[]⟩

/-- The routes kept for a step. -/
def find? (snapshots : MemorySnapshots) (step : Nat) : Option (List Route) :=
  snapshots.entries.lookup step

/-- Keeps a snapshot for a step, in place of an earlier one. -/
def insert (snapshots : MemorySnapshots) (step : Nat) (routes : List Route) : MemorySnapshots :=
  ⟨(step, routes) :: snapshots.entries.filter fun e => e.1 != step⟩

/-- Snapshots for the steps from zero on. -/
def ofList (snapshots : List (List Route)) : MemorySnapshots :=
  ⟨(List.range snapshots.length).zip snapshots⟩

/-- The number of steps that have a snapshot. -/
def size (snapshots : MemorySnapshots) : Nat := snapshots.entries.length

/-- The source of kept snapshots. A step without one is reported under the name that its file
would have. -/
def source (snapshots : MemorySnapshots) : SnapshotSource := fun step time =>
  match snapshots.find? step with
  | some routes => .ok routes
  | none => .error (.missing ⟨Snapshot.fileName time⟩)

end MemorySnapshots

end Constellation
