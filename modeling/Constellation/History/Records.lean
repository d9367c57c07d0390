import Constellation.Binary64.Layout
import Constellation.FileTree.Files
import Constellation.History.Analyzer
set_option autoImplicit false

/-!
# Histories in files

A history is written as two tables: the changes with their gaps, and the pairs ranked by the
number of their changes.

## Main definitions

* `IntervalRecord`, `CountRecord` — the rows of the two tables.
* `History.write` — writes both tables into a directory.

## Design

The names of the columns are written together with the first row, so a table without rows is an
empty file.
-/

namespace Constellation

/-- In a table doubles are positional from `0.00001` up to sixteen digits before the point, and a
positive exponent has no sign. -/
def tableLayout : Binary64.Layout := ⟨-5, 16, false, .even⟩

/-- A row of the table of changes. -/
structure IntervalRecord where
  /-- The gap in steps. -/
  gapSteps : Nat
  /-- The gap in seconds. -/
  gap : Float
  /-- The step of the change. -/
  step : Nat
  /-- The time of the change in seconds. -/
  time : Float
  /-- The source of the pair. -/
  source : NodeId
  /-- The destination of the pair. -/
  destination : NodeId
  /-- The new next hop. -/
  nextHop : NodeId

namespace IntervalRecord

/-- The row of a change, for steps of some duration. -/
def ofInterval (duration : Duration) (interval : UpdateInterval) : IntervalRecord where
  gapSteps := interval.gap
  gap := interval.gap.toUInt64.toFloat * duration.seconds
  step := interval.step
  time := interval.step.toUInt64.toFloat * duration.seconds
  source := interval.source
  destination := interval.destination
  nextHop := interval.nextHop

/-- The names of the columns. -/
def header : String := Csv.line ["gap_steps", "gap", "step", "time", "src", "dst", "next_hop"]

/-- The text of a row. -/
def line (r : IntervalRecord) : String :=
  Csv.line [toString r.gapSteps, Binary64.write tableLayout r.gap, toString r.step,
    Binary64.write tableLayout r.time, toString r.source, toString r.destination,
    toString r.nextHop]

end IntervalRecord

/-- A row of the table of pairs. -/
structure CountRecord where
  /-- The place in the ranking, from one. -/
  rank : Nat
  /-- The source of the pair. -/
  source : NodeId
  /-- The destination of the pair. -/
  destination : NodeId
  /-- The number of its changes. -/
  changes : Nat
  deriving DecidableEq, Repr

namespace CountRecord

/-- The row of a pair at a place in the ranking. -/
def ofCount (rank : Nat) (count : ChangeCount) : CountRecord :=
  ⟨rank, count.source, count.destination, count.changes⟩

/-- The rows of pairs whose ranks start with the given one. -/
def ranked : (rank : Nat) → List ChangeCount → List CountRecord
  | _, [] => []
  | rank, count :: counts => ofCount rank count :: ranked (rank + 1) counts

/-- The names of the columns. -/
def header : String := Csv.line ["rank", "src", "dst", "changes"]

/-- The text of a row. -/
def line (r : CountRecord) : String :=
  Csv.line [toString r.rank, toString r.source, toString r.destination, toString r.changes]

end CountRecord

/-- A table: the names of the columns, if there is any row, and the rows. -/
def tableText (header : String) (rows : List String) : String :=
  if rows.isEmpty then "" else header ++ String.join rows

namespace History

/-- The rows of the table of changes. -/
def intervalRecords (history : History) : List IntervalRecord :=
  history.intervals.map (IntervalRecord.ofInterval history.step)

/-- The rows of the table of pairs. -/
def countRecords (history : History) : List CountRecord := CountRecord.ranked 1 history.counts

/-- The table of changes. -/
def intervalTable (history : History) : String :=
  tableText IntervalRecord.header (history.intervalRecords.map (·.line))

/-- The table of pairs. -/
def countTable (history : History) : String :=
  tableText CountRecord.header (history.countRecords.map (·.line))

/-- The name of the file with the changes. -/
def intervalFile : Path := ⟨"update_intervals.csv"⟩

/-- The name of the file with the pairs. -/
def countFile : Path := ⟨"change_counts.csv"⟩

/-- Writes both tables into a directory, which is made if it is missing. The paths of the two files
are returned. -/
def write (history : History) (directory : Path) : Files FileFault (Path × Path) := do
  Files.makeAll directory
  let intervals := directory.join intervalFile
  Files.write intervals history.intervalTable
  let counts := directory.join countFile
  Files.write counts history.countTable
  pure (intervals, counts)

end History

end Constellation
