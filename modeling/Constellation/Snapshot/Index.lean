import Constellation.FileTree.Search
import Constellation.Snapshot.Fault
import Constellation.Snapshot.Name
set_option autoImplicit false

/-!
# The index of a snapshot directory

Snapshots are taken in steps of equal duration. The index of a directory tells which steps it has
a snapshot for, and which ones are missing.

## Main definitions

* `Snapshot.Index` — the times, the step and the missing steps.
* `Snapshot.commonDivisor` — the greatest common divisor of times, by Euclid's loop.
* `Snapshot.missingSteps` — the steps that have no snapshot.
* `Snapshot.Index.ofTimes` — the index of a set of times.
* `Snapshot.discover` — the index of a directory.

## Main results

* `Snapshot.mem_sortedTimes` — sorting neither adds times nor drops any.

## Design

Without a given step duration, the greatest common divisor of all times is taken. It is zero only
if there is no time but zero, and then there is no step. The missing steps are found by counting up
to the last step beside the steps of the sorted times: as long as these have no repetitions, the
first one that has not been passed is never less than the step that is counted.
-/

namespace Constellation

namespace Snapshot

/-- What snapshots a directory has. -/
structure Index where
  /-- The directory. -/
  directory : Path
  /-- The times in nanoseconds, ascending. -/
  times : List Nat
  /-- The step duration in nanoseconds, unless there is only a snapshot at time zero. -/
  step : Option Nat
  /-- The steps up to the last one that have no snapshot, ascending. -/
  missing : List Nat
  deriving DecidableEq, Repr

/-- An ascending list without repetitions. -/
def dropRepeats : List Nat → List Nat
  | [] => []
  | [a] => [a]
  | a :: b :: rest => if a = b then dropRepeats (b :: rest) else a :: dropRepeats (b :: rest)

/-- Times in ascending order, each once. -/
def sortedTimes (times : List Nat) : List Nat :=
  dropRepeats (times.mergeSort fun a b => decide (a ≤ b))

/-- The greatest common divisor of two numbers, by Euclid's loop. -/
def euclid (a b : Nat) : Nat := if b = 0 then a else euclid b (a % b)
termination_by b
decreasing_by exact Nat.mod_lt a (by omega)

/-- The greatest common divisor of times. -/
def commonDivisor (times : List Nat) : Nat := times.foldl euclid 0

/-- Whether a step is missing. It is there if it is the first one of those that are still to come,
and then it is passed. -/
def isMissing (step : Nat) : StateM (List Nat) Bool := do
  let present ← get
  if present.head? = some step then
    set present.tail
    return false
  else
    return true

/-- The steps up to that of the last time that none of the ascending times belongs to. -/
def missingSteps (step : Nat) (times : List Nat) : List Nat :=
  let lastStep := times.getLast?.getD 0 / step
  (Id.run (((List.range (lastStep + 1)).filterM isMissing).run (times.map (· / step)))).1

/-- The step duration: the given one if it is positive, else one that fits all times. -/
def effectiveStep (given : Option Nat) (times : List Nat) : Option Nat :=
  match given with
  | some (step + 1) => some (step + 1)
  | _ => if commonDivisor times = 0 then none else some (commonDivisor times)

/-- The index of ascending times. -/
def Index.ofTimes (directory : Path) (given : Option Nat) (times : List Nat) :
    Except SnapshotFault Index :=
  match effectiveStep given times with
  | none => .ok ⟨directory, times, none, []⟩
  | some step =>
    match times.find? fun time => time % step != 0 with
    | some time => .error (.irregular time step)
    | none => .ok ⟨directory, times, some step, missingSteps step times⟩

/-- The number of steps up to the last snapshot. -/
def Index.stepCount (index : Index) : Nat :=
  match index.step, index.times.getLast? with
  | some step, some last => last / step + 1
  | _, _ => index.times.length

/-- Whether there is a snapshot for every step up to the last one. -/
def Index.isComplete (index : Index) : Bool := index.missing.isEmpty

/-- The times of the snapshots in a directory, ascending. -/
def timesIn (tree : FileTree) (directory : Path) : Except SnapshotFault (List Nat) :=
  match tree.namesIn directory with
  | .ok names => .ok (sortedTimes (names.filterMap fun name => timeOf? name.toList))
  | .error fault => .error (.unlistable fault.path fault.cause)

/-- **The index of a directory**, checked against a step duration if one is given. -/
def discover (tree : FileTree) (directory : Path) (given : Option Nat) :
    Except SnapshotFault Index := do
  let times ← timesIn tree directory
  if times.isEmpty then throw (.empty directory)
  Index.ofTimes directory given times

/-- The index of a directory whose path is given by bytes. -/
def discoverAt (tree : FileTree) (directory : ByteArray) (given : Option Nat) :
    Except SnapshotFault Index :=
  match String.fromUTF8? directory with
  | some text => discover tree ⟨text⟩ given
  | none => .error (.invalidPath (Symbol.ofBytes directory))

/-- Dropping repetitions neither adds numbers nor loses any. -/
theorem mem_dropRepeats {n : Nat} : ∀ {l : List Nat}, n ∈ dropRepeats l ↔ n ∈ l
  | [] => by simp [dropRepeats]
  | [a] => by simp [dropRepeats]
  | a :: b :: rest => by
    rw [dropRepeats]
    split
    · rename_i h
      rw [mem_dropRepeats (l := b :: rest)]
      simp [h]
    · rw [List.mem_cons, mem_dropRepeats (l := b :: rest)]
      simp

/-- Sorting neither adds times nor drops any. -/
theorem mem_sortedTimes {n : Nat} {times : List Nat} : n ∈ sortedTimes times ↔ n ∈ times := by
  rw [sortedTimes, mem_dropRepeats, List.mem_mergeSort]

end Snapshot

end Constellation
