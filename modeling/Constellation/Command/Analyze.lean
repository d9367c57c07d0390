import Constellation.Command.Console
import Constellation.History.Records
set_option autoImplicit false

/-!
# Analysing snapshots

The command reconstructs the changes of next hops from a directory of snapshots, prints the most
notable ones, and writes all of them into tables.

## Main definitions

* `Analyze.command` — the command.
-/

namespace Constellation

namespace Analyze

/-- The duration of a step if there is a single snapshot at time zero. -/
def fallbackStep : Duration := .ofMillis 100

/-- The pair that a text denotes. -/
def pairOf? (text : String) : Option RoutePair := (RoutePair.ofText text.toList).toOption

/-- The arguments of the command. -/
def spec : CommandSpec where
  options := [OptionSpec.require (.path "fstate-dir" (some 'f')), .number "steps" (some 's'),
    .number "step-ns" none,
    ⟨"pair", some 'p', .value fun value => (pairOf? value).isSome, true, false⟩,
    .number "top" (some 't'), .path "output-dir" (some 'o'), .help]
  positionals := 0
  acceptsPositional := fun _ => false

/-- The reason to stop for a fault of a scan. -/
def stopFor (context : Failure → Failure) : HistoryFault → Stop
  | .overflow => .overflow
  | fault => .failure (context fault.failure)

/-- The line of a change. -/
def intervalLine (step : Duration) (i : UpdateInterval) : String :=
  s!"  ({i.gap}, {i.step}, {i.source}, {i.destination}, {i.nextHop}) " ++
    s!"({(i.gapDuration step).text})"

/-- The line of a pair. -/
def countLine (c : ChangeCount) : String := s!"  ({c.source}, {c.destination}, {c.changes})"

/-- What is printed about a history. -/
def summary (top : Nat) (history : History) : List String :=
  "Shortest update intervals (gap, step, src, dst, next hop):" ::
    (history.intervals.take top).map (intervalLine history.step) ++
    "Pairs with the most next-hop changes (src, dst, changes):" ::
    (history.counts.take top).map countLine

/-- The command. -/
def command (surroundings : Surroundings) (arguments : List String) : Command Unit := do
  let given ← spec.arguments arguments
  let tree ← Command.files
  let directory := given.pathOr "fstate-dir" ""
  let (steps, step) ← Command.ofExcept
    (stopFor fun failure =>
      failure.within s!"cannot determine the steps to scan in {Quoted.ofText directory.text}")
    (Snapshot.stepsToScan tree directory (given.number? "steps")
      ((given.number? "step-ns").map Duration.mk) fallbackStep)
  let history ← Command.ofExcept (stopFor id)
    ((SnapshotSource.ofDirectory tree directory).scan
      ((given.values "pair").filterMap pairOf?) steps step)
  Command.printLines (summary ((given.number? "top").getD 10) history)
  let output := given.pathOr "output-dir" s!"fstate_analysis_{surroundings.stamp}"
  let _ ← Command.onFiles
    (fun (fault : FileFault) => .failure
      (fault.failure.within s!"cannot write the results to {Quoted.ofText output.text}"))
    (history.write output)

end Analyze

end Constellation
