import Constellation.Experiment.Axes
import Constellation.FileTree.Files
set_option autoImplicit false

/-!
# Faults of an experiment description

## Main definitions

* `ExperimentFault` — why a description cannot be read, or gives no runs.
* `ExperimentFault.message` — its wording.
-/

namespace Constellation

/-- Why the description of an experiment cannot be read, or gives no runs. -/
inductive ExperimentFault
  /-- Its file cannot be read or written. -/
  | file (fault : FileFault)
  /-- Its file does not say what it should. -/
  | json (problem : Json.Problem)
  /-- A topology has no network for an algorithm. -/
  | missingNetwork (topology : String) (algorithm : Algorithm)
  /-- A text denotes no number from zero to one. -/
  | invalidLossRatio (label : String)
  /-- A text cannot become part of the name of a run. -/
  | unsafeName (name : String)
  /-- A time in nanoseconds needs more than 64 bits. -/
  | overflow

/-- The wording of a fault. -/
def ExperimentFault.message : ExperimentFault → String
  | file fault => "IO Error: " ++ fault.message
  | json problem => "Json Error: " ++ problem.message
  | missingNetwork topology algorithm =>
    s!"Topology {topology} has no satellite network for the {algorithm.name} algorithm"
  | invalidLossRatio label =>
    s!"Invalid loss ratio {Quoted.ofText label}: must be a number in [0, 1]"
  | unsafeName name => s!"{Quoted.ofText name} cannot be used as part of a run name"
  | overflow => "attempt to multiply with overflow"

end Constellation
