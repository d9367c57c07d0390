import Constellation.Command.Console
set_option autoImplicit false

/-!
# Executing runs

The command builds the simulator and runs all chosen runs of an experiment in sessions of their
own.

## Main definitions

* `Execute.command` — the command.

## Design

No directory for logs is touched if sessions of someone else are active at the beginning. The
schedule looks for them once more when the directories have been prepared.

A schedule waits for its sessions as long as they take. How often it does so before someone
interrupts it is given from outside, and so is a bound on its requests. What the sessions write
while they run is their own: the files of the command are those that it reads and writes itself.
-/

namespace Constellation

namespace Execute

/-- The arguments of the command. -/
def spec : CommandSpec where
  options := [.path "config" (some 'c'), .path "simulator-root" (some 's'),
    .path "experiment-dir" (some 'e'), .number "max-parallel" (some 'j'),
    .number "poll-interval" none, .number "launch-delay" none, .text "filter" (some 'f'),
    .text "filter-end" none, .text "build-command" none, .help]
  positionals := 0
  acceptsPositional := fun _ => false

/-- The logger of schedules. -/
def logger : String := "satexp::scheduler"

/-- The layout that the arguments describe. -/
def layoutOf (given : Arguments) : JobLayout where
  simulatorRoot := given.pathOr "simulator-root" "../../"
  experimentDirectory := given.pathOr "experiment-dir" "experiments/a_b"
  buildCommand := (given.value? "build-command").getD "./waf"

/-- The bounds and pauses that the arguments describe. -/
def configOf (given : Arguments) : SchedulerConfig :=
  let standard := SchedulerConfig.standard
  { maxParallel := (given.number? "max-parallel").getD standard.maxParallel
    pollInterval := .ofParts ((given.number? "poll-interval").getD 2) 0
    preparePollInterval := standard.preparePollInterval
    launchDelay := .ofParts ((given.number? "launch-delay").getD 10) 0 }

/-- The choice of runs that the arguments describe. -/
def filterOf (given : Arguments) : Run.Filter :=
  ⟨(given.value? "filter").getD "", (given.value? "filter-end").getD ""⟩

/-- Stops for a fault of a schedule. Sessions of someone else are no failure of the command. -/
def stopFor {α : Type} : SchedulerFault → Command α
  | .staleSessions count => do
    Command.printLine (SchedulerFault.staleSessions count).message
    throw .refused
  | fault => Command.fail fault.failure

/-- A value, or a fault of a schedule to stop for. -/
def settle {α : Type} : Except SchedulerFault α → Command α
  | .ok a => pure a
  | .error fault => stopFor fault

/-- Makes the directories for the logs of runs. -/
def prepareLogs (layout : JobLayout) : List Run → Command Unit
  | [] => pure ()
  | run :: runs => do
    let _ ← Command.onFiles
      (fun (fault : FileFault) => .failure
        (fault.failure.within s!"cannot prepare the log directory of {run.name}"))
      (layout.prepareLogDirectory run)
    prepareLogs layout runs

/-- Stops if sessions are active. -/
def refuseStale (screen : Screen.Course) : Command Unit := do
  let console ← get
  let (count, calls) := screen.runner.count console.toCalls
  set { console with toCalls := calls }
  settle (checkStale count)

/-- The number of requests that suffice for some jobs: three for each job and four others, and two
for each time that sessions are waited for. -/
def requestBound (jobs : List Job) (patience : Nat) : Nat := 3 * jobs.length + 4 + 2 * patience

/-- How the command goes on after a schedule, unless this has been interrupted. -/
def conclude : Option (Except SchedulerFault SchedulerReport) → Command SchedulerReport
  | some outcome => settle outcome
  | none => throw .interrupted

/-- Runs a schedule and tells the log about it. -/
def runSchedule (screen : Screen.Course) (rule : Option LogRule) (schedule : Scheduler) :
    Command SchedulerReport := do
  let console ← get
  let (schedule, calls, told) := Scheduler.drive screen.runner
    (requestBound schedule.jobs screen.patience) schedule console.toCalls []
  set { console with toCalls := calls }
  Command.tell rule logger told.reverse
  conclude schedule.outcome?

/-- The command. -/
def command (surroundings : Surroundings) (arguments : List String) : Command Unit := do
  let rule := LogRule.ofTree (← Command.files)
  let given ← spec.arguments arguments
  let experiment ← Experiment.ofArguments given
  let runs := (← experiment.runsOrStop).filter (filterOf given).accepts
  let layout := layoutOf given
  let directory :=
    (layout.simulatorRoot.join layout.experimentDirectory).join Run.runsDirectory
  Command.onFiles
    (fun (fault : FileFault) => .failure
      (fault.failure.within s!"cannot create {Quoted.ofText directory.text}"))
    (Files.makeAll directory)
  refuseStale surroundings.screen
  prepareLogs layout runs
  let report ← runSchedule surroundings.screen rule
    (.new (configOf given) layout.prepareJob (layout.jobs runs))
  let path := directory.stamped "scheduler_report_\x7b\x7d.json" surroundings.stamp
  Command.onFiles
    (fun (fault : FileFault) => .failure
      (fault.failure.within s!"cannot write {Quoted.ofText path.text}"))
    (Files.write path report.toJson.pretty)

end Execute

end Constellation
