import Constellation.Experiment.Run
set_option autoImplicit false

/-!
# Jobs and their shell lines

A job is a shell command with a directory to run in and a file for what it prints.

## Main definitions

* `Job` — a command and where it stands.
* `shellQuote` — a text as a single argument of a shell.
* `Job.shellLine` — the line that runs a job.
* `JobLayout` — where the simulator is and how it is started for a run.

## Design

A quoted argument stands between single quotes, inside of which a shell takes every character as
it is. A single quote cannot stand there; the argument is closed, a quote is added with a backslash,
and the argument is opened again.
-/

namespace Constellation

/-- How far a job has come. -/
inductive JobState
  /-- It has not been started. -/
  | pending
  /-- It has been started. -/
  | launched
  /-- It has ended. -/
  | completed
  deriving DecidableEq, Repr

/-- The name of a state. -/
def JobState.name : JobState → String
  | pending => "Pending"
  | launched => "Launched"
  | completed => "Completed"

/-- A shell command with a directory to run in and a file for what it prints. -/
structure Job where
  /-- The name. -/
  name : String
  /-- The shell command. -/
  command : String
  /-- The directory that it runs in. -/
  workingDirectory : Path
  /-- The file for what it prints, as seen from that directory. -/
  logPath : Path
  /-- How far it has come. -/
  state : JobState
  deriving DecidableEq, Repr

/-- How one character is written in a quoted argument. -/
def shellEscape (c : Char) : List Char :=
  if c = '\'' then ['\'', '\\', '\'', '\''] else [c]

/-- A text as a single argument of a shell. -/
def shellQuote (text : String) : String :=
  String.ofList ('\'' :: text.toList.flatMap shellEscape ++ ['\''])

namespace Job

/-- A job that has not been started. -/
def new (name command : String) (workingDirectory logPath : Path) : Job :=
  ⟨name, command, workingDirectory, logPath, .pending⟩

/-- The file for what a job prints. -/
def logFile (job : Job) : Path := job.workingDirectory.join job.logPath

/-- The line that runs a job: it goes to the directory, runs the command, and copies all that the
command prints to the file. -/
def shellLine (job : Job) : String :=
  s!"cd {shellQuote job.workingDirectory.text}; {job.command} 2>&1 | tee " ++
    shellQuote job.logPath.text

/-- How jobs are kept. -/
def toJson (job : Job) : Json :=
  .record [("name", .text job.name), ("command", .text job.command),
    ("working_dir", .text job.workingDirectory.text), ("log_path", .text job.logPath.text),
    ("state", .text job.state.name)]

end Job

/-- Where the simulator is and how it is started for a run. -/
structure JobLayout where
  /-- The directory of the simulator, which all jobs run in. -/
  simulatorRoot : Path
  /-- The directory of the experiment, as seen from there. -/
  experimentDirectory : Path
  /-- The command that builds the simulator. -/
  buildCommand : String
  deriving DecidableEq, Repr

namespace JobLayout

/-- The directory for the logs of a run, as seen from the simulator. -/
def logDirectory (layout : JobLayout) (run : Run) : Path :=
  (layout.experimentDirectory.join run.directory).join ⟨"logs_ns3"⟩

/-- The job that builds the simulator. -/
def prepareJob (layout : JobLayout) : Job :=
  .new "compile" layout.buildCommand layout.simulatorRoot
    ((layout.experimentDirectory.join Run.runsDirectory).join ⟨"compile.txt"⟩)

/-- The argument of the build command that starts the program of a run. -/
def runArgument (run : Run) : String :=
  s!"--run=\"{run.client.program} --run_dir='{run.name}'\""

/-- The job for a run. -/
def job (layout : JobLayout) (run : Run) : Job :=
  .new run.name s!"{layout.buildCommand} {runArgument run}" layout.simulatorRoot
    ((layout.logDirectory run).join ⟨"console.txt"⟩)

/-- The jobs for some runs. -/
def jobs (layout : JobLayout) (runs : List Run) : List Job := runs.map layout.job

/-- Makes an empty directory for the logs of a run. -/
def prepareLogDirectory (layout : JobLayout) (run : Run) : Files FileFault Path := do
  let directory := layout.simulatorRoot.join (layout.logDirectory run)
  Files.recreate directory
  pure directory

end JobLayout

end Constellation
