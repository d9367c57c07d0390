import Constellation.Command.Analyze
import Constellation.Command.Check
import Constellation.Command.Execute
import Constellation.Command.Generate
set_option autoImplicit false

/-!
# The commands by name

## Main definitions

* `Program` — the four commands.
* `Program.outcome` — how a command ends.
-/

namespace Constellation

/-- The four commands. -/
inductive Program
  /-- Generates runs. -/
  | generate
  /-- Executes runs. -/
  | execute
  /-- Analyses snapshots. -/
  | analyze
  /-- Checks a directory of snapshots. -/
  | check
  deriving DecidableEq, Repr

namespace Program

/-- All commands. -/
def all : List Program := [generate, execute, analyze, check]

/-- The name of a command. -/
def name : Program → String
  | generate => "generate_runs"
  | execute => "run_experiments"
  | analyze => "analyze_fstate"
  | check => "check_fstate"

/-- The command with a name. -/
def ofName? (name : String) : Option Program := all.find? fun program => program.name == name

/-- A command with its arguments. -/
def command (program : Program) (surroundings : Surroundings) (arguments : List String) :
    Command Unit :=
  match program with
  | generate => Generate.command arguments
  | execute => Execute.command surroundings arguments
  | analyze => Analyze.command surroundings arguments
  | check => Check.command arguments

/-- How a command ends that starts with some files. -/
def outcome (program : Program) (surroundings : Surroundings) (tree : FileTree)
    (arguments : List String) : Outcome :=
  (program.command surroundings arguments).outcome tree

end Program

end Constellation
