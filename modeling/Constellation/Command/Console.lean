import Constellation.Command.Arguments
import Constellation.Command.Failure
import Constellation.Session.Screen
import Constellation.Text.Lines
set_option autoImplicit false

/-!
# What commands run in

## Main definitions

* `Console` — the files, the output and the requests of a command.
* `Command` — a computation on a console that may stop.
* `Command.start` — the console that a command starts with.
* `Outcome` — how a command ends.
* `LogRule` — which messages to the log are shown.

## Design

The outcome of a command is a function of its arguments, the files, the program that keeps
sessions as it answers over time, and a time stamp. Messages to the log are shown among the output
of the command, if a file asks for it.
-/

namespace Constellation

/-- Why a command stops early. -/
inductive Stop
  /-- Its arguments are not those of the command. -/
  | usage
  /-- A text about the command was asked for. -/
  | inform
  /-- Something went wrong, and is told. -/
  | failure (failure : Failure)
  /-- The answer is no, and has been told. -/
  | refused
  /-- A number exceeds its range. -/
  | overflow
  /-- Someone has interrupted it. -/
  | interrupted
  deriving DecidableEq, Repr

/-- The code with which a command ends that stops early. -/
def Stop.code : Stop → Nat
  | usage => 2
  | inform => 0
  | failure _ => 1
  | refused => 1
  | overflow => 101
  | interrupted => 130

/-- The files and the output of a command, and what it has asked the program that keeps sessions. -/
structure Console extends Screen.Calls where
  /-- The files. -/
  tree : FileTree
  /-- What has been printed. -/
  printed : String
  /-- What has been printed about faults. -/
  warned : String

/-- A computation on a console that may stop. -/
abbrev Command : Type → Type := ExceptT Stop (StateM Console)

/-- What lies outside of a command. -/
structure Surroundings where
  /-- The program that keeps sessions. -/
  screen : Screen.Course
  /-- The time as it becomes part of a file name. -/
  stamp : String

/-- How a command ends. -/
structure Outcome where
  /-- The code. -/
  code : Nat
  /-- The console. -/
  console : Console

namespace Command

variable {ε α : Type}

/-- Stops with a failure. -/
def fail (failure : Failure) : Command α := throw (.failure failure)

/-- Prints a text. -/
def print (text : String) : Command Unit :=
  modify fun console => { console with printed := console.printed ++ text }

/-- Prints a text and a line break. -/
def printLine (text : String) : Command Unit := print (text ++ "\n")

/-- Prints lines. -/
def printLines : List String → Command Unit
  | [] => pure ()
  | line :: rest => do
    printLine line
    printLines rest

/-- Prints a text about faults and a line break. -/
def warnLine (text : String) : Command Unit :=
  modify fun console => { console with warned := console.warned ++ text ++ "\n" }

/-- A value, or a reason to stop. -/
def ofExcept (stop : ε → Stop) : Except ε α → Command α
  | .ok a => pure a
  | .error fault => throw (stop fault)

/-- A computation on the files. -/
def onFiles (stop : ε → Stop) (action : Files ε α) : Command α := do
  let console ← get
  let (result, tree) := action.run console.tree
  set { console with tree }
  ofExcept stop result

/-- The current files. -/
def files : Command FileTree := do return (← get).tree

/-- The console that a command starts with. -/
def start (tree : FileTree) : Console where
  requests := 0
  launched := []
  tree := tree
  printed := ""
  warned := ""

/-- How a command ends that starts with some files. -/
def outcome (command : Command Unit) (tree : FileTree) : Outcome :=
  let (result, console) := command.run (start tree)
  match result with
  | .ok () => ⟨0, console⟩
  | .error (.failure failure) =>
    ⟨1, { console with warned := console.warned ++ failure.text }⟩
  | .error stop => ⟨stop.code, console⟩

end Command

/-- The reason to stop for a fault with a failure that tells it. -/
def Failure.stop (failure : Failure) : Stop := .failure failure

/-- The reason to stop for a fault of an experiment description. -/
def ExperimentFault.stop (context : String) (fault : ExperimentFault) : Stop :=
  match fault with
  | .overflow => .overflow
  | _ => .failure (fault.failure.within context)

/-- Which messages to the log are shown: those of one logger from some level on. -/
structure LogRule where
  /-- The name of the logger. -/
  logger : String
  /-- The least level. -/
  level : Level
  deriving DecidableEq, Repr

namespace LogRule

/-- The file that says what is shown. -/
def file : Path := ⟨"log4rs.yml"⟩

/-- The level with a name. -/
def levelOf? (name : String) : Option Level :=
  [("trace", Level.trace), ("debug", .debug), ("info", .info), ("warn", .warn),
    ("error", .error)].lookup name

/-- The value after a key in a line, if the line has that key. -/
def valueAfter? (key : String) (line : String) : Option String :=
  let start := key.toList ++ [':']
  let text := line.toList.dropWhile (· == ' ')
  if start.isPrefixOf text then
    some (String.ofList ((text.drop start.length).dropWhile (· == ' ')))
  else none

/-- The key of a line without a value. -/
def keyOf (line : String) : String :=
  let text := line.toList.dropWhile (· == ' ')
  String.ofList (text.reverse.dropWhile (fun c => c == ' ' || c == ':')).reverse

/-- Reads what is shown from the lines after the list of loggers begins. -/
def ofLines : List String → Option LogRule
  | first :: second :: rest =>
    if first == "loggers:" then
      match rest.head?.bind (valueAfter? "level") |>.bind levelOf? with
      | some level => some ⟨keyOf second, level⟩
      | none => none
    else ofLines (second :: rest)
  | _ => none

/-- What is shown, if there is a file that says so. -/
def ofTree (tree : FileTree) : Option LogRule :=
  match ((Files.readText file).run tree).1 with
  | .ok text => ofLines ((lines text.toList).map String.ofList)
  | .error _ => none

/-- How a message is shown. -/
def lineOf (notice : Notice) : String := notice.level.name ++ " " ++ notice.message

/-- Whether a message of a logger is shown. -/
def shows (rule : LogRule) (logger : String) (notice : Notice) : Bool :=
  rule.logger == logger && rule.level.rank ≤ notice.level.rank

end LogRule

/-- Shows messages of a logger, as far as the files ask for it. -/
def Command.tell (rule : Option LogRule) (logger : String) : List Notice → Command Unit
  | [] => pure ()
  | notice :: notices => do
    match rule with
    | some rule =>
      if rule.shows logger notice then Command.printLine (LogRule.lineOf notice)
    | none => pure ()
    tell rule logger notices

/-- The value of an argument that is a number. -/
def numberOf (text : String) : Option Nat :=
  match Numeral.read Numeral.longBound text.toList with
  | .ok n => some n
  | .error _ => none

namespace OptionSpec

/-- An option whose value is a path. -/
def path (long : String) (short : Option Char) : OptionSpec :=
  ⟨long, short, .value fun value => !value.isEmpty, false, false⟩

/-- An option whose value is a number. -/
def number (long : String) (short : Option Char) : OptionSpec :=
  ⟨long, short, .value fun value => (numberOf value).isSome, false, false⟩

/-- An option whose value is any text. -/
def text (long : String) (short : Option Char) : OptionSpec :=
  ⟨long, short, .value fun _ => true, false, false⟩

/-- An option that shows a text about the command. -/
def inform (long : String) (short : Char) : OptionSpec :=
  ⟨long, some short, .inform, true, false⟩

/-- The option that shows how a command is used. -/
def help : OptionSpec := inform "help" 'h'

/-- The same option, which has to be given. -/
def require (option : OptionSpec) : OptionSpec := { option with required := true }

end OptionSpec

namespace Arguments

/-- The path given by an option, or another one. -/
def pathOr (given : Arguments) (long other : String) : Path := ⟨(given.value? long).getD other⟩

/-- The number given by an option. -/
def number? (given : Arguments) (long : String) : Option Nat := (given.value? long).bind numberOf

end Arguments

/-- The arguments of a command, unless they are not those that it knows. -/
def CommandSpec.arguments (spec : CommandSpec) (given : List String) : Command Arguments :=
  Command.ofExcept (fun
    | .usage => .usage
    | .inform => .inform) (spec.read given)

/-- The description of the experiment in the file given by an option, or the standard one. -/
def Experiment.ofArguments (given : Arguments) : Command Experiment :=
  match given.value? "config" with
  | none => pure Experiment.standard
  | some text =>
    Command.onFiles (ExperimentFault.stop s!"cannot load the configuration {Quoted.ofText text}")
      (Experiment.load ⟨text⟩)

/-- The runs of an experiment. -/
def Experiment.runsOrStop (e : Experiment) : Command (List Run) :=
  Command.ofExcept (ExperimentFault.stop "invalid experiment configuration") e.runs

end Constellation
