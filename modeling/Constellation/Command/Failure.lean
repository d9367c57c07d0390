import Constellation.Experiment.Template
import Constellation.History.Scan
import Constellation.Session.Scheduler
set_option autoImplicit false

/-!
# Failures and their causes

A command that fails says what it could not do and why. The cause may have a cause in turn.

## Main definitions

* `Failure` — a message with its causes.
* `Failure.text` — how it is shown.

## Design

A single cause stands on a line of its own, and several causes are numbered. Further lines of a
cause are indented like its first one.
-/

namespace Constellation

/-- A message with its causes, each the cause of the one before it. -/
structure Failure where
  /-- What went wrong. -/
  message : String
  /-- Why. -/
  causes : List String
  deriving DecidableEq, Repr

namespace Failure

/-- The messages of a failure, from the outermost one to its last cause. -/
def chain (failure : Failure) : List String := failure.message :: failure.causes

/-- A failure as the cause of another one. -/
def within (failure : Failure) (message : String) : Failure := ⟨message, failure.chain⟩

/-- A text whose lines after the first one are indented. -/
def indent (margin : List Char) (text : String) : List Char :=
  text.toList.flatMap fun c => if c = '\n' then c :: margin else [c]

/-- The lines of numbered causes. -/
def numbered : (number : Nat) → List String → List Char
  | _, [] => []
  | number, cause :: causes =>
    let digits := Numeral.digits number
    '\n' :: List.replicate (5 - digits.length) ' ' ++ digits ++ [':', ' '] ++
      indent (List.replicate 7 ' ') cause ++ numbered (number + 1) causes

/-- How a failure is shown. -/
def text (failure : Failure) : String :=
  let margin := List.replicate 4 ' '
  let causes :=
    match failure.causes with
    | [] => []
    | [cause] => "\n\nCaused by:\n".toList ++ margin ++ indent margin cause
    | causes => "\n\nCaused by:".toList ++ numbered 0 causes
  "Error: " ++ failure.message ++ String.ofList causes ++ "\n"

end Failure

/-- A file operation that was refused. -/
def FileFault.failure (fault : FileFault) : Failure := ⟨fault.message, []⟩

/-- A fault of an experiment description with its cause. -/
def ExperimentFault.failure (fault : ExperimentFault) : Failure :=
  match fault with
  | .file cause => ⟨fault.message, [cause.message]⟩
  | .json problem => ⟨fault.message, [problem.message]⟩
  | _ => ⟨fault.message, []⟩

/-- A fault of a template with its cause. -/
def TemplateFault.failure (fault : TemplateFault) : Failure :=
  match fault with
  | .file _ cause => ⟨fault.message, [cause.message]⟩
  | _ => ⟨fault.message, []⟩

/-- A fault of a snapshot with its cause. -/
def SnapshotFault.failure (fault : SnapshotFault) : Failure :=
  match fault with
  | .file _ cause => ⟨fault.message, [cause.message]⟩
  | .table _ cause => ⟨fault.message, [cause.message]⟩
  | _ => ⟨fault.message, []⟩

/-- A fault of a scan with its cause. That snapshots cannot be listed says everything itself. -/
def HistoryFault.failure (fault : HistoryFault) : Failure :=
  match fault with
  | .snapshot _ cause => cause.failure.within fault.message
  | _ => ⟨fault.message, []⟩

/-- A fault of a schedule with its cause. -/
def SchedulerFault.failure (fault : SchedulerFault) : Failure :=
  match fault with
  | .file cause => ⟨fault.message, [cause.message]⟩
  | _ => ⟨fault.message, []⟩

end Constellation
