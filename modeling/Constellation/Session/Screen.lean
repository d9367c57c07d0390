import Constellation.Session.Listing
import Constellation.Session.Scheduler
import Constellation.Text.Symbol
set_option autoImplicit false

/-!
# Sessions of a terminal multiplexer

Jobs are run in detached sessions of a program that keeps terminals. The program is asked for a
listing to count sessions, and is given a shell line to start one.

## Main definitions

* `Screen` — how the program answers at one moment.
* `Screen.Course` — how it answers over time.
* `Screen.runner`, `Screen.Course.runner` — the environments that they make for schedules.

## Design

The program is known by its answers alone: what it lists, and how it ends when it is asked to start
a session. How it ends after a listing does not matter, since it also fails when there is nothing
to list.

Sessions begin and end by themselves, so each request may be answered in another way than the one
before. A course gives the answers by the number of the request. No answer depends on what has been
asked, but whatever a program does, what it has answered in the end is part of a course.
-/

namespace Constellation

/-- How a program ends. -/
inductive ExitStatus
  /-- With a code. -/
  | code (n : Nat)
  /-- By a signal that cannot be caught. -/
  | killed
  deriving DecidableEq, Repr

namespace ExitStatus

/-- The status of a program that ends with a number, of which the system keeps eight bits. -/
def ofNumber (n : Int) : ExitStatus := code (n % 256).toNat

/-- Whether a program has succeeded. -/
def isSuccess (status : ExitStatus) : Bool := status == code 0

/-- How a status is described. -/
def describe : ExitStatus → String
  | code n => s!"exit status: {n}"
  | killed => "signal: 9 (SIGKILL)"

end ExitStatus

/-- The program that keeps sessions, as far as its answers at one moment go. -/
structure Screen where
  /-- The name under which it is started. -/
  program : String
  /-- Its listing and how it ends after a launch, if there is such a program. -/
  answers : Option (ByteArray × ExitStatus)

namespace Screen

/-- The arguments that start a job in a detached session. -/
def launchArguments (job : Job) : List String := ["-d", "-m", "bash", "-c", job.shellLine]

/-- The number of active sessions. -/
def count (screen : Screen) : Except SchedulerFault Nat :=
  match screen.answers with
  | none => .error (.file .notFound)
  | some (listing, _) => .ok (countSessions (Symbol.text (Symbol.ofBytes listing)).toList)

/-- The number of bytes from which on an argument is too long. -/
def argumentLimit : Nat := 131072

/-- Starts a job, and adds the arguments to those that the program has been given before. A line
with the character that ends an argument cannot be passed on, which is noticed before the program is
looked for. -/
def launch (screen : Screen) (job : Job) (given : List (List String)) :
    Except SchedulerFault Unit × List (List String) :=
  if job.shellLine.toList.contains '\x00' then (.error (.file .nulInArgument), given)
  else
    match screen.answers with
    | none => (.error (.file .notFound), given)
    | some (_, status) =>
      if argumentLimit ≤ job.shellLine.utf8ByteSize then (.error (.file .argumentTooLong), given)
      else
        let given := given ++ [launchArguments job]
        if status.isSuccess then (.ok (), given)
        else
          (.error (.launch job.name s!"{screen.program} exited with {status.describe}"), given)

/-- The environment that the program makes for schedules while its answers stay the same. Its state
is what it has been given. -/
def runner (screen : Screen) : Runner (List (List String)) where
  count given := (screen.count, given)
  launch := screen.launch
  sleep _ given := given

/-- The program that keeps sessions, as it answers over time. -/
structure Course where
  /-- The program as it answers after a number of requests. -/
  after : Nat → Screen
  /-- The number of times that sessions are waited for until someone interrupts the waiting. -/
  patience : Nat

/-- A program whose answers never change. -/
instance : Coe Screen Course := ⟨fun screen => ⟨fun _ => screen, 0⟩⟩

/-- What the program has been asked. -/
structure Calls where
  /-- The number of requests. -/
  requests : Nat
  /-- The arguments that it has been given to start sessions. -/
  launched : List (List String)

/-- The environment that the program makes for schedules over time. Each request finds it as it is
by then. -/
def Course.runner (course : Course) : Runner Calls where
  count calls :=
    let result := (course.after calls.requests).runner.count calls.launched
    (result.1, ⟨calls.requests + 1, result.2⟩)
  launch job calls :=
    let result := (course.after calls.requests).runner.launch job calls.launched
    (result.1, ⟨calls.requests + 1, result.2⟩)
  sleep _ calls := calls

end Screen

end Constellation
