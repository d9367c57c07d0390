import Constellation.Session.Scheduler
set_option autoImplicit false

/-!
# Rehearsals

A rehearsal runs a schedule against simulated sessions and a simulated clock. It shows what the
scheduler would do without starting any program.

## Main definitions

* `Rehearsal` — how simulated sessions behave.
* `Rehearsal.runner` — the environment that they make.
* `Rehearsal.Event` — what happened in it.

## Design

Time advances by sleeping only, and no pause is longer than thirty years. Every launched job has a
life, which is the number of counts or of milliseconds for which its session is active. In a
scripted rehearsal the counts are given instead, and a missing count is a fault.
-/

namespace Constellation

/-- How simulated sessions are counted. -/
inductive SessionModel
  /-- A life is a number of counts. -/
  | byCounts
  /-- A life is a number of milliseconds. -/
  | byClock
  /-- The counts are given, and a gap in them is a fault. -/
  | scripted (counts : List (Option Nat))
  deriving DecidableEq, Repr

/-- How simulated sessions behave. -/
structure Rehearsal where
  /-- How they are counted. -/
  model : SessionModel
  /-- The lives of the launched jobs in order; the last one is that of all further jobs. -/
  lives : List Nat
  /-- The number of sessions that are there from the start and never end. -/
  stale : Nat
  /-- The launch that fails, counted from zero. -/
  failingLaunch : Option Nat
  deriving DecidableEq, Repr

namespace Rehearsal

/-- What happened in a rehearsal. -/
inductive Event
  /-- A job was to be launched at a time. -/
  | launch (time : Nat) (name : String) (state : JobState)
  /-- The sessions were counted at a time, or a count was missing. -/
  | count (time : Nat) (active : Option Nat)
  deriving DecidableEq, Repr

/-- The simulated clock and sessions. -/
structure World where
  /-- The time in milliseconds. -/
  now : Nat
  /-- The number of launches, failed ones included. -/
  launches : Nat
  /-- The launched sessions, each with the time of its launch and its life, or what is left of it
  if lives are counted. -/
  sessions : List (Nat × Nat)
  /-- The given counts that have not been used. -/
  script : List (Option Nat)
  /-- What happened, in reverse. -/
  trace : List Event
  deriving DecidableEq, Repr

/-- The world before anything happens. -/
def start (r : Rehearsal) : World where
  now := 0
  launches := 0
  sessions := []
  script :=
    match r.model with
    | .scripted counts => counts
    | _ => []
  trace := []

/-- The life of the job with a number. -/
def lifeOf (r : Rehearsal) (number : Nat) : Nat :=
  match r.lives[number]? with
  | some life => life
  | none => r.lives.getLast?.getD 0

/-- Launches a job. -/
def launch (r : Rehearsal) (job : Job) (w : World) : Except SchedulerFault Unit × World :=
  let number := w.launches
  let w := { w with
    launches := number + 1
    trace := .launch w.now job.name job.state :: w.trace }
  if r.failingLaunch = some number then (.error (.launch job.name "refused"), w)
  else (.ok (), { w with sessions := w.sessions ++ [(w.now, r.lifeOf number)] })

/-- Counts the active sessions. -/
def count (r : Rehearsal) (w : World) : Except SchedulerFault Nat × World :=
  match r.model with
  | .byCounts =>
    let active := r.stale + w.sessions.countP fun (_, life) => 0 < life
    (.ok active, { w with
      sessions := w.sessions.map fun (time, life) => (time, life - 1)
      trace := .count w.now (some active) :: w.trace })
  | .byClock =>
    let active := r.stale + w.sessions.countP fun (time, life) => w.now < time + life
    (.ok active, { w with trace := .count w.now (some active) :: w.trace })
  | .scripted _ =>
    match w.script with
    | some active :: script =>
      (.ok active, { w with script, trace := .count w.now (some active) :: w.trace })
    | none :: script =>
      (.error (.launch "poll" "no count"), { w with script, trace := .count w.now none :: w.trace })
    | [] => (.error (.launch "poll" "no count"), { w with trace := .count w.now none :: w.trace })

/-- The longest pause in milliseconds: thirty years of 365 days. -/
def longestPause : Nat := 30 * 365 * 86400 * 1000

/-- Lets time pass. -/
def sleep (duration : Duration) (w : World) : World :=
  { w with now := w.now + min (duration.nanos / 1000000) longestPause }

/-- The environment that simulated sessions make. -/
def runner (r : Rehearsal) : Runner World := ⟨r.count, r.launch, sleep⟩

end Rehearsal

end Constellation
