import Constellation.Duration
import Constellation.Session.Job
set_option autoImplicit false

/-!
# Scheduling jobs with bounded parallelism

Jobs run as sessions of their own. The scheduler learns nothing about a session but whether it
counts as active when it asks for the number of active sessions. It first runs a job that prepares
the others, then launches the others in order, each time waiting until fewer than a fixed number of
sessions are active, and finally waits until none is left.

## Main definitions

* `Scheduler` — a schedule and how far it has come.
* `Scheduler.request?` — what it asks its environment to do next.
* `Scheduler.advance` — how it goes on after a reply.
* `Scheduler.notices` — what it tells the log meanwhile.
* `Runner`, `Scheduler.drive` — an environment, and a schedule that runs in it.

## Main results

* `Scheduler.request?_ended` — nothing is asked after the end.

## Design

The scheduler is a machine that only asks and is answered, so that every behaviour of an
environment is a sequence of replies. A reply of the wrong kind changes nothing. Of the counts
that are asked for after a launch, the first one is kept for the report.
-/

namespace Constellation

/-- Why a schedule does not come to its end. -/
inductive SchedulerFault
  /-- Sessions are active before anything has been launched. -/
  | staleSessions (count : Nat)
  /-- No session may be active at all. -/
  | invalidParallelism
  /-- A program cannot be started. -/
  | file (fault : FileFault)
  /-- A job cannot be launched. -/
  | launch (job reason : String)
  deriving DecidableEq, Repr

/-- The wording of a fault. -/
def SchedulerFault.message : SchedulerFault → String
  | staleSessions count =>
    s!"There are {count} screen sessions already running. " ++
      "Please kill all screens before running the experiments (killall screen)."
  | invalidParallelism => "At least one job must be allowed to run at the same time"
  | file fault => "IO Error: " ++ fault.message
  | launch job reason => s!"Cannot launch {job}: {reason}"

/-- The bounds and pauses of a schedule. -/
structure SchedulerConfig where
  /-- The number of sessions below which another one is started. -/
  maxParallel : Nat
  /-- The pause between two counts while sessions run. -/
  pollInterval : Duration
  /-- The pause between two counts while the preparation runs. -/
  preparePollInterval : Duration
  /-- The pause after a launch. -/
  launchDelay : Duration
  deriving DecidableEq, Repr

/-- The bounds and pauses that are used unless others are given. -/
def SchedulerConfig.standard : SchedulerConfig where
  maxParallel := 4
  pollInterval := .ofParts 2 0
  preparePollInterval := .ofParts 1 0
  launchDelay := .ofParts 10 0

/-- What has been done when a schedule has come to its end. How long it took is no part of it: a
schedule knows its pauses, but not the time that its environment takes. -/
structure SchedulerReport where
  /-- The job that prepared the others. -/
  prepare : Job
  /-- The other jobs in order. -/
  jobs : List Job
  /-- The greatest number of sessions seen right after a launch. -/
  peakActive : Nat
  deriving DecidableEq, Repr

/-- How reports are kept. -/
def SchedulerReport.toJson (report : SchedulerReport) : Json :=
  .record [("prepare", report.prepare.toJson), ("jobs", .list (report.jobs.map Job.toJson)),
    ("peak_active", .natural report.peakActive)]

/-- The outcome of looking for active sessions before anything is launched. -/
def checkStale : Except SchedulerFault Nat → Except SchedulerFault Unit
  | .ok 0 => .ok ()
  | .ok (count + 1) => .error (.staleSessions (count + 1))
  | .error fault => .error fault

/-- Where a schedule stands. -/
inductive Phase
  /-- It looks for sessions left over. -/
  | checking
  /-- It launches the preparation. -/
  | launchingPrepare
  /-- It counts sessions until the preparation has ended. -/
  | pollingPrepare
  /-- It pauses before counting again. -/
  | pausingPrepare
  /-- It launches a job, before the remaining ones. -/
  | launching (job : Job) (rest : List Job)
  /-- It counts sessions until there is room for another one. The first count after the launch is
  known from the second on. -/
  | polling (first : Option Nat) (rest : List Job)
  /-- It pauses before counting again. -/
  | pausing (first : Nat) (rest : List Job)
  /-- It pauses after a launch. -/
  | delaying (rest : List Job)
  /-- It counts sessions until none is left. -/
  | pollingLast
  /-- It pauses before counting again. -/
  | pausingLast
  /-- It has ended. -/
  | ended (outcome : Except SchedulerFault SchedulerReport)

/-- A schedule and how far it has come. -/
structure Scheduler where
  /-- Its bounds and pauses. -/
  config : SchedulerConfig
  /-- The job that prepares the others. -/
  prepare : Job
  /-- All jobs as they were given. -/
  jobs : List Job
  /-- The jobs that have been launched, in order. -/
  launched : List Job
  /-- The greatest first count after a launch. -/
  peakActive : Nat
  /-- Where it stands. -/
  phase : Phase

/-- What a schedule asks its environment to do. -/
inductive Request
  /-- Count the active sessions. -/
  | count
  /-- Launch a job. -/
  | launch (job : Job)
  /-- Let some time pass. -/
  | sleep (duration : Duration)
  deriving DecidableEq, Repr

/-- What an environment replies. -/
inductive Reply
  /-- The number of active sessions. -/
  | counted (outcome : Except SchedulerFault Nat)
  /-- A job has been launched. -/
  | launched (outcome : Except SchedulerFault Unit)
  /-- The time has passed. -/
  | slept

/-- How important a message to the log is. -/
inductive Level
  /-- Every detail. -/
  | trace
  /-- For finding faults. -/
  | debug
  /-- For those who wait. -/
  | info
  /-- Something that should not be. -/
  | warn
  /-- Something that has failed. -/
  | error
  deriving DecidableEq, Repr

namespace Level

/-- The name of a level. -/
def name : Level → String
  | trace => "TRACE"
  | debug => "DEBUG"
  | info => "INFO"
  | warn => "WARN"
  | error => "ERROR"

/-- The place of a level among all. -/
def rank : Level → Nat
  | trace => 0
  | debug => 1
  | info => 2
  | warn => 3
  | error => 4

end Level

/-- A message to the log. -/
structure Notice where
  /-- How important it is. -/
  level : Level
  /-- What it says. -/
  message : String
  deriving DecidableEq, Repr

namespace Scheduler

/-- A schedule that has not begun. -/
def new (config : SchedulerConfig) (prepare : Job) (jobs : List Job) : Scheduler where
  config := config
  prepare := prepare
  jobs := jobs
  launched := []
  peakActive := 0
  phase := if config.maxParallel = 0 then .ended (.error .invalidParallelism) else .checking

/-- What a schedule asks for next, unless it has ended. -/
def request? (s : Scheduler) : Option Request :=
  match s.phase with
  | .checking => some .count
  | .launchingPrepare => some (.launch s.prepare)
  | .pollingPrepare => some .count
  | .pausingPrepare => some (.sleep s.config.preparePollInterval)
  | .launching job _ => some (.launch job)
  | .polling _ _ => some .count
  | .pausing _ _ => some (.sleep s.config.pollInterval)
  | .delaying _ => some (.sleep s.config.launchDelay)
  | .pollingLast => some .count
  | .pausingLast => some (.sleep s.config.pollInterval)
  | .ended _ => none

/-- Where a schedule stands before the remaining jobs are launched. -/
def phaseBefore : List Job → Phase
  | [] => .pollingLast
  | job :: rest => .launching job rest

/-- The report once no session is left. -/
def report (s : Scheduler) : SchedulerReport where
  prepare := s.prepare
  jobs := s.launched.map fun job => { job with state := .completed }
  peakActive := s.peakActive

/-- The same schedule in another phase. -/
def goto (s : Scheduler) (phase : Phase) : Scheduler := { s with phase }

/-- The schedule after a fault. -/
def fail (s : Scheduler) (fault : SchedulerFault) : Scheduler := s.goto (.ended (.error fault))

/-- How a schedule goes on when it has counted `n` sessions. -/
def afterCount (s : Scheduler) (n : Nat) : Scheduler :=
  match s.phase with
  | .checking => if n = 0 then s.goto .launchingPrepare else s.fail (.staleSessions n)
  | .pollingPrepare =>
    if n = 0 then
      { s with prepare := { s.prepare with state := .completed }, phase := phaseBefore s.jobs }
    else s.goto .pausingPrepare
  | .polling first rest =>
    let first := first.getD n
    if n < s.config.maxParallel then
      { s with peakActive := max s.peakActive first, phase := .delaying rest }
    else s.goto (.pausing first rest)
  | .pollingLast => if n = 0 then s.goto (.ended (.ok s.report)) else s.goto .pausingLast
  | _ => s

/-- How a schedule goes on when it has launched a job. -/
def afterLaunch (s : Scheduler) : Scheduler :=
  match s.phase with
  | .launchingPrepare =>
    { s with prepare := { s.prepare with state := .launched }, phase := .pollingPrepare }
  | .launching job rest =>
    { s with
      launched := s.launched ++ [{ job with state := .launched }]
      phase := .polling none rest }
  | _ => s

/-- How a schedule goes on when it has paused. -/
def afterSleep (s : Scheduler) : Scheduler :=
  match s.phase with
  | .pausingPrepare => s.goto .pollingPrepare
  | .pausing first rest => s.goto (.polling (some first) rest)
  | .delaying rest => s.goto (phaseBefore rest)
  | .pausingLast => s.goto .pollingLast
  | _ => s

/-- How a schedule goes on after a reply. -/
def advance (s : Scheduler) (reply : Reply) : Scheduler :=
  match s.request?, reply with
  | some .count, .counted (.ok n) => s.afterCount n
  | some .count, .counted (.error fault) => s.fail fault
  | some (.launch _), .launched (.ok ()) => s.afterLaunch
  | some (.launch _), .launched (.error fault) => s.fail fault
  | some (.sleep _), .slept => s.afterSleep
  | _, _ => s

/-- What is told about a job that is about to be launched. -/
def launchNotice (job : Job) : Notice := ⟨.debug, s!"launching {job.name}: {job.shellLine}"⟩

/-- What is told when a schedule comes to its remaining jobs. -/
def noticesBefore (s : Scheduler) : List Job → List Notice
  | [] =>
    [⟨.info, "Waiting completion of the last " ++
      s!"{min s.config.maxParallel s.jobs.length}..."⟩]
  | job :: rest =>
    let number := s.jobs.length - rest.length
    [⟨.info, s!"Starting command {number} out of {s.jobs.length}: {job.command}"⟩,
      launchNotice job]

/-- What is told when sessions have been counted and the schedule has to wait. -/
def waitNotice (n : Nat) : Notice := ⟨.trace, s!"{n} sessions active, waiting..."⟩

/-- What a schedule tells the log when a reply arrives. -/
def notices (s : Scheduler) (reply : Reply) : List Notice :=
  match s.phase, reply with
  | .checking, .counted (.ok n) =>
    if n = 0 then [⟨.info, "Compiling"⟩, launchNotice s.prepare] else []
  | .pollingPrepare, .counted (.ok n) =>
    if n = 0 then
      ⟨.info, s!"Running commands (at most {s.config.maxParallel} in parallel)..."⟩ ::
        s.noticesBefore s.jobs
    else [waitNotice n]
  | .polling _ _, .counted (.ok n) => if n < s.config.maxParallel then [] else [waitNotice n]
  | .delaying rest, .slept => s.noticesBefore rest
  | .pollingLast, .counted (.ok n) => if n = 0 then [⟨.info, "Finished."⟩] else [waitNotice n]
  | _, _ => []

/-- The outcome of a schedule, once it has ended. -/
def outcome? (s : Scheduler) : Option (Except SchedulerFault SchedulerReport) :=
  match s.phase with
  | .ended outcome => some outcome
  | _ => none

/-- Nothing is asked after the end. -/
theorem request?_ended {s : Scheduler} {outcome : Except SchedulerFault SchedulerReport}
    (h : s.phase = .ended outcome) : s.request? = none := by
  simp [request?, h]

end Scheduler

/-- An environment for schedules, with a state of its own. -/
structure Runner (σ : Type) where
  /-- Counts the active sessions. -/
  count : σ → Except SchedulerFault Nat × σ
  /-- Launches a job. -/
  launch : Job → σ → Except SchedulerFault Unit × σ
  /-- Lets time pass. -/
  sleep : Duration → σ → σ

namespace Runner

variable {σ : Type}

/-- How an environment replies to a request. -/
def reply (runner : Runner σ) (request : Request) (state : σ) : Reply × σ :=
  match request with
  | .count =>
    let (outcome, state) := runner.count state
    (.counted outcome, state)
  | .launch job =>
    let (outcome, state) := runner.launch job state
    (.launched outcome, state)
  | .sleep duration => (.slept, runner.sleep duration state)

end Runner

namespace Scheduler

variable {σ : Type}

/-- Runs a schedule in an environment for at most `fuel` requests. What it tells the log is added
in front of what has been told before, so that the latest message comes first. -/
def drive (runner : Runner σ) :
    (fuel : Nat) → Scheduler → σ → List Notice → Scheduler × σ × List Notice
  | 0, s, state, told => (s, state, told)
  | fuel + 1, s, state, told =>
    match s.request? with
    | none => (s, state, told)
    | some request =>
      let (reply, state) := runner.reply request state
      drive runner fuel (s.advance reply) state ((s.notices reply).reverse ++ told)

end Scheduler

end Constellation
