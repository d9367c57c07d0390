import Constellation.Proofs.Command.Runs
import Constellation.Proofs.Session.Ending
set_option autoImplicit false

/-!
# How a command runs its schedule

A command asks the program that keeps sessions, and each answer may be another one. It waits for its
sessions as long as they take, unless someone interrupts it.

## Main results

* `Execute.run_refuseStale` — how sessions of someone else are looked for.
* `Execute.run_runSchedule` — a schedule decides how the command goes on.
* `Execute.lt_countFinds_of_interrupted` — a schedule is interrupted only if it finds sessions again
  and again.
* `Execute.not_interrupted_of_unchanging` — a program whose answers never change is not waited for.
-/

namespace Constellation

namespace Execute

variable {c c' : Console} {screen : Screen.Course} {rule : Option LogRule}

/-! ## Sessions of someone else -/

/-- Sessions are counted as the program answers by then. -/
lemma run_refuseStale (screen : Screen.Course) (c : Console) :
    (refuseStale screen).run c = (settle (checkStale (screen.after c.requests).count)).run
      { c with requests := c.requests + 1 } := rfl

/-- Without sessions of someone else the command goes on. -/
lemma run_refuseStale_eq_ok {done : Unit}
    (h : (refuseStale screen).run c = (.ok done, c')) :
    (screen.after c.requests).count = .ok 0 ∧ c' = { c with requests := c.requests + 1 } := by
  rw [run_refuseStale] at h
  cases hstale : checkStale (screen.after c.requests).count with
  | error fault =>
    rw [hstale] at h
    cases fault <;> cases h
  | ok _ =>
    rw [hstale] at h
    cases h
    exact ⟨eq_of_checkStale_eq_ok hstale, rfl⟩

/-! ## The schedule -/

variable {config : SchedulerConfig} {prepare : Job} {jobs : List Job}

/-- Some request is always granted. -/
lemma requestBound_eq_succ (jobs : List Job) (patience : ℕ) :
    requestBound jobs patience = 3 * jobs.length + 3 + 2 * patience + 1 := by
  rw [requestBound]
  omega

/-- **A schedule** is told to the log, and its outcome decides how the command goes on. -/
lemma run_runSchedule {schedule final : Scheduler} {calls : Screen.Calls} {notices : List Notice}
    (hdrive : Scheduler.drive screen.runner (requestBound schedule.jobs screen.patience) schedule
      c.toCalls [] = (final, calls, notices)) (rule : Option LogRule) :
    ∃ console, (Command.tell rule logger notices.reverse).run { c with toCalls := calls } =
        (.ok (), console) ∧
      (runSchedule screen rule schedule).run c = (conclude final.outcome?).run console := by
  obtain ⟨printed, htell⟩ :=
    Command.run_tell rule logger notices.reverse { c with toCalls := calls }
  refine ⟨_, htell, ?_⟩
  have hget : (get : Command Console).run c = (.ok c, c) := rfl
  rw [runSchedule, Command.run_bind_ok hget, hdrive]
  have hset : (set { c with toCalls := calls } : Command PUnit).run c =
      (.ok ⟨⟩, { c with toCalls := calls }) := rfl
  dsimp only
  rw [Command.run_bind_ok hset, Command.run_bind_ok htell]

/-- The command is interrupted only within its schedule. -/
lemma outcome_of_interrupted {outcome : Option (Except SchedulerFault SchedulerReport)}
    (h : (conclude outcome).run c = (.error .interrupted, c')) : outcome = none := by
  cases outcome with
  | none => rfl
  | some outcome =>
    cases outcome with
    | ok report => cases h
    | error fault => cases fault <;> cases h

/-- A schedule that fails at once decides how the command goes on. -/
lemma run_runSchedule_of_ended {schedule final : Scheduler} {calls : Screen.Calls}
    (hdrive : Scheduler.drive screen.runner (requestBound schedule.jobs screen.patience) schedule
      c.toCalls [] = (final, calls, [])) {fault : SchedulerFault}
    (hended : final.phase = .ended (.error fault)) (rule : Option LogRule) :
    (runSchedule screen rule schedule).run c = (stopFor fault).run { c with toCalls := calls } := by
  obtain ⟨console, htell, hrun⟩ := run_runSchedule hdrive rule
  cases htell
  rw [hrun, (Scheduler.outcome?_eq_some_iff _ _).mpr hended]
  rfl

/-- A schedule without room for any session is refused, and nothing is asked. -/
lemma run_runSchedule_of_no_room (hroom : config.maxParallel = 0) (screen : Screen.Course)
    (rule : Option LogRule) (prepare : Job) (jobs : List Job) (c : Console) :
    (runSchedule screen rule (.new config prepare jobs)).run c =
      (.error SchedulerFault.invalidParallelism.failure.stop, c) := by
  have hended : (Scheduler.new config prepare jobs).phase = .ended (.error .invalidParallelism) :=
    if_pos hroom
  exact run_runSchedule_of_ended (Scheduler.drive_ended screen.runner _ c.toCalls [] hended) hended
    rule

/-- A schedule that is interrupted has not come to its end. -/
lemma outcome?_of_interrupted
    (h : (runSchedule screen rule (.new config prepare jobs)).run c = (.error .interrupted, c')) :
    (Scheduler.drive screen.runner (requestBound jobs screen.patience) (.new config prepare jobs)
      c.toCalls []).1.outcome? = none := by
  rcases hfinal : Scheduler.drive screen.runner
    (requestBound (Scheduler.new config prepare jobs).jobs screen.patience)
    (Scheduler.new config prepare jobs) c.toCalls [] with ⟨final, calls, notices⟩
  obtain ⟨console, -, hrun⟩ := run_runSchedule hfinal rule
  rw [hrun] at h
  have houtcome := congrArg (fun result => result.1.outcome?) hfinal
  exact houtcome.trans (outcome_of_interrupted h)

/-- **A schedule is interrupted only if it finds sessions again and again**, more often than they
are waited for. -/
theorem lt_countFinds_of_interrupted
    (h : (runSchedule screen rule (.new config prepare jobs)).run c = (.error .interrupted, c')) :
    screen.patience < countFinds (Scheduler.drive screen.runner.recording
      (requestBound jobs screen.patience) (.new config prepare jobs) (c.toCalls, [])
      []).2.1.2 := by
  by_cases hroom : config.maxParallel = 0
  · rw [run_runSchedule_of_no_room hroom] at h
    cases h
  have hphase : (Scheduler.new config prepare jobs).phase = .checking := if_neg hroom
  have hleft : (Scheduler.new config prepare jobs).requestsLeft + 2 * screen.patience ≤
      requestBound jobs screen.patience := by
    rw [Scheduler.requestsLeft, hphase]
    exact Nat.le_refl _
  exact Scheduler.lt_countFinds_of_drive hroom hleft (outcome?_of_interrupted h)

/-- **A program whose answers never change is not waited for.** Either it lists no session, and no
count finds any, or the schedule does not begin. -/
theorem not_interrupted_of_unchanging {screen : Screen} :
    (runSchedule screen rule (.new config prepare jobs)).run c ≠ (.error .interrupted, c') := by
  intro h
  cases hstale : checkStale screen.count with
  | ok _ =>
    have hnone : ∀ (calls : Screen.Calls) n,
        ((screen : Screen.Course).runner.count calls).1 = .ok n → n = 0 := by
      intro calls n hn
      have hcount : screen.count = .ok n := hn
      exact (Except.ok.inj ((eq_of_checkStale_eq_ok hstale).symm.trans hcount)).symm
    have hfinds := lt_countFinds_of_interrupted h
    rw [Scheduler.countFinds_drive_eq_zero hnone] at hfinds
    exact Nat.not_lt_zero _ hfinds
  | error fault =>
    have hopen := outcome?_of_interrupted h
    by_cases hroom : config.maxParallel = 0
    · rw [run_runSchedule_of_no_room hroom] at h
      cases h
    have hphase : (Scheduler.new config prepare jobs).phase = .checking := if_neg hroom
    rw [requestBound_eq_succ, Scheduler.drive_of_checkStale_error hphase hstale] at hopen
    cases hopen

end Execute

end Constellation
