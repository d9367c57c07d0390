import Mathlib.Data.Nat.Notation
import Mathlib.Tactic.Lemma
import Constellation.Session.Scheduler
set_option autoImplicit false

/-!
# The steps of a schedule

A schedule asks and is answered. Each answer of the right kind takes it one step further, and what
such a step can be is said here once and for all.

## Main definitions

* `Exchange` — a request with its reply.
* `Scheduler.Step` — all that an exchange can do to a schedule.
* `Scheduler.Run` — some exchanges and the schedule that they lead to.
* `Runner.recording` — an environment that notes down all exchanges.

## Main results

* `Scheduler.step_advance` — every exchange is one of these steps.
* `Scheduler.drive_induction` — what every exchange keeps holds of a schedule in an environment.
* `Scheduler.run_drive` — a schedule in an environment makes a run.

## Design

A run is built at its end, one exchange after the other, so that an invariant of runs is an
invariant of steps. The environment does not occur in it: any reply of the right kind may come.
-/

namespace Constellation

/-- A request and the reply to it. -/
abbrev Exchange := Request × Reply

namespace Exchange

/-- Sessions have been counted. -/
def counted (n : ℕ) : Exchange := (.count, .counted (.ok n))

/-- A job has been launched. -/
def launched (job : Job) : Exchange := (.launch job, .launched (.ok ()))

/-- Time has passed. -/
def paused (duration : Duration) : Exchange := (.sleep duration, .slept)

/-- The fault of a call that has failed. -/
def fault? (e : Exchange) : Option SchedulerFault :=
  match e.2 with
  | .counted (.error fault) => some fault
  | .launched (.error fault) => some fault
  | _ => none

@[simp] lemma fault?_counted (n : ℕ) : (counted n).fault? = none := rfl

@[simp] lemma fault?_launched (job : Job) : (launched job).fault? = none := rfl

@[simp] lemma fault?_paused (duration : Duration) : (paused duration).fault? = none := rfl

end Exchange

/-- Whether a reply is of the kind that a request asks for. -/
def Request.Admits : Request → Reply → Prop
  | .count, .counted _ => True
  | .launch _, .launched _ => True
  | .sleep _, .slept => True
  | _, _ => False

/-- Environments reply as they are asked. -/
lemma Runner.admits_reply {σ : Type} (runner : Runner σ) (request : Request) (state : σ) :
    request.Admits (runner.reply request state).1 := by
  cases request <;> exact trivial

namespace Scheduler

/-- All that an exchange can do to a schedule. -/
inductive Step (s : Scheduler) : Exchange → Scheduler → Prop
  /-- No session is left over. -/
  | clear (h : s.phase = .checking) : Step s (.counted 0) (s.goto .launchingPrepare)
  /-- Some sessions are left over. -/
  | stale (n : ℕ) (h : s.phase = .checking) (hn : n ≠ 0) :
    Step s (.counted n) (s.fail (.staleSessions n))
  /-- The preparation has been launched. -/
  | prepare (h : s.phase = .launchingPrepare) : Step s (.launched s.prepare)
    { s with prepare := { s.prepare with state := .launched }, phase := .pollingPrepare }
  /-- The preparation has ended. -/
  | prepared (h : s.phase = .pollingPrepare) : Step s (.counted 0)
    { s with prepare := { s.prepare with state := .completed }, phase := phaseBefore s.jobs }
  /-- The preparation has not ended yet. -/
  | preparing (n : ℕ) (h : s.phase = .pollingPrepare) (hn : n ≠ 0) :
    Step s (.counted n) (s.goto .pausingPrepare)
  /-- The pause before the preparation is looked at again is over. -/
  | pausedPrepare (h : s.phase = .pausingPrepare) :
    Step s (.paused s.config.preparePollInterval) (s.goto .pollingPrepare)
  /-- A job has been launched. -/
  | launch (job : Job) (rest : List Job) (h : s.phase = .launching job rest) :
    Step s (.launched job)
      { s with
        launched := s.launched ++ [{ job with state := .launched }]
        phase := .polling none rest }
  /-- There is room for another session. -/
  | room (n : ℕ) (first : Option ℕ) (rest : List Job) (h : s.phase = .polling first rest)
    (hn : n < s.config.maxParallel) : Step s (.counted n)
      { s with peakActive := max s.peakActive (first.getD n), phase := .delaying rest }
  /-- There is no room for another session. -/
  | full (n : ℕ) (first : Option ℕ) (rest : List Job) (h : s.phase = .polling first rest)
    (hn : ¬ n < s.config.maxParallel) :
    Step s (.counted n) (s.goto (.pausing (first.getD n) rest))
  /-- The pause before the sessions are counted again is over. -/
  | paused (first : ℕ) (rest : List Job) (h : s.phase = .pausing first rest) :
    Step s (.paused s.config.pollInterval) (s.goto (.polling (some first) rest))
  /-- The pause after a launch is over. -/
  | delayed (rest : List Job) (h : s.phase = .delaying rest) :
    Step s (.paused s.config.launchDelay) (s.goto (phaseBefore rest))
  /-- No session is left. -/
  | done (h : s.phase = .pollingLast) : Step s (.counted 0) (s.goto (.ended (.ok s.report)))
  /-- Some sessions are left. -/
  | finishing (n : ℕ) (h : s.phase = .pollingLast) (hn : n ≠ 0) :
    Step s (.counted n) (s.goto .pausingLast)
  /-- The pause before the last sessions are looked at again is over. -/
  | pausedLast (h : s.phase = .pausingLast) :
    Step s (.paused s.config.pollInterval) (s.goto .pollingLast)
  /-- A call has failed. -/
  | failed (e : Exchange) (fault : SchedulerFault) (h : s.request? = some e.1)
    (hadmits : e.1.Admits e.2) (hfault : e.fault? = some fault) : Step s e (s.fail fault)

/-- What a count does. -/
lemma step_afterCount {s : Scheduler} (h : s.request? = some .count) (n : ℕ) :
    Step s (.counted n) (s.afterCount n) := by
  rw [afterCount]
  cases hphase : s.phase with
  | checking =>
    by_cases hn : n = 0
    · subst hn
      exact .clear hphase
    · simpa only [if_neg hn] using .stale n hphase hn
  | pollingPrepare =>
    by_cases hn : n = 0
    · subst hn
      exact .prepared hphase
    · simpa only [if_neg hn] using .preparing n hphase hn
  | polling first rest =>
    by_cases hn : n < s.config.maxParallel
    · simpa only [if_pos hn] using .room n first rest hphase hn
    · simpa only [if_neg hn] using .full n first rest hphase hn
  | pollingLast =>
    by_cases hn : n = 0
    · subst hn
      exact .done hphase
    · simpa only [if_neg hn] using .finishing n hphase hn
  | _ => simp [request?, hphase] at h

/-- What a launch does. -/
lemma step_afterLaunch {s : Scheduler} {job : Job} (h : s.request? = some (.launch job)) :
    Step s (.launched job) s.afterLaunch := by
  rw [afterLaunch]
  cases hphase : s.phase with
  | launchingPrepare =>
    have hjob : s.prepare = job := by simpa [request?, hphase] using h
    rw [← hjob]
    exact .prepare hphase
  | launching job' rest =>
    have hjob : job' = job := by simpa [request?, hphase] using h
    rw [← hjob]
    exact .launch job' rest hphase
  | _ => simp [request?, hphase] at h

/-- What a pause does. -/
lemma step_afterSleep {s : Scheduler} {duration : Duration}
    (h : s.request? = some (.sleep duration)) : Step s (.paused duration) s.afterSleep := by
  rw [afterSleep]
  cases hphase : s.phase with
  | pausingPrepare =>
    have hd : s.config.preparePollInterval = duration := by simpa [request?, hphase] using h
    rw [← hd]
    exact .pausedPrepare hphase
  | pausing first rest =>
    have hd : s.config.pollInterval = duration := by simpa [request?, hphase] using h
    rw [← hd]
    exact .paused first rest hphase
  | delaying rest =>
    have hd : s.config.launchDelay = duration := by simpa [request?, hphase] using h
    rw [← hd]
    exact .delayed rest hphase
  | pausingLast =>
    have hd : s.config.pollInterval = duration := by simpa [request?, hphase] using h
    rw [← hd]
    exact .pausedLast hphase
  | _ => simp [request?, hphase] at h

/-- **Every exchange is one of the steps.** -/
lemma step_advance {s : Scheduler} {request : Request} {reply : Reply}
    (h : s.request? = some request) (hadmits : request.Admits reply) :
    Step s (request, reply) (s.advance reply) := by
  unfold advance
  rw [h]
  match request, reply, hadmits with
  | .count, .counted (.ok n), _ => exact step_afterCount h n
  | .count, .counted (.error fault), _ => exact .failed _ fault h trivial rfl
  | .launch job, .launched (.ok ()), _ => exact step_afterLaunch h
  | .launch job, .launched (.error fault), _ => exact .failed _ fault h trivial rfl
  | .sleep duration, .slept, _ => exact step_afterSleep h

/-- Nothing is answered after the end. -/
lemma Step.request? {s s' : Scheduler} {e : Exchange} (h : Step s e s') :
    s.request? = some e.1 := by
  cases h with
  | failed _ _ h => exact h
  | _ => simp [Scheduler.request?, Exchange.counted, Exchange.launched, Exchange.paused, *]

/-- A schedule that has ended goes no further. -/
lemma Step.not_ended {s s' : Scheduler} {e : Exchange} (h : Step s e s')
    (outcome : Except SchedulerFault SchedulerReport) : s.phase ≠ .ended outcome := by
  intro hended
  have hrequest := h.request?
  rw [request?_ended hended] at hrequest
  cases hrequest

/-- The outcome is what the phase says. -/
lemma outcome?_eq_some_iff (s : Scheduler) (outcome : Except SchedulerFault SchedulerReport) :
    s.outcome? = some outcome ↔ s.phase = .ended outcome := by
  rw [outcome?]
  cases s.phase <;> simp

/-- Bounds and pauses stay as they are. -/
lemma Step.config {s s' : Scheduler} {e : Exchange} (h : Step s e s') : s'.config = s.config := by
  cases h <;> rfl

/-- The jobs as they were given stay as they are. -/
lemma Step.jobs {s s' : Scheduler} {e : Exchange} (h : Step s e s') : s'.jobs = s.jobs := by
  cases h <;> rfl

/-! ## Runs -/

/-- The exchanges that lead from one schedule to another. -/
inductive Run (s₀ : Scheduler) : List Exchange → Scheduler → Prop
  /-- Nothing has been asked yet. -/
  | start : Run s₀ [] s₀
  /-- One more request has been answered. -/
  | snoc {t : List Exchange} {s s' : Scheduler} {e : Exchange} (hrun : Run s₀ t s)
    (hstep : Step s e s') : Run s₀ (t ++ [e]) s'

namespace Run

variable {s₀ s : Scheduler} {t : List Exchange}

/-- Bounds and pauses stay as they are. -/
lemma config (h : Run s₀ t s) : s.config = s₀.config := by
  induction h with
  | start => rfl
  | snoc _ hstep ih => rw [hstep.config, ih]

/-- The jobs as they were given stay as they are. -/
lemma jobs (h : Run s₀ t s) : s.jobs = s₀.jobs := by
  induction h with
  | start => rfl
  | snoc _ hstep ih => rw [hstep.jobs, ih]

/-- A run without exchanges goes nowhere. -/
lemma eq_of_nil (h : Run s₀ [] s) : s = s₀ := by
  generalize ht : [] = t at h
  cases h with
  | start => rfl
  | snoc _ _ => simp at ht

/-- The last exchange of a run is its last step. -/
lemma exists_of_snoc {e : Exchange} (h : Run s₀ (t ++ [e]) s) :
    ∃ s', Run s₀ t s' ∧ Step s' e s := by
  generalize hu : t ++ [e] = u at h
  cases h with
  | start => simp at hu
  | @snoc u s' _ e' hrun hstep =>
    obtain ⟨rfl, heq⟩ := List.append_inj' hu rfl
    cases heq
    exact ⟨s', hrun, hstep⟩

end Run

end Scheduler

/-! ## Schedules in an environment -/

section Drive

variable {σ : Type} (runner : Runner σ)

/-- The same environment, which also notes down all exchanges. -/
def Runner.recording : Runner (σ × List Exchange) where
  count state :=
    let (outcome, after) := runner.count state.1
    (outcome, after, state.2 ++ [(.count, .counted outcome)])
  launch job state :=
    let (outcome, after) := runner.launch job state.1
    (outcome, after, state.2 ++ [(.launch job, .launched outcome)])
  sleep duration state := (runner.sleep duration state.1, state.2 ++ [.paused duration])

/-- What is noted down is what is replied. -/
lemma Runner.reply_recording (request : Request) (state : σ) (t : List Exchange) :
    runner.recording.reply request (state, t) = ((runner.reply request state).1,
      (runner.reply request state).2, t ++ [(request, (runner.reply request state).1)]) := by
  cases request <;> rfl

namespace Scheduler

/-- Notes do not disturb a schedule. -/
lemma drive_recording (fuel : ℕ) (s : Scheduler) (state : σ) (t : List Exchange)
    (told : List Notice) : (drive runner.recording fuel s (state, t) told).1 =
      (drive runner fuel s state told).1 := by
  induction fuel generalizing s state t told with
  | zero => rfl
  | succ fuel ih =>
    rw [drive, drive]
    cases s.request? with
    | none => rfl
    | some request =>
      simp only [runner.reply_recording]
      exact ih _ _ _ _

/-- **What every exchange keeps** is kept by a schedule in an environment. -/
lemma drive_induction {P : List Exchange → Scheduler → σ → Prop}
    (hkeep : ∀ t s state request, s.request? = some request → P t s state →
      P (t ++ [(request, (runner.reply request state).1)])
        (s.advance (runner.reply request state).1) (runner.reply request state).2)
    (fuel : ℕ) {t : List Exchange} {s : Scheduler} {state : σ} (told : List Notice)
    (h : P t s state) :
    P (drive runner.recording fuel s (state, t) told).2.1.2
      (drive runner.recording fuel s (state, t) told).1
      (drive runner.recording fuel s (state, t) told).2.1.1 := by
  induction fuel generalizing t s state told with
  | zero => exact h
  | succ fuel ih =>
    rw [drive]
    cases hrequest : s.request? with
    | none => exact h
    | some request =>
      simp only [runner.reply_recording]
      exact ih _ (hkeep t s state request hrequest h)

/-- **A schedule in an environment makes a run.** -/
lemma run_drive {s₀ s : Scheduler} {t : List Exchange} (h : Run s₀ t s) (fuel : ℕ) (state : σ)
    (told : List Notice) :
    Run s₀ (drive runner.recording fuel s (state, t) told).2.1.2
      (drive runner.recording fuel s (state, t) told).1 := by
  refine drive_induction runner (P := fun t s _ => Run s₀ t s) ?_ fuel told h
  intro t s state request hrequest hrun
  exact hrun.snoc (step_advance hrequest (runner.admits_reply request state))

/-- A schedule that has not ended has used up its fuel. -/
lemma length_drive (fuel : ℕ) (s : Scheduler) (state : σ) (t : List Exchange)
    (told : List Notice)
    (h : (drive runner.recording fuel s (state, t) told).1.outcome? = none) :
    (drive runner.recording fuel s (state, t) told).2.1.2.length = t.length + fuel := by
  induction fuel generalizing s state t told with
  | zero => rfl
  | succ fuel ih =>
    rw [drive] at h ⊢
    cases hrequest : s.request? with
    | none =>
      rw [hrequest] at h
      cases hphase : s.phase <;> simp [request?, outcome?, hphase] at hrequest h
    | some request =>
      rw [hrequest] at h
      simp only [runner.reply_recording] at h ⊢
      rw [ih _ _ _ _ h, List.length_append, List.length_singleton]
      omega

end Scheduler

end Drive

end Constellation
