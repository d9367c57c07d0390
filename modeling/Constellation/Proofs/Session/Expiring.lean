import Mathlib.Algebra.Order.Ring.Nat
import Constellation.Proofs.Session.Ending
import Constellation.Proofs.Session.Occupancy
import Constellation.Session.Rehearsal
set_option autoImplicit false

/-!
# Schedules whose sessions expire come to their end

A session that is active for finitely many counts only cannot hold up a schedule forever. How many
these are is settled when it is launched, and not before, so no bound on the requests is known while
jobs remain. At the end it is known: all counts but a few have found a session.

## Main definitions

* `Runner.Expires` — an environment in which each session is active for finitely many counts.
* `Scheduler.countsLeft` — the counts that are left if no session is ever active.
* `Scheduler.Finished` — how a schedule has come to its end in such an environment.

## Main results

* `Runner.Expires.exists_reply` — what a request does to the sessions.
* `Scheduler.Step.countsLeft_le` — a count that is not one of those left has found a session.
* `Scheduler.exists_drive_ended` — every schedule ends.
* `Scheduler.drive_finishes` — it ends without a fault, and how many launches and counts it takes.

## Design

A count takes one from what is left of each active session, so it takes as much from the sum as it
finds. A launch may add anything to that sum. It is paid for by the number of launches left, which
is why the schedule ends by a lexicographic order.
-/

namespace Constellation

/-! ## Sessions that expire -/

/-- The number of counts that have been asked for. -/
def countCalls (t : List Exchange) : ℕ := t.countP fun e => e.1 = .count

/-- Another exchange may be one more count. -/
lemma countCalls_snoc (t : List Exchange) (e : Exchange) :
    countCalls (t ++ [e]) = countCalls t + if e.1 = .count then 1 else 0 := by
  rw [countCalls, List.countP_append, List.countP_singleton, countCalls]
  simp only [decide_eq_true_eq]

/-- A count takes as much from all lives together as there are sessions that it finds. -/
lemma sum_map_pred_add_countP (left : List ℕ) :
    (left.map (· - 1)).sum + left.countP (0 < ·) = left.sum := by
  induction left with
  | nil => rfl
  | cons life left ih =>
    rw [List.map_cons, List.sum_cons, List.sum_cons, List.countP_cons, ← ih]
    by_cases hlife : 0 < life
    · simp only [hlife, decide_true, if_true]
      omega
    · simp only [hlife, decide_false, Bool.false_eq_true, if_false]
      omega

/-- An environment in which each session is active for finitely many counts. How many they are is
the life of the session and may be settled by its launch. -/
structure Runner.Expires {σ : Type} (runner : Runner σ) (lives left : σ → List ℕ) : Prop where
  /-- The sessions of which something is left are active. -/
  count : ∀ state, (runner.count state).1 = .ok ((left state).countP (0 < ·))
  /-- A count takes one from what is left of each session. -/
  left_count : ∀ state, left (runner.count state).2 = (left state).map (· - 1)
  /-- It starts no session. -/
  lives_count : ∀ state, lives (runner.count state).2 = lives state
  /-- No launch fails. -/
  launch : ∀ job state, (runner.launch job state).1 = .ok ()
  /-- A launch starts a session with some life. -/
  exists_life : ∀ job state, ∃ life, lives (runner.launch job state).2 = lives state ++ [life] ∧
    left (runner.launch job state).2 = left state ++ [life]
  /-- A pause takes nothing from any session. -/
  left_sleep : ∀ duration state, left (runner.sleep duration state) = left state
  /-- It starts no session, either. -/
  lives_sleep : ∀ duration state, lives (runner.sleep duration state) = lives state

namespace Runner.Expires

variable {σ : Type} {runner : Runner σ} {lives left : σ → List ℕ}

/-- **What a request does to the sessions.** It never fails. The lives of the sessions that it
starts come last, and what it finds active is taken from what is left. -/
lemma exists_reply (h : runner.Expires lives left) (request : Request) (state : σ) :
    ∃ fresh, lives (runner.reply request state).2 = lives state ++ fresh ∧
      fresh.length = (Exchange.opened? (request, (runner.reply request state).1)).toList.length ∧
      (left (runner.reply request state).2).sum +
          (Exchange.count? (request, (runner.reply request state).1)).getD 0 =
        (left state).sum + fresh.sum ∧
      Exchange.fault? (request, (runner.reply request state).1) = none := by
  cases request with
  | count =>
    have hreply : (runner.reply .count state).1 =
        .counted (.ok ((left state).countP (0 < ·))) := congrArg Reply.counted (h.count state)
    rw [hreply]
    refine ⟨[], (h.lives_count state).trans (List.append_nil _).symm, rfl, ?_, rfl⟩
    show (left (runner.count state).2).sum + _ = _
    rw [h.left_count]
    exact sum_map_pred_add_countP _
  | launch job =>
    have hreply : (runner.reply (.launch job) state).1 = .launched (.ok ()) :=
      congrArg Reply.launched (h.launch job state)
    obtain ⟨life, hlives, hleft⟩ := h.exists_life job state
    rw [hreply]
    refine ⟨[life], hlives, rfl, ?_, rfl⟩
    show (left (runner.launch job state).2).sum + 0 = _
    rw [hleft, List.sum_append]
    rfl
  | sleep duration =>
    refine ⟨[], (h.lives_sleep duration state).trans (List.append_nil _).symm, rfl, ?_, rfl⟩
    show (left (runner.sleep duration state)).sum + 0 = _
    rw [h.left_sleep]
    rfl

end Runner.Expires

/-- Simulated sessions expire if their lives are numbers of counts, none is there from the start
and no launch fails. -/
lemma Rehearsal.expires {r : Rehearsal} (hmodel : r.model = .byCounts) (hstale : r.stale = 0)
    (hfailing : r.failingLaunch = none) :
    r.runner.Expires (fun w => (List.range w.launches).map r.lifeOf)
      (fun w => w.sessions.map Prod.snd) where
  count w := by
    simp only [runner, count, hmodel, hstale, Nat.zero_add, List.countP_map]
    rfl
  left_count w := by
    simp only [runner, count, hmodel, List.map_map]
    rfl
  lives_count w := by simp only [runner, count, hmodel]
  launch job w := by simp [runner, launch, hfailing]
  exists_life job w := by
    refine ⟨r.lifeOf w.launches, ?_, ?_⟩
    · simp [runner, launch, hfailing, List.range_succ]
    · simp [runner, launch, hfailing]
  left_sleep _ _ := rfl
  lives_sleep _ _ := rfl

namespace Scheduler

variable {s s' : Scheduler} {e : Exchange}

/-! ## What is left -/

/-- The number of launches that are left. -/
def launchesLeft (s : Scheduler) : ℕ :=
  match s.phase with
  | .checking | .launchingPrepare => s.jobs.length + 1
  | .pollingPrepare | .pausingPrepare => s.jobs.length
  | .launching _ rest => rest.length + 1
  | .polling _ rest | .pausing _ rest | .delaying rest => rest.length
  | .pollingLast | .pausingLast | .ended _ => 0

/-- The number of counts that are left if no session is ever active: one for each job, and those at
the beginning, for the preparation and at the end. -/
def countsLeft (s : Scheduler) : ℕ :=
  match s.phase with
  | .checking => s.jobs.length + 3
  | .launchingPrepare | .pollingPrepare | .pausingPrepare => s.jobs.length + 2
  | .launching _ rest | .polling _ rest | .pausing _ rest => rest.length + 2
  | .delaying rest => rest.length + 1
  | .pollingLast | .pausingLast => 1
  | .ended _ => 0

/-- What is left before some jobs. -/
lemma launchesLeft_of_phaseBefore (s : Scheduler) (jobs : List Job)
    (h : s.phase = phaseBefore jobs) : s.launchesLeft = jobs.length := by
  rw [launchesLeft, h]
  cases jobs <;> rfl

/-- What is left before some jobs. -/
lemma countsLeft_of_phaseBefore (s : Scheduler) (jobs : List Job)
    (h : s.phase = phaseBefore jobs) : s.countsLeft = jobs.length + 1 := by
  rw [countsLeft, h]
  cases jobs <;> rfl

/-- A launch is one of those that are left. -/
lemma Step.launchesLeft_le (h : Step s e s') :
    s'.launchesLeft + e.opened?.toList.length ≤ s.launchesLeft := by
  cases h with
  | prepared h =>
    rw [launchesLeft_of_phaseBefore _ s.jobs rfl]
    simp [launchesLeft, h]
  | delayed rest h =>
    rw [launchesLeft_of_phaseBefore _ rest rfl]
    simp [launchesLeft, h]
  | failed e fault h hadmits hfault =>
    rw [Exchange.opened?_eq_none hfault]
    exact Nat.zero_le _
  | _ => simp [launchesLeft, goto, fail, *]

/-- **A count that is not one of those left has found a session.** -/
lemma Step.countsLeft_le (h : Step s e s') (hroom : s.config.maxParallel ≠ 0) :
    s'.countsLeft + (if e.1 = .count then 1 else 0) ≤ s.countsLeft + e.count?.getD 0 := by
  cases h with
  | full n first rest h hn =>
    simp only [countsLeft, goto, h, Exchange.counted, Exchange.count?, if_true, Option.getD_some]
    omega
  | stale n h hn | preparing n h hn | finishing n h hn | room n first rest h hn =>
    simp only [countsLeft, goto, fail, h, Exchange.counted, Exchange.count?, if_true,
      Option.getD_some]
    omega
  | prepared h =>
    rw [countsLeft_of_phaseBefore _ s.jobs rfl]
    simp [countsLeft, Exchange.counted, h]
  | delayed rest h =>
    rw [countsLeft_of_phaseBefore _ rest rfl]
    simp [countsLeft, Exchange.paused, h]
  | failed e fault h hadmits hfault =>
    have hpos : (if e.1 = .count then 1 else 0) ≤ s.countsLeft := by
      split
      · next hcount =>
        rw [hcount] at h
        cases hphase : s.phase <;> simp [Scheduler.request?, countsLeft, hphase] at h ⊢
      · exact Nat.zero_le _
    simp only [countsLeft, fail, goto] at hpos ⊢
    omega
  | _ => simp [countsLeft, goto, Exchange.counted, Exchange.launched, Exchange.paused, *]

/-! ## The end -/

section Drive

variable {σ : Type} {runner : Runner σ} {lives left : σ → List ℕ}

/-- Each request makes less of what is left: a launch of the launches, and any other request of the
requests and of what is left of the sessions. -/
lemma lex_of_request (h : runner.Expires lives left) (hroom : s.config.maxParallel ≠ 0)
    {request : Request} (hrequest : s.request? = some request) (state : σ) :
    Prod.Lex (· < ·) (· < ·)
      ((s.advance (runner.reply request state).1).launchesLeft,
        (s.advance (runner.reply request state).1).requestsLeft +
          2 * (left (runner.reply request state).2).sum)
      (s.launchesLeft, s.requestsLeft + 2 * (left state).sum) := by
  have hstep := step_advance hrequest (runner.admits_reply request state)
  have hlaunches := hstep.launchesLeft_le
  have hrequests := hstep.requestsLeft_lt hroom
  obtain ⟨fresh, -, hlength, hsum, -⟩ := h.exists_reply request state
  rw [Prod.lex_def]
  cases fresh with
  | nil =>
    rw [List.sum_nil] at hsum
    rcases Nat.lt_or_eq_of_le (Nat.le_trans (Nat.le_add_right _ _) hlaunches) with hlt | heq
    · exact Or.inl hlt
    · exact Or.inr ⟨heq, by omega⟩
  | cons life fresh =>
    rw [List.length_cons] at hlength
    exact Or.inl (by omega)

/-- **Every schedule ends where sessions expire.** -/
lemma exists_drive_ended (h : runner.Expires lives left) (s : Scheduler)
    (hroom : s.config.maxParallel ≠ 0) (state : σ) (told : List Notice) :
    ∃ fuel, ∀ more, ∃ outcome,
      (drive runner (fuel + more) s state told).1.phase = .ended outcome := by
  cases hrequest : s.request? with
  | none =>
    obtain ⟨outcome, hended⟩ := exists_ended_of_request? hrequest
    exact ⟨0, fun more => ⟨outcome, by rw [drive_ended runner _ state told hended, hended]⟩⟩
  | some request =>
    have hstep := step_advance hrequest (runner.admits_reply request state)
    obtain ⟨fuel, hends⟩ := exists_drive_ended h (s.advance (runner.reply request state).1)
      (hstep.config ▸ hroom) (runner.reply request state).2
      ((s.notices (runner.reply request state).1).reverse ++ told)
    refine ⟨fuel + 1, fun more => ?_⟩
    rw [Nat.add_right_comm, drive_succ runner _ state told hrequest]
    exact hends more
termination_by (s.launchesLeft, s.requestsLeft + 2 * (left state).sum)
decreasing_by exact lex_of_request h hroom hrequest state

/-! ## The number of counts -/

variable {config : SchedulerConfig} {prepare : Job} {jobs : List Job} {t : List Exchange}

/-- What is kept while a schedule runs among sessions that expire. -/
structure Kept (config : SchedulerConfig) (prepare : Job) (jobs : List Job)
    (lives left : List ℕ) (t : List Exchange) (s : Scheduler) : Prop where
  /-- The exchanges are those of the schedule. -/
  run : Run (.new config prepare jobs) t s
  /-- Each session comes from a launch. -/
  length_lives : lives.length = (opened t).length
  /-- The counts so far, the counts left and what is left of the sessions are bounded by their
  lives. -/
  counts : countCalls t + s.countsLeft + left.sum ≤ jobs.length + 3 + lives.sum
  /-- There are no sessions before the first count. -/
  fresh : s.phase = .checking → left.sum = 0
  /-- Nothing has failed. -/
  sound : ∀ fault, s.phase ≠ .ended (.error fault)

/-- At the beginning nothing has been counted. -/
lemma kept_new (hroom : config.maxParallel ≠ 0) (prepare : Job) (jobs : List Job)
    {lives left : List ℕ} (hlives : lives = []) (hleft : left = []) :
    Kept config prepare jobs lives left [] (.new config prepare jobs) where
  run := .start
  length_lives := by rw [hlives]; rfl
  counts := by simp [countCalls, countsLeft, new, hroom, hleft]
  fresh _ := by rw [hleft]; rfl
  sound fault := by simp [new, hroom]

/-- **A request keeps the bound.** -/
lemma Kept.reply (h : runner.Expires lives left) (hroom : config.maxParallel ≠ 0)
    {state : σ} (hkept : Kept config prepare jobs (lives state) (left state) t s)
    {request : Request} (hrequest : s.request? = some request) :
    Kept config prepare jobs (lives (runner.reply request state).2)
      (left (runner.reply request state).2) (t ++ [(request, (runner.reply request state).1)])
      (s.advance (runner.reply request state).1) := by
  have hstep := step_advance hrequest (runner.admits_reply request state)
  obtain ⟨fresh, hlives, hlength, hsum, hfault⟩ := h.exists_reply request state
  constructor
  · exact hkept.run.snoc hstep
  · rw [hlives, List.length_append, opened_snoc, List.length_append, hkept.length_lives, hlength]
  · have hcounts := hkept.counts
    have hstepCounts := hstep.countsLeft_le (hkept.run.config ▸ hroom)
    rw [countCalls_snoc, hlives, List.sum_append]
    omega
  · exact fun hchecking => absurd hchecking hstep.not_checking
  · intro fault hended
    rcases hstep.cause hended with hsome | ⟨hchecking, n, hn, heq, -⟩
    · rw [hfault] at hsome
      cases hsome
    · -- the first count can find no session
      rw [heq, Exchange.count?_counted, Option.getD_some, hkept.fresh hchecking] at hsum
      rw [heq, Exchange.opened?_counted] at hlength
      obtain rfl := List.length_eq_zero_iff.mp hlength
      exact hn (Nat.add_eq_zero_iff.mp hsum).2

/-- **A run keeps the bound.** -/
lemma Kept.drive (h : runner.Expires lives left) (hroom : config.maxParallel ≠ 0) (fuel : ℕ)
    {state : σ} (hkept : Kept config prepare jobs (lives state) (left state) t s)
    (told : List Notice) :
    Kept config prepare jobs
      (lives (drive runner.recording fuel s (state, t) told).2.1.1)
      (left (drive runner.recording fuel s (state, t) told).2.1.1)
      (drive runner.recording fuel s (state, t) told).2.1.2
      (drive runner.recording fuel s (state, t) told).1 := by
  refine drive_induction runner
    (P := fun t s state => Kept config prepare jobs (lives state) (left state) t s) ?_ fuel told
    hkept
  intro t s state request hrequest hkept
  exact hkept.reply h hroom hrequest

/-- How a schedule has come to its end among sessions with some lives. -/
structure Finished (prepare : Job) (jobs : List Job) (lives : List ℕ) (t : List Exchange)
    (s : Scheduler) : Prop where
  /-- All jobs are reported as completed. -/
  outcome : s.outcome? = some (.ok ⟨{ prepare with state := .completed },
    jobs.map fun job => { job with state := .completed }, greatest (firstCounts false t).tail⟩)
  /-- The preparation and each job have been launched once, in order. -/
  launches : launchCalls t = prepare :: jobs
  /-- Each launch has started a session. -/
  length_lives : lives.length = jobs.length + 1
  /-- Apart from one count for each job and three others, each count has been of use to some
  session. -/
  counts : countCalls t ≤ jobs.length + 3 + lives.sum

/-- What is kept until the end without a fault is how a schedule finishes. -/
lemma Kept.finished {lives left : List ℕ} (h : Kept config prepare jobs lives left t s)
    {outcome : Except SchedulerFault SchedulerReport} (hended : s.phase = .ended outcome) :
    Finished prepare jobs lives t s := by
  cases outcome with
  | error fault => exact absurd hended (h.sound fault)
  | ok report =>
    obtain ⟨hlaunches, -, -⟩ := h.run.launchCalls_eq hended
    have hopened := h.run.opened_eq fun fault => h.sound fault
    constructor
    · rw [outcome?_eq_some_iff, hended, h.run.report_eq hended]
    · exact hlaunches
    · rw [h.length_lives, hopened, hlaunches, List.length_cons]
    · have := h.counts
      omega

/-- **A schedule whose sessions expire comes to its end.** Where each session is active for finitely
many counts, however many these are, and none is there at the beginning, a schedule that allows at
least one session ends without a fault, and goes on no further. It has launched the preparation and
each job once, and apart from the lives of these sessions it has made at most one count for each job
and three others.

**Proof sketch.** It ends by the lexicographic order of the launches left and of the requests left
with twice what is left of the sessions (`lex_of_request`): a count that finds no room costs one
request more, but takes at least one from the sessions. By `Step.countsLeft_le` each count is
one of those left or has found a session, which it has cost one count of its life. -/
theorem drive_finishes (h : runner.Expires lives left) (config : SchedulerConfig)
    (hmax : 1 ≤ config.maxParallel) (prepare : Job) (jobs : List Job) (state : σ)
    (hlives : lives state = []) (hleft : left state = []) (told : List Notice) :
    ∃ fuel, ∀ more, ∃ final t,
      (drive runner.recording (fuel + more) (.new config prepare jobs) (state, []) told).2.1 =
        (final, t) ∧
      Finished prepare jobs (lives final) t
        (drive runner (fuel + more) (.new config prepare jobs) state told).1 := by
  have hroom : config.maxParallel ≠ 0 := Nat.ne_of_gt hmax
  obtain ⟨fuel, hends⟩ := exists_drive_ended h (.new config prepare jobs) hroom state told
  refine ⟨fuel, fun more => ⟨_, _, rfl, ?_⟩⟩
  obtain ⟨outcome, hended⟩ := hends more
  have hkept := (kept_new hroom prepare jobs hlives hleft).drive h hroom (fuel + more) told
  rw [drive_recording] at hkept
  exact hkept.finished hended

/-- Simulated sessions of which one is active for two counts, one for none, and the others for
three. -/
def unevenLives : Rehearsal := ⟨.byCounts, [2, 0, 3], 0, none⟩

/-- A schedule of two jobs, of which one may run at a time. -/
def unevenSchedule : Scheduler :=
  .new ⟨1, ⟨0⟩, ⟨0⟩, ⟨0⟩⟩ (.new "compile" "./waf" ⟨"/tmp"⟩ ⟨"log"⟩)
    [.new "a" "./a" ⟨"/tmp"⟩ ⟨"log"⟩, .new "b" "./b" ⟨"/tmp"⟩ ⟨"log"⟩]

/-- It makes three launches and no more than ten counts, and with enough fuel it does make ten. -/
theorem drive_finishes_uneven : 1 ≤ unevenSchedule.config.maxParallel ∧
    (∃ fuel, ∀ more, ∃ final t,
      (drive unevenLives.runner.recording (fuel + more) unevenSchedule (unevenLives.start, [])
        []).2.1 = (final, t) ∧ (launchCalls t).length = 3 ∧ countCalls t ≤ 10) ∧
    countCalls (drive unevenLives.runner.recording 40 unevenSchedule (unevenLives.start, [])
      []).2.1.2 = 10 := by
  refine ⟨by decide, ?_, by decide⟩
  obtain ⟨fuel, hends⟩ := drive_finishes (unevenLives.expires rfl rfl rfl)
    unevenSchedule.config (by decide) unevenSchedule.prepare unevenSchedule.jobs
    unevenLives.start rfl rfl []
  refine ⟨fuel, fun more => ?_⟩
  obtain ⟨final, t, hfinal, hfinished⟩ := hends more
  have hlaunches : final.launches = unevenSchedule.jobs.length + 1 := by
    simpa using hfinished.length_lives
  refine ⟨final, t, hfinal, by rw [hfinished.launches]; rfl, ?_⟩
  have hcounts := hfinished.counts
  rw [hlaunches] at hcounts
  exact hcounts

end Drive

end Scheduler

end Constellation
