import Constellation.Proofs.Session.Conformance
import Constellation.Session.Screen
set_option autoImplicit false

/-!
# How long a schedule goes on

While no session is ever active a schedule never waits, so the number of its requests is bounded by
its jobs. Beyond this bound it goes on only as long as it finds sessions.

## Main definitions

* `countFinds` — the number of counts that have found sessions.
* `Scheduler.requestsLeft` — the requests that are left if no session is ever active.

## Main results

* `Scheduler.Step.requestsLeft_lt` — each request is one of them, unless it finds sessions.
* `Scheduler.lt_countFinds_of_drive` — a schedule that has not come to its end has found sessions
  again and again.
* `Scheduler.drive_of_checkStale_error` — a first count that is refused is its end.
* `Scheduler.fault_of_drive` — after its first count it ends with no fault but that of a call.
* `Screen.Course.fault_of_drive` — such a fault is a program or a job that cannot be started.
-/

namespace Constellation

/-- A count that is not refused finds no session. -/
lemma eq_of_checkStale_eq_ok {outcome : Except SchedulerFault ℕ} {done : Unit}
    (h : checkStale outcome = .ok done) : outcome = .ok 0 := by
  cases outcome with
  | error fault => cases h
  | ok n =>
    cases n with
    | zero => rfl
    | succ n => cases h

/-- The number of counts that have found sessions. -/
def countFinds (t : List Exchange) : ℕ := t.countP fun e => e.count?.getD 0 != 0

/-- Another exchange may have found sessions, too. -/
lemma countFinds_snoc (t : List Exchange) (e : Exchange) :
    countFinds (t ++ [e]) = countFinds t + min 1 (e.count?.getD 0) := by
  rw [countFinds, List.countP_append, List.countP_singleton, countFinds]
  cases e.count?.getD 0 with
  | zero => rfl
  | succ n =>
    rw [Nat.min_eq_left (Nat.succ_pos n)]
    rfl

namespace Scheduler

variable {s s' : Scheduler} {e : Exchange}

/-- The number of requests that are left if no session is ever active: three for each job, and the
last count. -/
def requestsLeft (s : Scheduler) : ℕ :=
  match s.phase with
  | .checking => 3 * s.jobs.length + 4
  | .launchingPrepare => 3 * s.jobs.length + 3
  | .pollingPrepare => 3 * s.jobs.length + 2
  | .pausingPrepare => 3 * s.jobs.length + 3
  | .launching _ rest => 3 * rest.length + 4
  | .polling _ rest => 3 * rest.length + 3
  | .pausing _ rest => 3 * rest.length + 4
  | .delaying rest => 3 * rest.length + 2
  | .pollingLast => 1
  | .pausingLast => 2
  | .ended _ => 0

/-- What is left before some jobs. -/
lemma requestsLeft_of_phaseBefore (s : Scheduler) (jobs : List Job)
    (h : s.phase = phaseBefore jobs) : s.requestsLeft = 3 * jobs.length + 1 := by
  rw [requestsLeft, h]
  cases jobs <;> rfl

/-- A schedule that asks for something has requests left. -/
lemma requestsLeft_pos {request : Request} (h : s.request? = some request) :
    0 < s.requestsLeft := by
  rw [requestsLeft]
  cases hphase : s.phase with
  | ended outcome =>
    rw [request?_ended hphase] at h
    cases h
  | _ => exact Nat.succ_pos _

/-- **A request brings the schedule closer to its end**, unless it finds sessions. -/
lemma Step.requestsLeft_lt (h : Step s e s') (hroom : s.config.maxParallel ≠ 0) :
    s'.requestsLeft < s.requestsLeft + 2 * min 1 (e.count?.getD 0) := by
  cases h with
  | full n first rest h hn =>
    -- there is room for one session at least, so some have been found
    simp only [requestsLeft, goto, h, Exchange.count?_counted, Option.getD_some]
    omega
  | stale n h hn | preparing n h hn | finishing n h hn | room n first rest h hn =>
    simp only [requestsLeft, goto, fail, h, Exchange.count?_counted, Option.getD_some]
    omega
  | prepared h =>
    rw [requestsLeft_of_phaseBefore _ s.jobs rfl]
    simp [requestsLeft, h]
  | delayed rest h =>
    rw [requestsLeft_of_phaseBefore _ rest rfl]
    simp [requestsLeft, h]
  | failed e fault h _ _ => exact Nat.lt_add_right _ (requestsLeft_pos h)
  | _ => simp [requestsLeft, goto, *]

/-- The requests so far and those that are left are no more than there were at first, apart from two
for each count that has found sessions. -/
structure Paced (s : Scheduler) (first : ℕ) (t : List Exchange) : Prop where
  /-- There is room for some session. -/
  room : s.config.maxParallel ≠ 0
  /-- The requests are bounded. -/
  requests : s.requestsLeft + t.length ≤ first + 2 * countFinds t

/-- A request is one of those that were left, or finds sessions. -/
lemma Step.paced (h : Step s e s') {first : ℕ} {t : List Exchange} (hpaced : s.Paced first t) :
    s'.Paced first (t ++ [e]) where
  room := h.config ▸ hpaced.room
  requests := by
    have hless := h.requestsLeft_lt hpaced.room
    have hbound := hpaced.requests
    rw [countFinds_snoc, List.length_append, List.length_singleton]
    omega

/-- A schedule that asks for nothing has ended. -/
lemma exists_ended_of_request? (h : s.request? = none) : ∃ outcome, s.phase = .ended outcome := by
  cases hphase : s.phase with
  | ended outcome => exact ⟨outcome, rfl⟩
  | _ => simp [request?, hphase] at h

/-- A schedule that has ended asks for nothing more. -/
lemma drive_ended {σ : Type} (runner : Runner σ) (fuel : ℕ) (state : σ) (told : List Notice)
    {outcome : Except SchedulerFault SchedulerReport} (h : s.phase = .ended outcome) :
    drive runner fuel s state told = (s, state, told) := by
  cases fuel with
  | zero => rfl
  | succ fuel => rw [drive, request?_ended h]

/-- A schedule that asks for something goes on with the reply. -/
lemma drive_succ {σ : Type} (runner : Runner σ) (fuel : ℕ) (state : σ) (told : List Notice)
    {request : Request} (h : s.request? = some request) :
    drive runner (fuel + 1) s state told =
      drive runner fuel (s.advance (runner.reply request state).1) (runner.reply request state).2
        ((s.notices (runner.reply request state).1).reverse ++ told) := by
  rw [drive, h]

section Drive

variable {σ : Type} {runner : Runner σ}

/-- **A schedule that has not come to its end has found sessions**, and more often than the
requests allow that it has been given beyond those that it needs without any.

**Proof sketch.** The requests so far and those left are no more than those left at the beginning
and two for each count that has found sessions (`Step.requestsLeft_lt`). A schedule that has not
come to its end has used up all requests that it has been given, and at least one is left. -/
lemma lt_countFinds_of_drive (hroom : s.config.maxParallel ≠ 0) {fuel patience : ℕ}
    (hfuel : s.requestsLeft + 2 * patience ≤ fuel) {state : σ} {told : List Notice}
    (hopen : (drive runner fuel s state told).1.outcome? = none) :
    patience < countFinds (drive runner.recording fuel s (state, []) told).2.1.2 := by
  have hpaced : (drive runner.recording fuel s (state, []) told).1.Paced s.requestsLeft
      (drive runner.recording fuel s (state, []) told).2.1.2 := by
    refine drive_induction runner (P := fun t s' _ => s'.Paced s.requestsLeft t) ?_ fuel told
      ⟨hroom, Nat.le_refl _⟩
    intro t s' state request hrequest hpaced
    exact (step_advance hrequest (runner.admits_reply request state)).paced hpaced
  rw [← drive_recording runner fuel s state []] at hopen
  have hlength := length_drive runner fuel s state [] told hopen
  generalize drive runner.recording fuel s (state, []) told = final at hopen hpaced hlength
  have hbound := hpaced.requests
  have hpos : 0 < final.1.requestsLeft := by
    cases hrequest : final.1.request? with
    | some request => exact requestsLeft_pos hrequest
    | none =>
      obtain ⟨outcome, hended⟩ := exists_ended_of_request? hrequest
      rw [(outcome?_eq_some_iff _ _).mpr hended] at hopen
      cases hopen
  rw [hlength, List.length_nil] at hbound
  omega

/-- A schedule finds no sessions where there are none. -/
lemma countFinds_drive_eq_zero
    (hcount : ∀ state n, (runner.count state).1 = .ok n → n = 0) (fuel : ℕ) (s : Scheduler)
    (state : σ) (told : List Notice) :
    countFinds (drive runner.recording fuel s (state, []) told).2.1.2 = 0 := by
  refine drive_induction runner (P := fun t _ _ => countFinds t = 0) ?_ fuel told rfl
  intro t s state request hrequest hnone
  rw [countFinds_snoc, hnone, Nat.zero_add]
  cases request with
  | count =>
    change min 1 ((Exchange.count? (.count, .counted (runner.count state).1)).getD 0) = 0
    cases hresult : (runner.count state).1 with
    | error fault => rfl
    | ok n =>
      rw [hcount state n hresult]
      rfl
  | launch job => rfl
  | sleep duration => rfl

/-- **A first count that is refused is the end.** -/
lemma drive_of_checkStale_error (hphase : s.phase = .checking) {state : σ} {fault : SchedulerFault}
    (h : checkStale (runner.count state).1 = .error fault) (fuel : ℕ) (told : List Notice) :
    drive runner (fuel + 1) s state told = (s.fail fault, (runner.count state).2, told) := by
  have hrequest : s.request? = some .count := by rw [request?, hphase]
  have hfailed : (s.fail fault).phase = .ended (.error fault) := rfl
  rw [drive_succ runner fuel state told hrequest, Runner.reply]
  dsimp only
  cases hcount : (runner.count state).1 with
  | error fault' =>
    rw [hcount] at h
    cases h
    have hadvance : s.advance (.counted (.error fault)) = s.fail fault := by
      simp [advance, hrequest]
    have hnotices : s.notices (.counted (.error fault)) = [] := by simp [notices, hphase]
    rw [hadvance, hnotices]
    exact drive_ended runner fuel _ told hfailed
  | ok n =>
    rw [hcount] at h
    cases n with
    | zero => cases h
    | succ n =>
      cases h
      have hadvance : s.advance (.counted (.ok (n + 1))) = s.fail (.staleSessions (n + 1)) := by
        simp [advance, hrequest, afterCount, hphase]
      have hnotices : s.notices (.counted (.ok (n + 1))) = [] := by simp [notices, hphase]
      rw [hadvance, hnotices]
      exact drive_ended runner fuel _ told hfailed

/-- After a first count that is not refused the preparation is launched. -/
lemma drive_of_checkStale_ok (hphase : s.phase = .checking) {state : σ} {done : Unit}
    (h : checkStale (runner.count state).1 = .ok done) (fuel : ℕ) (told : List Notice) :
    ∃ told', drive runner (fuel + 1) s state told =
      drive runner fuel (s.goto .launchingPrepare) (runner.count state).2 told' := by
  have hrequest : s.request? = some .count := by rw [request?, hphase]
  have hadvance : s.advance (.counted (.ok 0)) = s.goto .launchingPrepare := by
    simp [advance, hrequest, afterCount, hphase]
  rw [drive_succ runner fuel state told hrequest, Runner.reply]
  dsimp only
  rw [eq_of_checkStale_eq_ok h, hadvance]
  exact ⟨_, rfl⟩

/-- A fault in an exchange is that of a count or of a launch. -/
lemma fault_of_reply {request : Request} {state : σ} {fault : SchedulerFault}
    (h : Exchange.fault? (request, (runner.reply request state).1) = some fault) :
    (runner.count state).1 = .error fault ∨ ∃ job, (runner.launch job state).1 = .error fault := by
  cases request with
  | count =>
    change Exchange.fault? (.count, .counted (runner.count state).1) = _ at h
    cases hresult : (runner.count state).1 with
    | ok n =>
      rw [hresult] at h
      cases h
    | error fault' =>
      rw [hresult] at h
      cases h
      exact Or.inl rfl
  | launch job =>
    change Exchange.fault? (.launch job, .launched (runner.launch job state).1) = _ at h
    cases hresult : (runner.launch job state).1 with
    | ok n =>
      rw [hresult] at h
      cases h
    | error fault' =>
      rw [hresult] at h
      cases h
      exact Or.inr ⟨job, hresult⟩
  | sleep duration => cases h

/-- **After its first count a schedule ends with no fault but that of a call.** -/
lemma fault_of_drive {allowed : SchedulerFault → Prop}
    (hcount : ∀ state fault, (runner.count state).1 = .error fault → allowed fault)
    (hlaunch : ∀ job state fault, (runner.launch job state).1 = .error fault → allowed fault)
    (hpast : s.phase ≠ .checking) (hs : ∀ fault, s.phase = .ended (.error fault) → allowed fault)
    {fuel : ℕ} {state : σ} {told : List Notice} {fault : SchedulerFault}
    (hended : (drive runner fuel s state told).1.phase = .ended (.error fault)) :
    allowed fault := by
  have hkept : (drive runner.recording fuel s (state, []) told).1.phase ≠ .checking ∧
      ∀ fault, (drive runner.recording fuel s (state, []) told).1.phase = .ended (.error fault) →
        allowed fault := by
    refine drive_induction runner (P := fun _ s' _ => s'.phase ≠ .checking ∧
      ∀ fault, s'.phase = .ended (.error fault) → allowed fault) ?_ fuel told ⟨hpast, hs⟩
    intro t s' state request hrequest hpast
    have hstep := step_advance hrequest (runner.admits_reply request state)
    refine ⟨hstep.not_checking, fun fault hended => ?_⟩
    rcases hstep.cause hended with hfault | ⟨hchecking, -⟩
    · rcases fault_of_reply hfault with hfault | ⟨job, hfault⟩
      · exact hcount state fault hfault
      · exact hlaunch job state fault hfault
    · exact absurd hchecking hpast.1
  rw [drive_recording] at hkept
  exact hkept.2 fault hended

end Drive

end Scheduler

/-! ## The program that keeps sessions -/

namespace Screen

/-- A program or a job cannot be started. -/
def IsFaultOfCall (fault : SchedulerFault) : Prop :=
  (∃ cause, fault = .file cause) ∨ ∃ job reason, fault = .launch job reason

/-- Sessions cannot be counted if there is no program that lists them. -/
lemma isFaultOfCall_of_count {screen : Screen} {fault : SchedulerFault}
    (h : screen.count = .error fault) : IsFaultOfCall fault := by
  unfold count at h
  split at h <;> cases h
  exact Or.inl ⟨_, rfl⟩

/-- A launch fails because the program cannot be started or says so. -/
lemma isFaultOfCall_of_launch {screen : Screen} {job : Job} {given : List (List String)}
    {fault : SchedulerFault} (h : (screen.launch job given).1 = .error fault) :
    IsFaultOfCall fault := by
  rw [launch] at h
  split at h
  · cases h
    exact Or.inl ⟨_, rfl⟩
  · split at h
    · cases h
      exact Or.inl ⟨_, rfl⟩
    · split at h
      · cases h
        exact Or.inl ⟨_, rfl⟩
      · dsimp only at h
        split at h
        · cases h
        · cases h
          exact Or.inr ⟨_, _, rfl⟩

/-- A count is answered as it is by then. -/
lemma Course.count_runner (course : Course) (calls : Calls) :
    course.runner.count calls =
      ((course.after calls.requests).count, ⟨calls.requests + 1, calls.launched⟩) := rfl

/-- So is a launch. -/
lemma Course.fst_launch_runner (course : Course) (job : Job) (calls : Calls) :
    (course.runner.launch job calls).1 =
      ((course.after calls.requests).launch job calls.launched).1 := by
  simp only [Course.runner, Screen.runner]

/-- **After its first count a schedule ends with no fault but a program or a job that cannot be
started**, however the program answers. -/
lemma Course.fault_of_drive {course : Course} {s : Scheduler} {fuel : ℕ} {calls : Calls}
    {told : List Notice} {fault : SchedulerFault} (hpast : s.phase ≠ .checking)
    (hs : ∀ outcome, s.phase ≠ .ended outcome)
    (hended : (Scheduler.drive course.runner fuel s calls told).1.phase = .ended (.error fault)) :
    IsFaultOfCall fault := by
  refine Scheduler.fault_of_drive (fun calls fault h => ?_) (fun job calls fault h => ?_) hpast
    (fun _ h => absurd h (hs _)) hended
  · rw [count_runner] at h
    exact isFaultOfCall_of_count h
  · rw [fst_launch_runner] at h
    exact isFaultOfCall_of_launch h

end Screen

end Constellation
