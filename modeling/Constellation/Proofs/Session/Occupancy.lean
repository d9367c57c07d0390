import Mathlib.Data.Finset.Card
import Constellation.Proofs.Session.Ledger
set_option autoImplicit false

/-!
# The bound on live sessions

A schedule sees sessions only when it counts them, and they may end at any moment. Still there are
never more of them than the schedule allows, and none is left when it has come to its end.

## Main definitions

* `Session` — a session, known by the launch that it comes from.
* `Scene` — a schedule among the live sessions, with the exchanges so far.
* `Scene.Event`, `Scene.play` — what may happen next, and what comes of it.
* `Scheduler.Allows` — which sessions may be live in a phase.
* `Scene.Bounded` — what holds of the live sessions.
* `Runner.Hosts` — an environment in which schedules run among sessions.

## Main results

* `Scheduler.Step.allows` — a step keeps the sessions allowed.
* `Scene.Sound.after` — an event does so as well.
* `Scene.play_bounded` — the bound, whatever happens in whatever order.
* `Scene.exists_play_drive` — a schedule in an environment of sessions is one of these plays.

## Design

A count is out of date as soon as it has been taken. That a phase allows some sessions therefore
must not be lost when one of them ends, so it bounds their number only from above.
-/

namespace Constellation

/-- A session, known by the launch that it comes from. -/
inductive Session
  /-- It has been there from the beginning. -/
  | foreign (id : ℕ)
  /-- It comes from a launch. These are numbered, and that of the preparation is number zero. -/
  | launched (number : ℕ)
  deriving DecidableEq

/-- The job for which a session has been launched. -/
def Exchange.opened? (e : Exchange) : Option Job :=
  match e with
  | (.launch job, .launched (.ok ())) => some job
  | _ => none

namespace Exchange

@[simp] lemma opened?_counted (n : ℕ) : (counted n).opened? = none := rfl
@[simp] lemma opened?_launched (job : Job) : (launched job).opened? = some job := rfl
@[simp] lemma opened?_paused (duration : Duration) : (paused duration).opened? = none := rfl

/-- A launch that fails starts no session. -/
lemma opened?_eq_none {e : Exchange} {fault : SchedulerFault} (h : e.fault? = some fault) :
    e.opened? = none := by
  match e, h with
  | (.count, _), _ => rfl
  | (.sleep _, _), _ => rfl
  | (.launch _, .counted _), _ => rfl
  | (.launch _, .slept), _ => rfl
  | (.launch _, .launched (.error _)), _ => rfl

/-- The sessions that are live after an exchange, if `number` have been launched before it. -/
def sessions (e : Exchange) (number : ℕ) (live : Finset Session) : Finset Session :=
  match e.opened? with
  | some _ => insert (.launched number) live
  | none => live

@[simp] lemma sessions_counted (n number : ℕ) (live : Finset Session) :
    (counted n).sessions number live = live := rfl

@[simp] lemma sessions_launched (job : Job) (number : ℕ) (live : Finset Session) :
    (launched job).sessions number live = insert (.launched number) live := rfl

@[simp] lemma sessions_paused (duration : Duration) (number : ℕ) (live : Finset Session) :
    (paused duration).sessions number live = live := rfl

end Exchange

/-- The jobs for which sessions have been launched, in order. -/
def opened (t : List Exchange) : List Job := t.filterMap Exchange.opened?

lemma opened_snoc (t : List Exchange) (e : Exchange) :
    opened (t ++ [e]) = opened t ++ e.opened?.toList := by
  cases h : e.opened? <;> simp [opened, h]

/-- A schedule among the live sessions, with the exchanges so far. -/
structure Scene where
  /-- The schedule. -/
  scheduler : Scheduler
  /-- The sessions that are live. -/
  live : Finset Session
  /-- What has been asked and answered. -/
  past : List Exchange

namespace Scene

/-- What may happen next. -/
inductive Event
  /-- A session ends. -/
  | ending (session : Session)
  /-- The next call is answered, by a fault if one is given. -/
  | calling (fault? : Option SchedulerFault)

/-- A schedule that has not begun, among some sessions. -/
def start (config : SchedulerConfig) (prepare : Job) (jobs : List Job) (strangers : Finset ℕ) :
    Scene where
  scheduler := .new config prepare jobs
  live := strangers.image .foreign
  past := []

/-- How a call is answered: the number of active sessions is the number of live ones. A pause
cannot fail. -/
def reply (scene : Scene) (fault? : Option SchedulerFault) : Request → Reply
  | .count => .counted (fault?.elim (.ok scene.live.card) .error)
  | .launch _ => .launched (fault?.elim (.ok ()) .error)
  | .sleep _ => .slept

/-- The scene after an exchange. -/
def exchange (scene : Scene) (e : Exchange) : Scene where
  scheduler := scene.scheduler.advance e.2
  live := e.sessions (opened scene.past).length scene.live
  past := scene.past ++ [e]

/-- The scene after an event. -/
def after (scene : Scene) : Event → Scene
  | .ending session => { scene with live := scene.live.erase session }
  | .calling fault? =>
    match scene.scheduler.request? with
    | none => scene
    | some request => scene.exchange (request, scene.reply fault? request)

/-- The scene after some events. -/
def play (scene : Scene) (events : List Event) : Scene := events.foldl after scene

@[simp] lemma play_append (scene : Scene) (events events' : List Event) :
    scene.play (events ++ events') = (scene.play events).play events' := List.foldl_append

/-- The first count has found no session. -/
def Cleared (scene : Scene) : Prop := scene.past.head? = some (.counted 0)

/-- What holds of the live sessions while a schedule runs. -/
structure Bounded (config : SchedulerConfig) (prepare : Job) (jobs : List Job) (scene : Scene) :
    Prop where
  /-- There are never more than may run at the same time. -/
  card_le : scene.Cleared → scene.live.card ≤ config.maxParallel
  /-- The preparation runs alone. -/
  alone : .launched 0 ∈ scene.live → ∀ number, .launched (number + 1) ∉ scene.live
  /-- Each one that comes from a launch belongs to a job that has been launched. -/
  number_lt : ∀ number, .launched number ∈ scene.live → number < (opened scene.past).length
  /-- At the end all jobs have been launched once and have ended, and none is left. -/
  ended : ∀ report, scene.scheduler.outcome? = some (.ok report) →
    report.peakActive ≤ config.maxParallel ∧ scene.live = ∅ ∧
      opened scene.past = prepare :: jobs ∧ report.prepare = { prepare with state := .completed } ∧
      report.jobs = jobs.map fun job => { job with state := .completed }

end Scene

namespace Scheduler

/-- Which sessions may be live in a phase, if `number` have been launched. -/
def Allows (s : Scheduler) (number : ℕ) (live : Finset Session) : Prop :=
  match s.phase with
  | .checking => 0 < s.config.maxParallel ∧ number = 0
  | .launchingPrepare => 0 < s.config.maxParallel ∧ number = 0 ∧ live = ∅
  | .pollingPrepare | .pausingPrepare =>
    0 < s.config.maxParallel ∧ number ≠ 0 ∧ live ⊆ {.launched 0}
  | .launching _ _ | .delaying _ =>
    number ≠ 0 ∧ .launched 0 ∉ live ∧ live.card < s.config.maxParallel
  | .polling first _ => number ≠ 0 ∧ .launched 0 ∉ live ∧ live.card ≤ s.config.maxParallel ∧
      first.getD 0 ≤ s.config.maxParallel
  | .pausing first _ => number ≠ 0 ∧ .launched 0 ∉ live ∧ live.card ≤ s.config.maxParallel ∧
      first ≤ s.config.maxParallel
  | .pollingLast | .pausingLast =>
    number ≠ 0 ∧ .launched 0 ∉ live ∧ live.card ≤ s.config.maxParallel
  | .ended (.ok _) => live = ∅
  | .ended (.error _) => True

/-- A session may end at any moment. -/
lemma Allows.mono {s : Scheduler} {number : ℕ} {live live' : Finset Session}
    (h : s.Allows number live) (hsub : live' ⊆ live) : s.Allows number live' := by
  have hcard := Finset.card_le_card hsub
  have hnone : live = ∅ → live' = ∅ := fun hempty => Finset.subset_empty.mp (hempty ▸ hsub)
  have hmem : .launched 0 ∉ live → .launched 0 ∉ live' := fun hnot hin => hnot (hsub hin)
  cases hphase : s.phase with
  | checking => simpa [Allows, hphase] using h
  | launchingPrepare =>
    obtain ⟨hmax, hnumber, hempty⟩ : 0 < s.config.maxParallel ∧ number = 0 ∧ live = ∅ := by
      simpa [Allows, hphase] using h
    simpa [Allows, hphase] using ⟨hmax, hnumber, hnone hempty⟩
  | pollingPrepare | pausingPrepare =>
    obtain ⟨hmax, hnumber, hsingle⟩ : 0 < s.config.maxParallel ∧ number ≠ 0 ∧
        live ⊆ {.launched 0} := by
      simpa only [Allows, hphase] using h
    simpa only [Allows, hphase] using ⟨hmax, hnumber, hsub.trans hsingle⟩
  | launching job rest | delaying rest =>
    obtain ⟨hnumber, hnot, hlt⟩ : number ≠ 0 ∧ .launched 0 ∉ live ∧
        live.card < s.config.maxParallel := by
      simpa only [Allows, hphase] using h
    simpa only [Allows, hphase] using ⟨hnumber, hmem hnot, hcard.trans_lt hlt⟩
  | polling first rest | pausing first rest =>
    simp only [Allows, hphase] at h ⊢
    exact ⟨h.1, hmem h.2.1, hcard.trans h.2.2.1, h.2.2.2⟩
  | pollingLast | pausingLast =>
    simp only [Allows, hphase] at h ⊢
    exact ⟨h.1, hmem h.2.1, hcard.trans h.2.2⟩
  | ended outcome =>
    cases outcome with
    | ok report => simpa [Allows, hphase] using hnone (by simpa [Allows, hphase] using h)
    | error fault => simp [Allows, hphase]

/-- **A step keeps the sessions allowed**, if what it counts is their number. -/
lemma Step.allows {s s' : Scheduler} {e : Exchange} (h : Step s e s') {number : ℕ}
    {live : Finset Session} (hcount : ∀ n, e.count? = some n → n = live.card)
    (ha : s.Allows number live) :
    s'.Allows (number + e.opened?.toList.length) (e.sessions number live) := by
  cases h with
  | clear h =>
    have hempty : live = ∅ := Finset.card_eq_zero.mp (hcount 0 rfl).symm
    simp only [Allows, h] at ha
    exact ⟨ha.1, ha.2, hempty⟩
  | stale n h hn => trivial
  | prepare h =>
    simp only [Allows, h] at ha
    obtain ⟨hmax, rfl, rfl⟩ := ha
    exact ⟨hmax, by simp, by simp⟩
  | prepared h =>
    obtain rfl : live = ∅ := Finset.card_eq_zero.mp (hcount 0 rfl).symm
    simp only [Allows, h] at ha
    cases s.jobs with
    | nil => exact ⟨ha.2.1, Finset.notMem_empty _, Nat.zero_le _⟩
    | cons job rest => exact ⟨ha.2.1, Finset.notMem_empty _, ha.1⟩
  | preparing n h hn =>
    simp only [Allows, h] at ha
    exact ha
  | pausedPrepare h =>
    simp only [Allows, h] at ha
    exact ha
  | launch job rest h =>
    simp only [Allows, h] at ha
    obtain ⟨hnumber, hnot, hlt⟩ := ha
    refine ⟨by simp, ?_, (Finset.card_insert_le _ _).trans hlt, Nat.zero_le _⟩
    simp [hnot, Ne.symm hnumber]
  | room n first rest h hn =>
    obtain rfl := hcount n rfl
    simp only [Allows, h] at ha
    exact ⟨ha.1, ha.2.1, hn⟩
  | full n first rest h hn =>
    obtain rfl := hcount n rfl
    simp only [Allows, h] at ha
    obtain ⟨hnumber, hnot, hcard, hfirst⟩ := ha
    refine ⟨hnumber, hnot, hcard, ?_⟩
    cases first with
    | none => exact hcard
    | some m => exact hfirst
  | paused first rest h =>
    simp only [Allows, h] at ha
    exact ha
  | delayed rest h =>
    simp only [Allows, h] at ha
    cases rest with
    | nil => exact ⟨ha.1, ha.2.1, ha.2.2.le⟩
    | cons job rest => exact ha
  | done h => exact Finset.card_eq_zero.mp (hcount 0 rfl).symm
  | finishing n h hn =>
    simp only [Allows, h] at ha
    exact ha
  | pausedLast h =>
    simp only [Allows, h] at ha
    exact ha
  | failed e fault h hadmits hfault => trivial

/-- A step keeps the bound on the greatest first count. -/
lemma Step.peakActive_le {s s' : Scheduler} {e : Exchange} (h : Step s e s') {number : ℕ}
    {live : Finset Session} (hcount : ∀ n, e.count? = some n → n = live.card)
    (ha : s.Allows number live) (hp : s.peakActive ≤ s.config.maxParallel) :
    s'.peakActive ≤ s'.config.maxParallel := by
  cases h with
  | room n first rest h hn =>
    simp only [Allows, h] at ha
    obtain ⟨-, -, -, hfirst⟩ := ha
    refine max_le hp ?_
    cases first with
    | none => exact hn.le
    | some m => exact hfirst
  | _ => exact hp

/-- Where a launch is due there is room for its session, and that of the preparation is not live.
The preparation itself is launched among no sessions at all. -/
lemma Step.room_of_opened {s s' : Scheduler} {e : Exchange} (h : Step s e s') {number : ℕ}
    {live : Finset Session} (ha : s.Allows number live) {job : Job}
    (hjob : e.opened? = some job) :
    live.card < s.config.maxParallel ∧ .launched 0 ∉ live ∧ (number = 0 → live = ∅) := by
  cases h with
  | prepare h =>
    simp only [Allows, h] at ha
    obtain ⟨hmax, -, rfl⟩ := ha
    exact ⟨hmax, Finset.notMem_empty _, fun _ => rfl⟩
  | launch job rest h =>
    simp only [Allows, h] at ha
    exact ⟨ha.2.2, ha.2.1, fun hzero => absurd hzero ha.1⟩
  | failed e fault h hadmits hfault => simp [Exchange.opened?_eq_none hfault] at hjob
  | _ => simp at hjob

/-- Before the first exchange any sessions are allowed. -/
lemma allows_new (config : SchedulerConfig) (prepare : Job) (jobs : List Job)
    (live : Finset Session) : (new config prepare jobs).Allows 0 live := by
  by_cases h : config.maxParallel = 0
  · simp [Allows, new, h]
  · simp [Allows, new, h, Nat.pos_of_ne_zero h]

/-- Unless it fails, each call for a launch starts a session. -/
lemma Step.opened?_eq {s s' : Scheduler} {e : Exchange} (h : Step s e s')
    (hopen : ∀ fault, s'.phase ≠ .ended (.error fault)) : e.opened? = e.job? := by
  cases h with
  | failed e fault h hadmits hfault => exact absurd rfl (hopen fault)
  | _ => rfl

/-- Unless a run has failed, each call for a launch has started a session. -/
lemma Run.opened_eq {s₀ s : Scheduler} {t : List Exchange} (h : Run s₀ t s)
    (hopen : ∀ fault, s.phase ≠ .ended (.error fault)) : opened t = launchCalls t := by
  induction h with
  | start => rfl
  | snoc hrun hstep ih =>
    rw [opened_snoc, launchCalls_append, launchCalls_singleton, hstep.opened?_eq hopen,
      ih fun fault => hstep.not_ended _]

end Scheduler

namespace Scene

/-- What is kept by all events. -/
structure Sound (config : SchedulerConfig) (prepare : Job) (jobs : List Job) (scene : Scene) :
    Prop where
  /-- The exchanges are those of the schedule. -/
  run : Scheduler.Run (.new config prepare jobs) scene.past scene.scheduler
  /-- Its phase allows the live sessions. -/
  allows : scene.scheduler.Allows (opened scene.past).length scene.live
  /-- No first count has been too great. -/
  peakActive_le : scene.scheduler.peakActive ≤ config.maxParallel
  /-- There are never more sessions than may run at the same time. -/
  card_le : scene.Cleared → scene.live.card ≤ config.maxParallel
  /-- The preparation runs alone. -/
  alone : .launched 0 ∈ scene.live → ∀ number, .launched (number + 1) ∉ scene.live
  /-- Sessions are numbered by launches. -/
  number_lt : ∀ number, .launched number ∈ scene.live → number < (opened scene.past).length

variable {config : SchedulerConfig} {prepare : Job} {jobs : List Job} {scene : Scene}

/-- At the beginning all is sound. -/
lemma sound_start (strangers : Finset ℕ) :
    Sound config prepare jobs (start config prepare jobs strangers) where
  run := .start
  allows := Scheduler.allows_new config prepare jobs _
  peakActive_le := Nat.zero_le _
  card_le := fun hcleared => by cases hcleared
  alone := fun hlive => by simp [start] at hlive
  number_lt := fun number hlive => by simp [start] at hlive

namespace Sound

/-- A session may end at any moment. -/
lemma ending (h : Sound config prepare jobs scene) (session : Session) :
    Sound config prepare jobs (scene.after (.ending session)) where
  run := h.run
  allows := h.allows.mono (Finset.erase_subset _ _)
  peakActive_le := h.peakActive_le
  card_le := fun hcleared => (Finset.card_erase_le).trans (h.card_le hcleared)
  alone := fun hlive number hother =>
    h.alone (Finset.mem_of_mem_erase hlive) number (Finset.mem_of_mem_erase hother)
  number_lt := fun number hlive => h.number_lt number (Finset.mem_of_mem_erase hlive)

/-- A session that is launched is another one. -/
lemma notMem (h : Sound config prepare jobs scene) :
    .launched (opened scene.past).length ∉ scene.live :=
  fun hlive => lt_irrefl _ (h.number_lt _ hlive)

/-- There is room for the session of an exchange. -/
lemma card_sessions_le (h : Sound config prepare jobs scene) {e : Exchange} {s' : Scheduler}
    (hstep : Scheduler.Step scene.scheduler e s')
    (hcount : ∀ n, e.count? = some n → n = scene.live.card)
    (hcleared : (scene.past ++ [e]).head? = some (.counted 0)) :
    (e.sessions (opened scene.past).length scene.live).card ≤ config.maxParallel := by
  cases hjob : e.opened? with
  | some job =>
    have hroom := (hstep.room_of_opened h.allows hjob).1
    rw [h.run.config] at hroom
    simp only [Exchange.sessions, hjob]
    rwa [Finset.card_insert_of_notMem h.notMem]
  | none =>
    simp only [Exchange.sessions, hjob]
    cases hpast : scene.past with
    | nil =>
      obtain rfl : e = .counted 0 := by simpa [hpast] using hcleared
      rw [← hcount 0 rfl]
      exact Nat.zero_le _
    | cons e' past => exact h.card_le (by simpa [Cleared, hpast] using hcleared)

/-- The preparation still runs alone after an exchange. -/
lemma alone_sessions (h : Sound config prepare jobs scene) {e : Exchange} {s' : Scheduler}
    (hstep : Scheduler.Step scene.scheduler e s')
    (hlive : .launched 0 ∈ e.sessions (opened scene.past).length scene.live) (number : ℕ) :
    .launched (number + 1) ∉ e.sessions (opened scene.past).length scene.live := by
  cases hjob : e.opened? with
  | some job =>
    obtain ⟨-, hnot, hempty⟩ := hstep.room_of_opened h.allows hjob
    simp only [Exchange.sessions, hjob, Finset.mem_insert, Session.launched.injEq, hnot,
      or_false] at hlive ⊢
    simp [← hlive, hempty hlive.symm]
  | none =>
    simp only [Exchange.sessions, hjob] at hlive ⊢
    exact h.alone hlive number

/-- Sessions are still numbered by launches after an exchange. -/
lemma number_lt_sessions (h : Sound config prepare jobs scene) (e : Exchange) (number : ℕ)
    (hlive : .launched number ∈ e.sessions (opened scene.past).length scene.live) :
    number < (opened (scene.past ++ [e])).length := by
  rw [opened_snoc, List.length_append]
  cases hjob : e.opened? with
  | some job =>
    simp only [Exchange.sessions, hjob, Finset.mem_insert, Session.launched.injEq] at hlive
    rcases hlive with rfl | hlive
    · simp
    · exact Nat.lt_add_right _ (h.number_lt number hlive)
  | none =>
    simp only [Exchange.sessions, hjob] at hlive
    simpa using h.number_lt number hlive

/-- An exchange keeps all sound. -/
lemma exchange (h : Sound config prepare jobs scene) {e : Exchange}
    (hstep : Scheduler.Step scene.scheduler e (scene.scheduler.advance e.2))
    (hcount : ∀ n, e.count? = some n → n = scene.live.card) :
    Sound config prepare jobs (scene.exchange e) where
  run := h.run.snoc hstep
  allows := by
    have hallows := hstep.allows hcount h.allows
    rwa [← List.length_append, ← opened_snoc] at hallows
  peakActive_le := by
    have hpeak : scene.scheduler.peakActive ≤ scene.scheduler.config.maxParallel := by
      rw [h.run.config]
      exact h.peakActive_le
    have hpeak' := hstep.peakActive_le hcount h.allows hpeak
    rwa [(h.run.snoc hstep).config] at hpeak'
  card_le := h.card_sessions_le hstep hcount
  alone := h.alone_sessions hstep
  number_lt := h.number_lt_sessions e

/-- **An event keeps all sound.** -/
lemma after (h : Sound config prepare jobs scene) (event : Event) :
    Sound config prepare jobs (scene.after event) := by
  cases event with
  | ending session => exact h.ending session
  | calling fault? =>
    rw [Scene.after]
    cases hrequest : scene.scheduler.request? with
    | none => exact h
    | some request =>
      have hadmits : request.Admits (scene.reply fault? request) := by
        cases request <;> exact trivial
      refine h.exchange (Scheduler.step_advance hrequest hadmits) fun n hn => ?_
      cases request <;> cases fault? <;> simp_all [reply, Exchange.count?]

/-- Whatever happens, all stays sound. -/
lemma play (h : Sound config prepare jobs scene) (events : List Event) :
    Sound config prepare jobs (scene.play events) := by
  induction events generalizing scene with
  | nil => exact h
  | cons event events ih => exact ih (h.after event)

/-- What is sound is bounded. -/
lemma bounded (h : Sound config prepare jobs scene) : Bounded config prepare jobs scene where
  card_le := h.card_le
  alone := h.alone
  number_lt := h.number_lt
  ended := by
    intro report hreport
    rw [Scheduler.outcome?_eq_some_iff] at hreport
    have hempty : scene.live = ∅ := by simpa [Scheduler.Allows, hreport] using h.allows
    have hremembered := h.run.report_eq_report (Scheduler.new_not_done config prepare jobs) hreport
    have hpeak : report.peakActive ≤ config.maxParallel := hremembered ▸ h.peakActive_le
    have hopened : opened scene.past = launchCalls scene.past :=
      h.run.opened_eq fun fault hfault => by simp [hreport] at hfault
    rw [(h.run.launchCalls_eq hreport).1] at hopened
    have hgiven := h.run.report_eq hreport
    exact ⟨hpeak, hempty, hopened, by rw [hgiven], by rw [hgiven]⟩

end Sound

/-- **Sessions are bounded**, in whatever order they end and calls are answered or fail. -/
theorem play_bounded (config : SchedulerConfig) (prepare : Job) (jobs : List Job)
    (strangers : Finset ℕ) (events : List Event) :
    Bounded config prepare jobs ((start config prepare jobs strangers).play events) :=
  ((sound_start strangers).play events).bounded

/-- A session that has been left over may end before the first count. -/
example : ((start .standard (.new "compile" "./waf" ⟨"/tmp"⟩ ⟨"log"⟩) [] {7}).play
    [.ending (.foreign 7), .calling none, .calling none]).live = {.launched 0} := by
  decide

/-! ## Schedules in an environment of sessions -/

/-- Any sessions may end between two calls. -/
lemma exists_play_ending (scene : Scene) (gone : Finset Session) :
    ∃ events, scene.play events = { scene with live := scene.live \ gone } := by
  induction gone using Finset.induction with
  | empty => exact ⟨[], by simp [play]⟩
  | insert session gone hnew ih =>
    obtain ⟨events, hevents⟩ := ih
    refine ⟨events ++ [.ending session], ?_⟩
    rw [play_append, hevents, Finset.sdiff_insert]
    rfl

/-- So any sessions may be left. -/
lemma exists_play_left (scene : Scene) {left : Finset Session} (hleft : left ⊆ scene.live) :
    ∃ events, scene.play events = { scene with live := left } := by
  obtain ⟨events, hevents⟩ := scene.exists_play_ending (scene.live \ left)
  rw [sdiff_sdiff_eq_self hleft] at hevents
  exact ⟨events, hevents⟩

/-- Each reply that counts the live sessions, if it is one to a count, may come next. -/
lemma exists_after_calling (scene : Scene) {request : Request} {reply : Reply}
    (hrequest : scene.scheduler.request? = some request) (hadmits : request.Admits reply)
    (hcount : ∀ n, Exchange.count? (request, reply) = some n → n = scene.live.card) :
    ∃ event, scene.after event = scene.exchange (request, reply) := by
  refine ⟨.calling (Exchange.fault? (request, reply)), ?_⟩
  have hreply : scene.reply (Exchange.fault? (request, reply)) request = reply := by
    match request, reply, hadmits with
    | .count, .counted (.ok n), _ =>
      rw [hcount n rfl]
      rfl
    | .count, .counted (.error fault), _ => rfl
    | .launch _, .launched (.ok ()), _ => rfl
    | .launch _, .launched (.error fault), _ => rfl
    | .sleep _, .slept, _ => rfl
  simp only [after, hrequest, hreply]

/-- Some sessions end, a call is answered, and some more sessions end. -/
lemma exists_play_call (scene : Scene) {request : Request} {reply : Reply}
    (hrequest : scene.scheduler.request? = some request) (hadmits : request.Admits reply)
    {seen left : Finset Session} (hseen : seen ⊆ scene.live)
    (hcount : ∀ n, Exchange.count? (request, reply) = some n → n = seen.card)
    (hleft : left ⊆ Exchange.sessions (request, reply) (opened scene.past).length seen) :
    ∃ events, scene.play events = { scene.exchange (request, reply) with live := left } := by
  obtain ⟨before, hbefore⟩ := scene.exists_play_left hseen
  obtain ⟨event, hevent⟩ :=
    exists_after_calling { scene with live := seen } hrequest hadmits hcount
  obtain ⟨later, hlater⟩ :=
    exists_play_left (exchange { scene with live := seen } (request, reply)) hleft
  refine ⟨before ++ event :: later, ?_⟩
  rw [play_append, hbefore, play, List.foldl_cons, hevent]
  exact hlater

end Scene

/-- What is asked of an environment and answered by it. -/
def Runner.exchange {σ : Type} (runner : Runner σ) (request : Request) (state : σ) : Exchange :=
  (request, (runner.reply request state).1)

/-- An environment whose state shows the live sessions and the number of launches. Some sessions
may end, then it counts them or launches another one, and then some may end again. -/
def Runner.Hosts {σ : Type} (runner : Runner σ) (live : σ → Finset Session) (number : σ → ℕ) :
    Prop :=
  ∀ request state, ∃ seen ⊆ live state,
    (∀ n, (runner.exchange request state).count? = some n → n = seen.card) ∧
    live (runner.reply request state).2 ⊆
      (runner.exchange request state).sessions (number state) seen ∧
    number (runner.reply request state).2 =
      number state + (runner.exchange request state).opened?.toList.length

/-- **A schedule among the sessions of an environment** comes only to scenes that can be played, so
its sessions are bounded as well. -/
theorem Scene.exists_play_drive {σ : Type} {runner : Runner σ} {live : σ → Finset Session}
    {number : σ → ℕ} (hhosts : runner.Hosts live number) (fuel : ℕ) (scene : Scene) (state : σ)
    (told : List Notice) (hlive : live state = scene.live)
    (hnumber : number state = (opened scene.past).length) :
    ∃ events, (Scheduler.drive runner fuel scene.scheduler state told).1 =
        (scene.play events).scheduler ∧
      live (Scheduler.drive runner fuel scene.scheduler state told).2.1 =
        (scene.play events).live := by
  induction fuel generalizing scene state told with
  | zero => exact ⟨[], rfl, hlive⟩
  | succ fuel ih =>
    rw [Scheduler.drive]
    cases hrequest : scene.scheduler.request? with
    | none => exact ⟨[], rfl, hlive⟩
    | some request =>
      obtain ⟨seen, hseen, hcount, hafter, hnext⟩ := hhosts request state
      rw [hlive] at hseen
      rw [hnumber] at hafter hnext
      rw [← List.length_append, ← opened_snoc] at hnext
      obtain ⟨before, hbefore⟩ := scene.exists_play_call hrequest
        (runner.admits_reply request state) hseen hcount hafter
      obtain ⟨events, hscheduler, hsessions⟩ := ih { scene.exchange (runner.exchange request state)
        with live := live (runner.reply request state).2 } (runner.reply request state).2
        ((scene.scheduler.notices (runner.reply request state).1).reverse ++ told) rfl hnext
      refine ⟨before ++ events, ?_⟩
      rw [play_append, hbefore]
      exact ⟨hscheduler, hsessions⟩

end Constellation
