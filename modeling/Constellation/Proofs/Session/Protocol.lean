import Mathlib.Computability.Language
import Constellation.Proofs.Session.Steps
set_option autoImplicit false

/-!
# The protocol of a schedule

What a schedule asks and is answered follows a fixed pattern, which is given here as a language
over exchanges: what may come in sequence, and what may be repeated.

## Main definitions

* `waiting` — counts and pauses until there are few enough sessions.
* `protocol` — the exchanges of a schedule that comes to its end.
* `Scheduler.future` — what may still come from where a schedule stands.

## Main results

* `Scheduler.Step.mem_future` — a step takes the first exchange off what may still come.
* `Scheduler.Run.mem_future` — so does a run.
* `Scheduler.exists_mem_future` — there is always a way to the end, unless there has been a fault.

## Design

The language is written down without looking at the phases. What may still come from a phase is a
part of it, and each step is checked against these parts. A schedule that has ended with a fault
has no future at all.
-/

namespace Constellation

open scoped Computability

/-- The language of a single exchange. -/
def once (e : Exchange) : Language Exchange := {w | w = [e]}

/-- The language of a single count with a property. -/
def counting (p : ℕ → Prop) : Language Exchange := {w | ∃ n, p n ∧ w = [.counted n]}

/-- Counts without a property, each with a pause after it, and at last a count with it. -/
def waiting (p : ℕ → Prop) (pause : Duration) : Language Exchange :=
  (counting (fun n => ¬ p n) * once (.paused pause))∗ * counting p

/-- Launching a job, waiting until there is room for another one, and pausing. -/
def turn (config : SchedulerConfig) (job : Job) : Language Exchange :=
  once (.launched job) * waiting (· < config.maxParallel) config.pollInterval *
    once (.paused config.launchDelay)

/-- Launching some jobs in turn and waiting until no session is left. -/
def turns (config : SchedulerConfig) (jobs : List Job) : Language Exchange :=
  (jobs.map (turn config)).prod * waiting (· = 0) config.pollInterval

/-- **The protocol.** No session is there at first. The preparation is launched, and waited for
until no session is left. Then each job is launched in turn. -/
def protocol (config : SchedulerConfig) (prepare : Job) (jobs : List Job) : Language Exchange :=
  counting (· = 0) * (once (.launched prepare) *
    (waiting (· = 0) config.preparePollInterval * turns config jobs))

/-! ## Words of the parts -/

section Parts

variable {l : Language Exchange} {w : List Exchange}

/-- An exchange before a word. -/
lemma cons_mem_once_mul (e : Exchange) (h : w ∈ l) : e :: w ∈ once e * l :=
  Language.append_mem_mul (show [e] ∈ once e from rfl) h

/-- A count before a word. -/
lemma cons_mem_counting_mul {p : ℕ → Prop} {n : ℕ} (hn : p n) (h : w ∈ l) :
    .counted n :: w ∈ counting p * l :=
  Language.append_mem_mul (show [.counted n] ∈ counting p from ⟨n, hn, rfl⟩) h

/-- Waiting is over at once, or after a pause it begins again. -/
lemma waiting_eq (p : ℕ → Prop) (pause : Duration) :
    waiting p pause =
      counting p + counting (fun n => ¬ p n) * (once (.paused pause) * waiting p pause) := by
  conv_lhs => rw [waiting, ← Language.one_add_self_mul_kstar_eq_kstar, add_mul, one_mul]
  simp only [waiting, mul_assoc]

/-- Waiting is over. -/
lemma counted_mem_waiting_mul {p : ℕ → Prop} {n : ℕ} (hn : p n) (pause : Duration) (h : w ∈ l) :
    .counted n :: w ∈ waiting p pause * l := by
  rw [waiting_eq, add_mul]
  exact Or.inl (cons_mem_counting_mul hn h)

/-- Waiting goes on. -/
lemma counted_mem_waiting_mul_of_not {p : ℕ → Prop} {n : ℕ} (hn : ¬ p n) {pause : Duration}
    (h : w ∈ once (.paused pause) * (waiting p pause * l)) :
    .counted n :: w ∈ waiting p pause * l := by
  rw [waiting_eq, add_mul, mul_assoc, mul_assoc]
  exact Or.inr (cons_mem_counting_mul hn h)

end Parts

/-- Without further jobs there is only the waiting at the end. -/
lemma turns_nil (config : SchedulerConfig) :
    turns config [] = waiting (· = 0) config.pollInterval := by
  rw [turns, List.map_nil, List.prod_nil, one_mul]

/-- The first of some jobs is launched before the others. -/
lemma turns_cons (config : SchedulerConfig) (job : Job) (rest : List Job) :
    turns config (job :: rest) = once (.launched job) *
      (waiting (· < config.maxParallel) config.pollInterval *
        (once (.paused config.launchDelay) * turns config rest)) := by
  rw [turns, List.map_cons, List.prod_cons, turn, turns]
  simp only [mul_assoc]

namespace Scheduler

/-! ## What may still come -/

/-- What may still come from where a schedule stands. -/
def future (s : Scheduler) : Language Exchange :=
  match s.phase with
  | .checking => protocol s.config s.prepare s.jobs
  | .launchingPrepare => once (.launched s.prepare) *
      (waiting (· = 0) s.config.preparePollInterval * turns s.config s.jobs)
  | .pollingPrepare => waiting (· = 0) s.config.preparePollInterval * turns s.config s.jobs
  | .pausingPrepare => once (.paused s.config.preparePollInterval) *
      (waiting (· = 0) s.config.preparePollInterval * turns s.config s.jobs)
  | .launching job rest => turns s.config (job :: rest)
  | .polling _ rest => waiting (· < s.config.maxParallel) s.config.pollInterval *
      (once (.paused s.config.launchDelay) * turns s.config rest)
  | .pausing _ rest => once (.paused s.config.pollInterval) *
      (waiting (· < s.config.maxParallel) s.config.pollInterval *
        (once (.paused s.config.launchDelay) * turns s.config rest))
  | .delaying rest => once (.paused s.config.launchDelay) * turns s.config rest
  | .pollingLast => turns s.config []
  | .pausingLast => once (.paused s.config.pollInterval) * turns s.config []
  | .ended (.ok _) => 1
  | .ended (.error _) => 0

/-- All jobs that remain are still to come. -/
lemma future_phaseBefore (s : Scheduler) (rest : List Job) (prepare : Job) :
    future { s with prepare := prepare, phase := phaseBefore rest } = turns s.config rest := by
  cases rest <;> rfl

/-- **A step takes the first exchange off what may still come.** -/
lemma Step.mem_future {s s' : Scheduler} {e : Exchange} (h : Step s e s') {w : List Exchange}
    (hw : w ∈ s'.future) : e :: w ∈ s.future := by
  cases h with
  | clear h =>
    simp only [future, goto, h] at hw ⊢
    exact cons_mem_counting_mul (p := (· = 0)) rfl hw
  | stale n h hn => exact absurd hw (Language.notMem_zero w)
  | prepare h =>
    simp only [future, h] at hw ⊢
    exact cons_mem_once_mul _ hw
  | prepared h =>
    rw [future_phaseBefore] at hw
    simp only [future, h]
    exact counted_mem_waiting_mul (p := (· = 0)) rfl _ hw
  | preparing n h hn =>
    simp only [future, goto, h] at hw ⊢
    exact counted_mem_waiting_mul_of_not (p := (· = 0)) hn hw
  | pausedPrepare h =>
    simp only [future, goto, h] at hw ⊢
    exact cons_mem_once_mul _ hw
  | launch job rest h =>
    simp only [future, h, turns_cons] at hw ⊢
    exact cons_mem_once_mul _ hw
  | room n first rest h hn =>
    simp only [future, h] at hw ⊢
    exact counted_mem_waiting_mul (p := (· < s.config.maxParallel)) hn _ hw
  | full n first rest h hn =>
    simp only [future, goto, h] at hw ⊢
    exact counted_mem_waiting_mul_of_not (p := (· < s.config.maxParallel)) hn hw
  | paused first rest h =>
    simp only [future, goto, h] at hw ⊢
    exact cons_mem_once_mul _ hw
  | delayed rest h =>
    rw [goto, future_phaseBefore] at hw
    simp only [future, h]
    exact cons_mem_once_mul _ hw
  | done h =>
    simp only [future, goto, h, turns_nil] at hw ⊢
    rw [← mul_one (waiting (· = 0) s.config.pollInterval)]
    exact counted_mem_waiting_mul (p := (· = 0)) rfl _ hw
  | finishing n h hn =>
    simp only [future, goto, h, turns_nil] at hw ⊢
    rw [← mul_one (waiting (· = 0) s.config.pollInterval)] at hw ⊢
    exact counted_mem_waiting_mul_of_not (p := (· = 0)) hn hw
  | pausedLast h =>
    simp only [future, goto, h] at hw ⊢
    exact cons_mem_once_mul _ hw
  | failed e fault h hadmits hfault => exact absurd hw (Language.notMem_zero w)

/-- A run takes its exchanges off what might come at its beginning. -/
lemma Run.mem_future {s₀ s : Scheduler} {t w : List Exchange} (h : Run s₀ t s)
    (hw : w ∈ s.future) : t ++ w ∈ s₀.future := by
  induction h generalizing w with
  | start => exact hw
  | snoc _ hstep ih =>
    rw [List.append_assoc]
    exact ih (hstep.mem_future hw)

/-! ## There is always a way to the end -/

/-- Waiting can be over at once. -/
lemma exists_mem_waiting_mul {p : ℕ → Prop} (hp : p 0) (pause : Duration) {l : Language Exchange}
    (h : ∃ w, w ∈ l) : ∃ w, w ∈ waiting p pause * l := by
  obtain ⟨w, hw⟩ := h
  exact ⟨_, counted_mem_waiting_mul hp pause hw⟩

/-- An exchange can come before what may come. -/
lemma exists_mem_once_mul (e : Exchange) {l : Language Exchange} (h : ∃ w, w ∈ l) :
    ∃ w, w ∈ once e * l := by
  obtain ⟨w, hw⟩ := h
  exact ⟨_, cons_mem_once_mul e hw⟩

/-- All jobs can be launched one after the other. -/
lemma exists_mem_turns {config : SchedulerConfig} (hmax : 0 < config.maxParallel)
    (jobs : List Job) : ∃ w, w ∈ turns config jobs := by
  induction jobs with
  | nil =>
    rw [turns_nil, ← mul_one (waiting (· = 0) config.pollInterval)]
    exact exists_mem_waiting_mul (p := (· = 0)) rfl _ ⟨[], Language.nil_mem_one⟩
  | cons job rest ih =>
    rw [turns_cons]
    exact exists_mem_once_mul _ (exists_mem_waiting_mul (p := (· < config.maxParallel)) hmax _
      (exists_mem_once_mul _ ih))

/-- **There is always a way to the end**, unless there has been a fault. -/
lemma exists_mem_future {s : Scheduler} (hmax : 0 < s.config.maxParallel)
    (hfault : ∀ fault, s.phase ≠ .ended (.error fault)) : ∃ w, w ∈ s.future := by
  have hturns := exists_mem_turns hmax
  have hroom := fun rest => exists_mem_waiting_mul (p := (· < s.config.maxParallel)) hmax
    s.config.pollInterval (exists_mem_once_mul (.paused s.config.launchDelay) (hturns rest))
  have hprepare := exists_mem_waiting_mul (p := (· = 0)) rfl s.config.preparePollInterval
    (hturns s.jobs)
  have hlaunch := exists_mem_once_mul (.launched s.prepare) hprepare
  rw [future]
  cases hphase : s.phase with
  | checking =>
    obtain ⟨w, hw⟩ := hlaunch
    exact ⟨_, cons_mem_counting_mul (n := 0) rfl hw⟩
  | launchingPrepare => exact hlaunch
  | pollingPrepare => exact hprepare
  | pausingPrepare => exact exists_mem_once_mul _ hprepare
  | launching job rest => exact hturns _
  | polling first rest => exact hroom rest
  | pausing first rest => exact exists_mem_once_mul _ (hroom rest)
  | delaying rest => exact exists_mem_once_mul _ (hturns rest)
  | pollingLast => exact hturns []
  | pausingLast => exact exists_mem_once_mul _ (hturns [])
  | ended outcome =>
    cases outcome with
    | ok report => exact ⟨[], Language.nil_mem_one⟩
    | error fault => exact absurd hphase (hfault fault)

end Scheduler

end Constellation
