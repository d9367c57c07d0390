import Mathlib.Data.List.Basic
import Constellation.Proofs.Session.Steps
set_option autoImplicit false

/-!
# The books of a schedule

A schedule remembers which jobs it has launched and the greatest count that came first after a
launch. Both can be read off its exchanges.

## Main definitions

* `launchCalls` — the jobs that were to be launched, in order.
* `firstCounts` — the counts that came first after a launch.
* `Scheduler.Booked`, `Scheduler.PeakKept` — what is remembered is what has happened.

## Main results

* `Scheduler.Step.booked`, `Scheduler.Step.peakKept` — a step keeps the books.
* `Scheduler.Run.isPrefix_launchCalls` — no job is launched out of turn, even if a call fails.
* `Scheduler.Run.report_eq` — what a schedule reports when it comes to its end.

## Design

The first count after a launch is found by looking at the exchange before it. The count after the
launch of the preparation stands first among them and is not part of the report.
-/

namespace Constellation

namespace Exchange

/-- The job that was to be launched. -/
def job? (e : Exchange) : Option Job :=
  match e.1 with
  | .launch job => some job
  | _ => none

/-- The number of sessions that was counted. -/
def count? (e : Exchange) : Option ℕ :=
  match e.2 with
  | .counted (.ok n) => some n
  | _ => none

@[simp] lemma job?_counted (n : ℕ) : (counted n).job? = none := rfl
@[simp] lemma job?_launched (job : Job) : (launched job).job? = some job := rfl
@[simp] lemma job?_paused (duration : Duration) : (paused duration).job? = none := rfl
@[simp] lemma count?_counted (n : ℕ) : (counted n).count? = some n := rfl
@[simp] lemma count?_launched (job : Job) : (launched job).count? = none := rfl
@[simp] lemma count?_paused (duration : Duration) : (paused duration).count? = none := rfl

end Exchange

/-- The jobs that were to be launched, in order. -/
def launchCalls (t : List Exchange) : List Job := t.filterMap Exchange.job?

/-- The counts that directly follow a launch. Whether one stands before the whole list is given. -/
def firstCounts : (afterLaunch : Bool) → List Exchange → List ℕ
  | _, [] => []
  | afterLaunch, e :: t =>
    (if afterLaunch then e.count?.toList else []) ++ firstCounts e.job?.isSome t

/-- Whether the last exchange is a launch. -/
def endsInLaunch (t : List Exchange) : Bool := (t.getLast?.bind Exchange.job?).isSome

/-- The greatest of some counts, or zero if there are none. -/
def greatest (counts : List ℕ) : ℕ := counts.foldr max 0

@[simp] lemma launchCalls_append (t t' : List Exchange) :
    launchCalls (t ++ t') = launchCalls t ++ launchCalls t' := List.filterMap_append

@[simp] lemma launchCalls_singleton (e : Exchange) : launchCalls [e] = e.job?.toList := by
  cases h : e.job? <;> simp [launchCalls, h]

@[simp] lemma endsInLaunch_snoc (t : List Exchange) (e : Exchange) :
    endsInLaunch (t ++ [e]) = e.job?.isSome := by
  simp [endsInLaunch]

/-- Another exchange adds its count if the exchange before it is a launch. -/
lemma firstCounts_snoc (t : List Exchange) (e : Exchange) :
    firstCounts false (t ++ [e]) =
      firstCounts false t ++ if endsInLaunch t then e.count?.toList else [] := by
  have hgeneral : ∀ afterLaunch, firstCounts afterLaunch (t ++ [e]) =
      firstCounts afterLaunch t ++
        if (t.getLast?.map fun e => e.job?.isSome).getD afterLaunch then e.count?.toList
        else [] := by
    induction t with
    | nil => simp [firstCounts]
    | cons e' t ih =>
      intro afterLaunch
      rw [List.cons_append, firstCounts, ih, firstCounts, List.append_assoc, List.getLast?_cons]
      cases t.getLast? <;> rfl
  rw [hgeneral false, endsInLaunch]
  cases t.getLast? <;> rfl

/-- The greatest of some counts and one more. -/
lemma greatest_snoc (counts : List ℕ) (n : ℕ) :
    greatest (counts ++ [n]) = max (greatest counts) n := by
  induction counts with
  | nil => simp [greatest]
  | cons m counts ih =>
    rw [List.cons_append, greatest, List.foldr_cons, ← greatest, ih, greatest, greatest,
      List.foldr_cons]
    omega

namespace Scheduler

/-- The jobs that remain to be launched once the preparation has ended. -/
def remaining (s : Scheduler) : List Job :=
  match s.phase with
  | .launching job rest => job :: rest
  | .polling _ rest | .pausing _ rest | .delaying rest => rest
  | _ => []

/-- The jobs that have been launched are remembered, each in the state that it is in. -/
def Booked (prepare : Job) (jobs : List Job) (calls : List Job) (s : Scheduler) : Prop :=
  match s.phase with
  | .checking | .launchingPrepare => calls = [] ∧ s.prepare = prepare ∧ s.launched = []
  | .pollingPrepare | .pausingPrepare =>
    calls = [prepare] ∧ s.prepare = { prepare with state := .launched } ∧ s.launched = []
  | .ended (.error _) => True
  | _ => ∃ past, jobs = past ++ s.remaining ∧ calls = prepare :: past ∧
      s.prepare = { prepare with state := .completed } ∧
      s.launched = past.map fun job => { job with state := .launched }

/-- The greatest first count after the launch of a job is remembered. The first of the first counts
is that after the launch of the preparation. -/
def PeakKept (counts : List ℕ) (afterLaunch : Bool) (s : Scheduler) : Prop :=
  match s.phase with
  | .checking | .launchingPrepare => counts = [] ∧ afterLaunch = false ∧ s.peakActive = 0
  | .pollingPrepare => (counts = [] ↔ afterLaunch = true) ∧ counts.tail = [] ∧ s.peakActive = 0
  | .pausingPrepare =>
    counts ≠ [] ∧ afterLaunch = false ∧ counts.tail = [] ∧ s.peakActive = 0
  | .polling none _ => counts ≠ [] ∧ afterLaunch = true ∧ s.peakActive = greatest counts.tail
  | .polling (some first) _ | .pausing first _ =>
    counts ≠ [] ∧ afterLaunch = false ∧ max s.peakActive first = greatest counts.tail
  | .ended (.error _) => True
  | _ => counts ≠ [] ∧ afterLaunch = false ∧ s.peakActive = greatest counts.tail

/-- A step keeps the books. -/
lemma Step.booked {s s' : Scheduler} {e : Exchange} (h : Step s e s') {prepare : Job}
    {calls : List Job} (hb : Booked prepare s.jobs calls s) :
    Booked prepare s'.jobs (calls ++ e.job?.toList) s' := by
  cases h with
  | clear h => simpa [Booked, goto, h] using hb
  | stale n h hn => trivial
  | prepare h =>
    obtain ⟨rfl, hprepare, hlaunched⟩ : calls = [] ∧ s.prepare = prepare ∧ s.launched = [] := by
      simpa [Booked, h] using hb
    simp [Booked, hprepare, hlaunched]
  | prepared h =>
    obtain ⟨rfl, hprepare, hlaunched⟩ : calls = [prepare] ∧
        s.prepare = { prepare with state := .launched } ∧ s.launched = [] := by
      simpa [Booked, h] using hb
    cases hjobs : s.jobs <;>
      simp [Booked, phaseBefore, remaining, hprepare, hlaunched]
  | preparing n h hn => simpa [Booked, goto, h] using hb
  | pausedPrepare h => simpa [Booked, goto, h] using hb
  | launch job rest h =>
    obtain ⟨past, hjobs, rfl, hprepare, hlaunched⟩ : ∃ past, s.jobs = past ++ job :: rest ∧
        calls = prepare :: past ∧ s.prepare = { prepare with state := .completed } ∧
        s.launched = past.map fun job => { job with state := .launched } := by
      simpa [Booked, remaining, h] using hb
    exact ⟨past ++ [job], by simp [hjobs, remaining], by simp, hprepare, by simp [hlaunched]⟩
  | room n first rest h hn => simpa [Booked, remaining, h] using hb
  | full n first rest h hn => simpa [Booked, remaining, goto, h] using hb
  | paused first rest h => simpa [Booked, remaining, goto, h] using hb
  | delayed rest h => cases rest <;> simpa [Booked, remaining, goto, phaseBefore, h] using hb
  | done h => simpa [Booked, remaining, goto, h] using hb
  | finishing n h hn => simpa [Booked, remaining, goto, h] using hb
  | pausedLast h => simpa [Booked, remaining, goto, h] using hb
  | failed e fault h hadmits hfault => trivial

/-- The first count after the launch of the preparation is not part of the report. -/
lemma first_counts {counts : List ℕ} {afterLaunch : Bool}
    (hnil : counts = [] ↔ afterLaunch = true) (htail : counts.tail = []) (n : ℕ) :
    (counts ++ if afterLaunch then [n] else []) ≠ [] ∧
      (counts ++ if afterLaunch then [n] else []).tail = [] := by
  cases afterLaunch with
  | true => simp [hnil.mpr rfl]
  | false => simpa [htail] using hnil

/-- The first count after the launch of a job counts for the peak, and later ones do not. -/
lemma peak_count {s : Scheduler} {first : Option ℕ} {rest : List Job}
    (h : s.phase = .polling first rest) {counts : List ℕ} {afterLaunch : Bool}
    (hp : PeakKept counts afterLaunch s) (n : ℕ) :
    (counts ++ if afterLaunch then [n] else []) ≠ [] ∧ max s.peakActive (first.getD n) =
      greatest (counts ++ if afterLaunch then [n] else []).tail := by
  cases first with
  | none =>
    obtain ⟨hne, rfl, hpeak⟩ : counts ≠ [] ∧ afterLaunch = true ∧
        s.peakActive = greatest counts.tail := by
      simpa [PeakKept, h] using hp
    simp [List.tail_append_of_ne_nil hne, greatest_snoc, hpeak]
  | some m =>
    obtain ⟨hne, rfl, hpeak⟩ : counts ≠ [] ∧ afterLaunch = false ∧
        max s.peakActive m = greatest counts.tail := by
      simpa [PeakKept, h] using hp
    simp [hne, hpeak]

/-- A step keeps the greatest first count. -/
lemma Step.peakKept {s s' : Scheduler} {e : Exchange} (h : Step s e s') {counts : List ℕ}
    {afterLaunch : Bool} (hp : PeakKept counts afterLaunch s) :
    PeakKept (counts ++ if afterLaunch then e.count?.toList else []) e.job?.isSome s' := by
  cases h with
  | clear h =>
    obtain ⟨rfl, rfl, hpeak⟩ : counts = [] ∧ afterLaunch = false ∧ s.peakActive = 0 := by
      simpa [PeakKept, h] using hp
    simp [PeakKept, goto, hpeak]
  | stale n h hn => trivial
  | prepare h =>
    obtain ⟨rfl, rfl, hpeak⟩ : counts = [] ∧ afterLaunch = false ∧ s.peakActive = 0 := by
      simpa [PeakKept, h] using hp
    simp [PeakKept, hpeak]
  | prepared h =>
    obtain ⟨hnil, htail, hpeak⟩ : (counts = [] ↔ afterLaunch = true) ∧ counts.tail = [] ∧
        s.peakActive = 0 := by
      simpa [PeakKept, h] using hp
    have hcounts := first_counts hnil htail 0
    cases s.jobs <;> simp [PeakKept, phaseBefore, hcounts, hpeak, greatest]
  | preparing n h hn =>
    obtain ⟨hnil, htail, hpeak⟩ : (counts = [] ↔ afterLaunch = true) ∧ counts.tail = [] ∧
        s.peakActive = 0 := by
      simpa [PeakKept, h] using hp
    have hcounts := first_counts hnil htail n
    simp [PeakKept, goto, hcounts, hpeak]
  | pausedPrepare h =>
    obtain ⟨hne, rfl, htail, hpeak⟩ : counts ≠ [] ∧ afterLaunch = false ∧ counts.tail = [] ∧
        s.peakActive = 0 := by
      simpa [PeakKept, h] using hp
    simp [PeakKept, goto, hne, htail, hpeak]
  | launch job rest h =>
    obtain ⟨hne, rfl, hpeak⟩ : counts ≠ [] ∧ afterLaunch = false ∧
        s.peakActive = greatest counts.tail := by
      simpa [PeakKept, h] using hp
    simp [PeakKept, hne, hpeak]
  | room n first rest h hn =>
    obtain ⟨hne, hpeak⟩ := peak_count h hp n
    exact ⟨hne, rfl, hpeak⟩
  | full n first rest h hn =>
    obtain ⟨hne, hpeak⟩ := peak_count h hp n
    exact ⟨hne, rfl, hpeak⟩
  | paused first rest h =>
    obtain ⟨hne, rfl, hpeak⟩ : counts ≠ [] ∧ afterLaunch = false ∧
        max s.peakActive first = greatest counts.tail := by
      simpa [PeakKept, h] using hp
    simp [PeakKept, goto, hne, hpeak]
  | delayed rest h =>
    obtain ⟨hne, rfl, hpeak⟩ : counts ≠ [] ∧ afterLaunch = false ∧
        s.peakActive = greatest counts.tail := by
      simpa [PeakKept, h] using hp
    cases rest <;> simp [PeakKept, goto, phaseBefore, hne, hpeak]
  | done h =>
    obtain ⟨hne, rfl, hpeak⟩ : counts ≠ [] ∧ afterLaunch = false ∧
        s.peakActive = greatest counts.tail := by
      simpa [PeakKept, h] using hp
    simp [PeakKept, goto, hne, hpeak]
  | finishing n h hn =>
    obtain ⟨hne, rfl, hpeak⟩ : counts ≠ [] ∧ afterLaunch = false ∧
        s.peakActive = greatest counts.tail := by
      simpa [PeakKept, h] using hp
    simp [PeakKept, goto, hne, hpeak]
  | pausedLast h =>
    obtain ⟨hne, rfl, hpeak⟩ : counts ≠ [] ∧ afterLaunch = false ∧
        s.peakActive = greatest counts.tail := by
      simpa [PeakKept, h] using hp
    simp [PeakKept, goto, hne, hpeak]
  | failed e fault h hadmits hfault => trivial

/-! ## Runs -/

/-- Launches are called for in order, whatever comes of the next call. -/
lemma Booked.isPrefix_calls {prepare : Job} {jobs calls : List Job} {s : Scheduler} {e : Exchange}
    (hb : Booked prepare jobs calls s) (h : s.request? = some e.1) :
    calls ++ e.job?.toList <+: prepare :: jobs := by
  have hjob : e.job? = s.request?.bind fun request => Exchange.job? (request, e.2) := by
    rw [h]
    rfl
  rw [hjob]
  cases hphase : s.phase with
  | checking =>
    obtain ⟨rfl, -⟩ : calls = [] ∧ s.prepare = prepare ∧ s.launched = [] := by
      simpa [Booked, hphase] using hb
    simp [request?, hphase, Exchange.job?]
  | launchingPrepare =>
    obtain ⟨rfl, hprepare, -⟩ : calls = [] ∧ s.prepare = prepare ∧ s.launched = [] := by
      simpa [Booked, hphase] using hb
    simp [request?, hphase, hprepare, Exchange.job?]
  | launching job rest =>
    obtain ⟨past, rfl, rfl, -⟩ : ∃ past, jobs = past ++ job :: rest ∧ calls = prepare :: past ∧
        s.prepare = { prepare with state := .completed } ∧
        s.launched = past.map fun job => { job with state := .launched } := by
      simpa [Booked, remaining, hphase] using hb
    exact ⟨rest, by simp [request?, hphase, Exchange.job?]⟩
  | ended outcome => simp [request?, hphase] at h
  | pollingPrepare | pausingPrepare =>
    obtain ⟨rfl, -⟩ : calls = [prepare] ∧ s.prepare = { prepare with state := .launched } ∧
        s.launched = [] := by
      simpa [Booked, hphase] using hb
    simp [request?, hphase, Exchange.job?]
  | polling _ rest | pausing _ rest | delaying rest =>
    obtain ⟨past, rfl, rfl, -⟩ : ∃ past, jobs = past ++ rest ∧ calls = prepare :: past ∧
        s.prepare = { prepare with state := .completed } ∧
        s.launched = past.map fun job => { job with state := .launched } := by
      simpa [Booked, remaining, hphase] using hb
    exact ⟨rest, by simp [request?, hphase, Exchange.job?]⟩
  | pollingLast | pausingLast =>
    obtain ⟨rfl, -⟩ : calls = prepare :: jobs ∧ s.prepare = { prepare with state := .completed } ∧
        s.launched = jobs.map fun job => { job with state := .launched } := by
      simpa [Booked, remaining, hphase] using hb
    simp [request?, hphase, Exchange.job?]

namespace Run

variable {s₀ s : Scheduler} {t : List Exchange}

/-- A run keeps the books. -/
lemma booked {prepare : Job} (h : Run s₀ t s) (h₀ : Booked prepare s₀.jobs [] s₀) :
    Booked prepare s₀.jobs (launchCalls t) s := by
  induction h with
  | start => exact h₀
  | snoc hrun hstep ih =>
    rw [← hrun.jobs] at ih
    rw [launchCalls_append, launchCalls_singleton, ← hrun.jobs, ← hstep.jobs]
    exact hstep.booked ih

/-- A run keeps the greatest first count. -/
lemma peakKept (h : Run s₀ t s) (h₀ : PeakKept [] false s₀) :
    PeakKept (firstCounts false t) (endsInLaunch t) s := by
  induction h with
  | start => exact h₀
  | snoc hrun hstep ih =>
    rw [firstCounts_snoc, endsInLaunch_snoc]
    exact hstep.peakKept ih

/-- **No job is launched out of turn**, even if its launch fails. -/
lemma isPrefix_launchCalls {prepare : Job} (h : Run s₀ t s)
    (h₀ : Booked prepare s₀.jobs [] s₀) : launchCalls t <+: prepare :: s₀.jobs := by
  cases h with
  | start => exact List.nil_prefix
  | snoc hrun hstep =>
    rw [launchCalls_append, launchCalls_singleton]
    exact (hrun.booked h₀).isPrefix_calls hstep.request?

end Run

/-- Before the first exchange the books are empty. -/
lemma booked_new (config : SchedulerConfig) (prepare : Job) (jobs : List Job) :
    Booked prepare jobs [] (new config prepare jobs) := by
  by_cases h : config.maxParallel = 0 <;> simp [Booked, new, h]

/-- Before the first exchange nothing has been counted. -/
lemma peakKept_new (config : SchedulerConfig) (prepare : Job) (jobs : List Job) :
    PeakKept [] false (new config prepare jobs) := by
  by_cases h : config.maxParallel = 0 <;> simp [PeakKept, new, h]

/-- A schedule that comes to its end reports what it remembers. -/
lemma Step.report_eq {s s' : Scheduler} {e : Exchange} (h : Step s e s')
    {report : SchedulerReport} (hreport : s'.phase = .ended (.ok report)) :
    report = s'.report := by
  cases h with
  | prepared h => cases hjobs : s.jobs <;> simp [phaseBefore, hjobs] at hreport
  | delayed rest h => cases rest <;> simp [goto, phaseBefore] at hreport
  | done h =>
    simp only [goto, Phase.ended.injEq, Except.ok.injEq] at hreport
    exact hreport.symm
  | _ => simp [goto, fail] at hreport

/-- A run that comes to its end reports what it remembers. -/
lemma Run.report_eq_report {s₀ s : Scheduler} {t : List Exchange} {report : SchedulerReport}
    (h : Run s₀ t s) (h₀ : ∀ report, s₀.phase ≠ .ended (.ok report))
    (hreport : s.phase = .ended (.ok report)) : report = s.report := by
  cases h with
  | start => exact absurd hreport (h₀ report)
  | snoc hrun hstep => exact hstep.report_eq hreport

/-- A schedule that has not begun has not come to its end. -/
lemma new_not_done (config : SchedulerConfig) (prepare : Job) (jobs : List Job)
    (report : SchedulerReport) : (new config prepare jobs).phase ≠ .ended (.ok report) := by
  by_cases h : config.maxParallel = 0 <;> simp [new, h]

/-- A run that comes to its end has launched all jobs. -/
lemma Run.launchCalls_eq {config : SchedulerConfig} {prepare : Job} {jobs : List Job}
    {t : List Exchange} {s : Scheduler} {report : SchedulerReport}
    (h : Run (new config prepare jobs) t s) (hreport : s.phase = .ended (.ok report)) :
    launchCalls t = prepare :: jobs ∧ s.prepare = { prepare with state := .completed } ∧
      s.launched = jobs.map fun job => { job with state := .launched } := by
  have hbooked := h.booked (booked_new config prepare jobs)
  simpa [Booked, remaining, new, hreport] using hbooked

/-- **What a run reports**: the given jobs in order, all of them completed, and the greatest count
that came first after the launch of a job. -/
lemma Run.report_eq {config : SchedulerConfig} {prepare : Job} {jobs : List Job}
    {t : List Exchange} {s : Scheduler} {report : SchedulerReport}
    (h : Run (new config prepare jobs) t s) (hreport : s.phase = .ended (.ok report)) :
    report = ⟨{ prepare with state := .completed },
      jobs.map fun job => { job with state := .completed },
      greatest (firstCounts false t).tail⟩ := by
  obtain ⟨-, hprepare, hlaunched⟩ := h.launchCalls_eq hreport
  obtain ⟨-, -, hgreatest⟩ : firstCounts false t ≠ [] ∧ endsInLaunch t = false ∧
      s.peakActive = greatest (firstCounts false t).tail := by
    simpa [PeakKept, hreport] using h.peakKept (peakKept_new config prepare jobs)
  rw [h.report_eq_report (new_not_done config prepare jobs) hreport, Scheduler.report, hprepare,
    hlaunched, hgreatest, List.map_map]
  rfl

end Scheduler

end Constellation
