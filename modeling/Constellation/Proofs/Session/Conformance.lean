import Mathlib.Data.List.Induction
import Constellation.Proofs.Session.Ledger
import Constellation.Proofs.Session.Protocol
set_option autoImplicit false

/-!
# Schedules conform to the protocol

In every environment the exchanges of a schedule are the beginning of a word of the protocol, or
its last one is a call that has failed.

## Main definitions

* `Scheduler.Conforms` — the exchanges and the outcome of a schedule are what they should be.

## Main results

* `Scheduler.Run.eq_nil_of_fault`, `Scheduler.Run.eq_nil_of_stale` — a fault is the end.
* `Scheduler.Run.failure` — how a schedule comes to end with a fault.
* `Scheduler.drive_conforms` — every schedule conforms to the protocol.

## Design

The pattern of a failing schedule is that of one that goes on: had the last call not failed, its
exchanges would be the beginning of a word as well.
-/

namespace Constellation

namespace Scheduler

/-! ## The end of a run -/

/-- A call that fails ends the schedule with its fault. -/
lemma Step.eq_fail {s s' : Scheduler} {e : Exchange} (h : Step s e s') {fault : SchedulerFault}
    (hfault : e.fault? = some fault) : s' = s.fail fault := by
  cases h with
  | failed e fault' h hadmits hfault' =>
    rw [hfault] at hfault'
    cases hfault'
    rfl
  | _ => simp at hfault

/-- Sessions that are left over end the schedule. -/
lemma Step.eq_stale {s s' : Scheduler} {n : ℕ} (h : Step s (.counted n) s')
    (hchecking : s.phase = .checking) (hn : n ≠ 0) : s' = s.fail (.staleSessions n) := by
  generalize he : Exchange.counted n = e at h
  cases h with
  | clear h => simp [Exchange.counted, hn] at he
  | stale m h hm =>
    obtain rfl : n = m := by simpa [Exchange.counted] using he
    rfl
  | failed e fault h hadmits hfault =>
    subst he
    simp at hfault
  | _ => simp_all

/-- A schedule looks for sessions left over only at its beginning. -/
lemma Step.not_checking {s s' : Scheduler} {e : Exchange} (h : Step s e s') :
    s'.phase ≠ .checking := by
  cases h with
  | prepared h => cases s.jobs <;> simp [phaseBefore]
  | delayed rest h => cases rest <;> simp [goto, phaseBefore]
  | _ => simp [goto, fail]

namespace Run

variable {s₀ s : Scheduler}

/-- **Nothing follows the first fault**, and it is the outcome. -/
lemma eq_nil_of_fault {u v : List Exchange} {e : Exchange} {fault : SchedulerFault}
    (h : Run s₀ (u ++ e :: v) s) (hfault : e.fault? = some fault) :
    v = [] ∧ s.phase = .ended (.error fault) := by
  induction v using List.reverseRecOn generalizing s with
  | nil =>
    obtain ⟨s', -, hstep⟩ := exists_of_snoc h
    rw [hstep.eq_fail hfault]
    exact ⟨rfl, rfl⟩
  | append_singleton v e' ih =>
    rw [← List.cons_append, ← List.append_assoc] at h
    obtain ⟨s', hrun, hstep⟩ := exists_of_snoc h
    exact absurd (ih hrun).2 (hstep.not_ended _)

/-- **Nothing follows a first count that finds sessions**, and their number is the outcome. -/
lemma eq_nil_of_stale {v : List Exchange} {n : ℕ} (h : Run s₀ (.counted n :: v) s)
    (h₀ : s₀.phase = .checking) (hn : n ≠ 0) :
    v = [] ∧ s.phase = .ended (.error (.staleSessions n)) := by
  induction v using List.reverseRecOn generalizing s with
  | nil =>
    obtain ⟨s', hrun, hstep⟩ := exists_of_snoc (t := []) h
    rw [hrun.eq_of_nil] at hstep
    rw [hstep.eq_stale h₀ hn]
    exact ⟨rfl, rfl⟩
  | append_singleton v e ih =>
    obtain ⟨s', hrun, hstep⟩ := exists_of_snoc (t := .counted n :: v) h
    exact absurd (ih hrun).2 (hstep.not_ended _)

/-- Nothing is asked by a schedule that has ended before. -/
lemma eq_start_of_ended {t : List Exchange} {outcome : Except SchedulerFault SchedulerReport}
    (h : Run s₀ t s) (h₀ : s₀.phase = .ended outcome) : t = [] ∧ s = s₀ := by
  induction h with
  | start => exact ⟨rfl, rfl⟩
  | snoc hrun hstep ih => exact absurd (ih.2 ▸ h₀) (hstep.not_ended outcome)

/-- A schedule looks for sessions left over only at its beginning. -/
lemma eq_nil_of_checking {t : List Exchange} (h : Run s₀ t s) (hchecking : s.phase = .checking) :
    t = [] := by
  cases h with
  | start => rfl
  | snoc hrun hstep => exact absurd hchecking hstep.not_checking

end Run

/-! ## How a schedule fails -/

/-- A step that ends a schedule with a fault is a call that fails, or the first count. -/
lemma Step.cause {s s' : Scheduler} {e : Exchange} (h : Step s e s') {fault : SchedulerFault}
    (hended : s'.phase = .ended (.error fault)) :
    e.fault? = some fault ∨
      s.phase = .checking ∧ ∃ n, n ≠ 0 ∧ e = .counted n ∧ fault = .staleSessions n := by
  cases h with
  | stale n h hn =>
    simp only [fail, goto, Phase.ended.injEq, Except.error.injEq] at hended
    exact Or.inr ⟨h, n, hn, rfl, hended.symm⟩
  | failed e fault' h hadmits hfault =>
    simp only [fail, goto, Phase.ended.injEq, Except.error.injEq] at hended
    exact Or.inl (hended ▸ hfault)
  | prepared h => cases hjobs : s.jobs <;> simp [phaseBefore, hjobs] at hended
  | delayed rest h => cases rest <;> simp [goto, phaseBefore] at hended
  | _ => simp [goto] at hended

/-- A call that fails might have succeeded. -/
lemma Step.exists_success {s s' : Scheduler} {e : Exchange} (h : Step s e s')
    {fault : SchedulerFault} (hfault : e.fault? = some fault) :
    ∃ e' s'', e'.1 = e.1 ∧ e'.fault? = none ∧ Step s e' s'' ∧
      ∀ fault, s''.phase ≠ .ended (.error fault) := by
  have hsuccess : ∃ e', e'.1 = e.1 ∧ e'.fault? = none ∧ (∃ s'', Step s e' s'') ∧
      ∀ n, e' = .counted n → n = 0 := by
    cases h with
    | failed e fault' h hadmits hfault' =>
      match e, h, hadmits, hfault with
      | (.count, _), h, _, _ =>
        exact ⟨.counted 0, rfl, rfl, ⟨_, step_afterCount h 0⟩, by simp [Exchange.counted]⟩
      | (.launch job, _), h, _, _ =>
        exact ⟨.launched job, rfl, rfl, ⟨_, step_afterLaunch h⟩,
          by simp [Exchange.counted, Exchange.launched]⟩
      | (.sleep _, .slept), _, _, hfault => cases hfault
    | _ => simp at hfault
  obtain ⟨e', hrequest, hnone, ⟨s'', hstep⟩, hzero⟩ := hsuccess
  refine ⟨e', s'', hrequest, hnone, hstep, fun fault hended => ?_⟩
  rcases hstep.cause hended with hsome | ⟨-, n, hn, heq, -⟩
  · rw [hnone] at hsome
    cases hsome
  · exact hn (hzero n heq)

/-- **How a schedule comes to end with a fault**: a call has failed, and had it not, the exchanges
would be the beginning of what might have come; or sessions are left over. -/
lemma Run.failure {s₀ s : Scheduler} {t : List Exchange} (h : Run s₀ t s) (hne : t ≠ [])
    (hmax : 0 < s₀.config.maxParallel) {fault : SchedulerFault}
    (hended : s.phase = .ended (.error fault)) :
    (∃ u e e' w, t = u ++ [e] ∧ e.fault? = some fault ∧ e'.1 = e.1 ∧ e'.fault? = none ∧
        u ++ e' :: w ∈ s₀.future) ∨
      ∃ n, n ≠ 0 ∧ t = [.counted n] ∧ fault = .staleSessions n := by
  cases h with
  | start => exact absurd rfl hne
  | @snoc u s₁ _ e hrun hstep =>
    rcases hstep.cause hended with hfault | ⟨hchecking, n, hn, rfl, rfl⟩
    · obtain ⟨e', s₂, hrequest, hnone, hstep', hopen⟩ := hstep.exists_success hfault
      have hmax' : 0 < s₂.config.maxParallel := by rwa [(hrun.snoc hstep').config]
      obtain ⟨w, hw⟩ := exists_mem_future hmax' hopen
      refine Or.inl ⟨u, e, e', w, rfl, hfault, hrequest, hnone, ?_⟩
      have hmem := (hrun.snoc hstep').mem_future hw
      rwa [List.append_assoc] at hmem
    · rw [hrun.eq_nil_of_checking hchecking]
      exact Or.inr ⟨n, hn, rfl, rfl⟩

/-! ## Conformance -/

/-- The exchanges of a schedule and its outcome, if it has one after `fuel` requests, are what the
protocol asks for. -/
structure Conforms (config : SchedulerConfig) (prepare : Job) (jobs : List Job) (fuel : ℕ)
    (t : List Exchange) (outcome : Option (Except SchedulerFault SchedulerReport)) : Prop where
  /-- Until it ends, a schedule goes on, and its exchanges are the beginning of a word. -/
  running : outcome = none → t.length = fuel ∧ ∃ w, t ++ w ∈ protocol config prepare jobs
  /-- When it comes to its end, they are a word, and it reports the given jobs in order, unchanged
  but for their states, which say that all are completed, and the greatest count that came first
  after the launch of a job. -/
  done : ∀ report, outcome = some (.ok report) → t ∈ protocol config prepare jobs ∧
    report = ⟨{ prepare with state := .completed },
      jobs.map fun job => { job with state := .completed },
      greatest (firstCounts false t).tail⟩
  /-- When it ends with a fault, nothing may run, or sessions are left over, or the last call has
  failed. Had that call not failed, the exchanges would be the beginning of a word. -/
  failed : ∀ fault, outcome = some (.error fault) →
    (config.maxParallel = 0 ∧ t = [] ∧ fault = .invalidParallelism) ∨
      (∃ n, n ≠ 0 ∧ t = [.counted n] ∧ fault = .staleSessions n) ∨
      ∃ u e e' w, t = u ++ [e] ∧ e.fault? = some fault ∧ e'.1 = e.1 ∧ e'.fault? = none ∧
        u ++ e' :: w ∈ protocol config prepare jobs
  /-- Nothing is asked if nothing may run. -/
  refused : config.maxParallel = 0 → t = [] ∧ outcome = some (.error .invalidParallelism)
  /-- Nothing is asked after a first count that finds sessions. -/
  stale : ∀ n v, n ≠ 0 → t = .counted n :: v →
    v = [] ∧ outcome = some (.error (.staleSessions n))
  /-- Nothing is asked after a call that has failed. -/
  last : ∀ u e v fault, t = u ++ e :: v → e.fault? = some fault →
    v = [] ∧ outcome = some (.error fault)
  /-- The jobs are launched in order, as they were given. -/
  calls : launchCalls t <+: prepare :: jobs
  /-- So they are pending when they are launched, if they are at first. -/
  pending : (∀ job ∈ prepare :: jobs, job.state = .pending) →
    ∀ job ∈ launchCalls t, job.state = .pending

/-- If sessions may run, a schedule begins with the protocol before it. -/
lemma future_new {config : SchedulerConfig} (hmax : config.maxParallel ≠ 0) (prepare : Job)
    (jobs : List Job) : (new config prepare jobs).future = protocol config prepare jobs := by
  simp only [future, new, if_neg hmax]

/-- A run that comes to its end is a word of the protocol. -/
lemma Run.mem_protocol {config : SchedulerConfig} {prepare : Job} {jobs : List Job}
    {t : List Exchange} {s : Scheduler} (h : Run (new config prepare jobs) t s)
    (hmax : config.maxParallel ≠ 0) {report : SchedulerReport}
    (hreport : s.phase = .ended (.ok report)) : t ∈ protocol config prepare jobs := by
  have hnil : [] ∈ s.future := by
    simp only [future, hreport]
    exact Language.nil_mem_one
  have hmem := h.mem_future hnil
  rwa [List.append_nil, future_new hmax] at hmem

/-- If nothing may run, nothing is asked. -/
lemma Run.conforms_zero {config : SchedulerConfig} {prepare : Job} {jobs : List Job} {fuel : ℕ}
    {t : List Exchange} {s : Scheduler} (h : Run (new config prepare jobs) t s)
    (hmax : config.maxParallel = 0) : Conforms config prepare jobs fuel t s.outcome? := by
  have hphase : (new config prepare jobs).phase = .ended (.error .invalidParallelism) := by
    simp [new, hmax]
  obtain ⟨rfl, rfl⟩ := h.eq_start_of_ended hphase
  rw [(outcome?_eq_some_iff _ _).mpr hphase]
  constructor
  · exact fun hnone => by cases hnone
  · exact fun report hreport => by cases hreport
  · intro fault hfault
    cases hfault
    exact Or.inl ⟨hmax, rfl, rfl⟩
  · exact fun _ => ⟨rfl, rfl⟩
  · exact fun n v _ ht => by cases ht
  · exact fun u e v fault ht => by simp at ht
  · exact List.nil_prefix
  · exact fun _ job hjob => by cases hjob

/-- A run that goes on until it ends conforms to the protocol. -/
lemma Run.conforms {config : SchedulerConfig} {prepare : Job} {jobs : List Job} {fuel : ℕ}
    {t : List Exchange} {s : Scheduler} (h : Run (new config prepare jobs) t s)
    (hfuel : s.outcome? = none → t.length = fuel) :
    Conforms config prepare jobs fuel t s.outcome? := by
  by_cases hmax : config.maxParallel = 0
  · exact h.conforms_zero hmax
  have hphase : (new config prepare jobs).phase = .checking := by simp [new, hmax]
  have hpos : 0 < (new config prepare jobs).config.maxParallel := Nat.pos_of_ne_zero hmax
  have hcalls := h.isPrefix_launchCalls (booked_new config prepare jobs)
  constructor
  · intro hnone
    have hopen : ∀ fault, s.phase ≠ .ended (.error fault) := by
      intro fault hended
      rw [(outcome?_eq_some_iff _ _).mpr hended] at hnone
      cases hnone
    obtain ⟨w, hw⟩ := exists_mem_future (h.config ▸ hpos) hopen
    exact ⟨hfuel hnone, w, future_new hmax prepare jobs ▸ h.mem_future hw⟩
  · intro report hreport
    rw [outcome?_eq_some_iff] at hreport
    exact ⟨h.mem_protocol hmax hreport, h.report_eq hreport⟩
  · intro fault hfault
    rw [outcome?_eq_some_iff] at hfault
    have hne : t ≠ [] := by
      rintro rfl
      rw [h.eq_of_nil, hphase] at hfault
      cases hfault
    rw [← future_new hmax prepare jobs]
    exact Or.inr (h.failure hne hpos hfault).symm
  · exact fun hzero => absurd hzero hmax
  · intro n v hn ht
    subst ht
    rw [outcome?_eq_some_iff]
    exact h.eq_nil_of_stale hphase hn
  · intro u e v fault ht hfault
    subst ht
    rw [outcome?_eq_some_iff]
    exact h.eq_nil_of_fault hfault
  · exact hcalls
  · exact fun hpending job hjob => hpending job (hcalls.subset hjob)

/-- **Every schedule conforms to the protocol**, whatever its environment replies. The exchanges
are those that the environment notes down, which does not disturb the schedule. -/
theorem drive_conforms {σ : Type} (runner : Runner σ) (config : SchedulerConfig) (prepare : Job)
    (jobs : List Job) (fuel : ℕ) (state : σ) (told : List Notice) :
    (drive runner.recording fuel (new config prepare jobs) (state, []) told).1 =
        (drive runner fuel (new config prepare jobs) state told).1 ∧
      Conforms config prepare jobs fuel
        (drive runner.recording fuel (new config prepare jobs) (state, []) told).2.1.2
        (drive runner fuel (new config prepare jobs) state told).1.outcome? := by
  have hsame := drive_recording runner fuel (new config prepare jobs) state [] told
  refine ⟨hsame, ?_⟩
  rw [← hsame]
  refine (run_drive runner .start fuel state told).conforms fun hnone => ?_
  rw [length_drive runner fuel _ state [] told hnone]
  simp

end Scheduler

end Constellation
