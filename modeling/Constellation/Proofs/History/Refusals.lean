import Mathlib.Data.List.Induction
import Constellation.Proofs.History.Tracking
set_option autoImplicit false

/-!
# Refused snapshots leave no trace

A snapshot is refused if it is not later than the last one that has been taken. Here an analyzer is
called with snapshots of any steps in any order, and it is changed in place, so that a refusal might
leave something behind.

## Main definitions

* `Analyzer.ingestInPlace`, `Analyzer.call` — takes a snapshot by changing the analyzer in place.
* `latestStep`, `latestCalls` — the latest step of some calls, and the calls that are later than all
  before them.
* `Analyzer.Answers` — how an analyzer answers after some calls.

## Main results

* `Analyzer.call_of_le`, `Analyzer.call_of_lt` — what a call does, whether it is refused or not.
* `Analyzer.Reached.call` — one more call.
* `Analyzer.callAll_answers` — how a new analyzer answers, whatever it has been called with.

## Design

The step of a refused snapshot is not remembered. It need not be: it is not later than the last
snapshot that has been taken, whose step is thereby the latest of all calls.
-/

namespace Constellation

/-! ## Changing an analyzer in place -/

namespace Analyzer

/-- Refuses a step that is not later than the last one. -/
def checkStep (step : ℕ) : ExceptT OutOfOrder (StateM Analyzer) Unit := do
  (← get).lastStep.elim (pure ()) fun last => if step ≤ last then throw ⟨last, step⟩ else pure ()

/-- Takes the observations of a snapshot one by one. -/
def observeAll (step : ℕ) (routes : List Route) : ExceptT OutOfOrder (StateM Analyzer) Unit := do
  for route in routes do
    modify fun a => a.observe step route

/-- Takes one more snapshot by changing the analyzer in place, one thing after the other. What has
been changed before a refusal would stay changed. -/
def ingestInPlace (step : ℕ) (routes : List Route) :
    ExceptT OutOfOrder (StateM Analyzer) Unit := do
  checkStep step
  observeAll step routes
  modify fun a => { a with lastStep := some step }
  modify fun a => { a with snapshots := a.snapshots + 1 }

/-- Calls an analyzer with a snapshot. The outcome comes with what the call leaves behind. -/
def call (a : Analyzer) (step : ℕ) (routes : List Route) : Except OutOfOrder Unit × Analyzer :=
  (ingestInPlace step routes).run.run a

/-- Calls an analyzer with some snapshots, whether they are refused or not. -/
def callAll (a : Analyzer) (calls : List (ℕ × List Route)) : Analyzer :=
  calls.foldl (fun a call => (a.call call.1 call.2).2) a

/-- One more call comes after all others. -/
lemma callAll_snoc (a : Analyzer) (calls : List (ℕ × List Route)) (call : ℕ × List Route) :
    a.callAll (calls ++ [call]) = ((a.callAll calls).call call.1 call.2).2 := by
  rw [callAll, List.foldl_append, callAll]
  rfl

variable {a : Analyzer} {step last : ℕ}

/-- A step is refused if it is not later than the last one. -/
lemma run_checkStep_of_le (hlast : a.lastStep = some last) (h : step ≤ last) :
    (checkStep step).run.run a = (.error ⟨last, step⟩, a) := by
  show StateT.run (ExceptT.run (a.lastStep.elim (pure ()) _)) a = _
  rw [hlast, Option.elim_some, if_pos h]
  rfl

/-- A step is not refused if it is later than the last one. -/
lemma run_checkStep_of_lt (h : ∀ last, a.lastStep = some last → last < step) :
    (checkStep step).run.run a = (.ok (), a) := by
  show StateT.run (ExceptT.run (a.lastStep.elim (pure ()) _)) a = _
  cases hlast : a.lastStep with
  | none => rfl
  | some last =>
    rw [Option.elim_some, if_neg (Nat.not_le.mpr (h last hlast))]
    rfl

/-- Taking observations is never refused. -/
lemma run_observeAll (step : ℕ) (routes : List Route) (a : Analyzer) :
    (observeAll step routes).run.run a =
      (.ok (), routes.foldl (fun a route => a.observe step route) a) := by
  rw [observeAll]
  induction routes generalizing a with
  | nil => rfl
  | cons route routes ih =>
    rw [List.forIn_cons, List.foldl_cons]
    exact ih (a.observe step route)

/-- An observation is no snapshot. -/
lemma snapshots_observe (a : Analyzer) (step : ℕ) (route : Route) :
    (a.observe step route).snapshots = a.snapshots := by
  rw [observe]
  split
  · rfl
  · rw [update]
    split <;> rfl

/-- Observations are no snapshots. -/
lemma snapshots_foldl_observe (a : Analyzer) (step : ℕ) (routes : List Route) :
    (routes.foldl (fun a route => a.observe step route) a).snapshots = a.snapshots := by
  induction routes generalizing a with
  | nil => rfl
  | cons route routes ih => rw [List.foldl_cons, ih, snapshots_observe]

/-- **A call that is refused changes nothing.** -/
lemma call_of_le (hlast : a.lastStep = some last) (h : step ≤ last) (routes : List Route) :
    a.call step routes = (.error ⟨last, step⟩, a) := by
  rw [call, ingestInPlace, ExceptT.run_bind, StateT.run_bind, run_checkStep_of_le hlast h]
  rfl

/-- **A call that is not refused** takes the snapshot. -/
lemma call_of_lt (h : ∀ last, a.lastStep = some last → last < step) (routes : List Route) :
    a.call step routes = (.ok (), ingest.take step routes a) := by
  rw [call, ingestInPlace, ExceptT.run_bind, StateT.run_bind, run_checkStep_of_lt h]
  show StateT.run (ExceptT.run (observeAll step routes >>= _)) a = _
  rw [ExceptT.run_bind, StateT.run_bind, run_observeAll, ingest.take,
    ← snapshots_foldl_observe a step routes]
  rfl

/-- **Changing an analyzer in place** comes to the same as making a new one and dropping the old one
unless the snapshot is refused. -/
lemma call_eq_ingest (a : Analyzer) (step : ℕ) (routes : List Route) : a.call step routes =
    ((a.ingest step routes).map fun _ => (), (a.ingest step routes).toOption.getD a) := by
  by_cases h : ∀ last, a.lastStep = some last → last < step
  · rw [call_of_lt h, ingest_of_lt routes h]
    rfl
  · simp only [not_forall, Nat.not_lt] at h
    obtain ⟨last, hlast, hle⟩ := h
    rw [call_of_le hlast hle, ingest_of_le hlast hle]
    rfl

end Analyzer

/-! ## The latest calls -/

/-- The latest step of some calls. -/
def latestStep (calls : List (ℕ × List Route)) : Option ℕ := (calls.map Prod.fst).max?

/-- Of some calls that come after earlier ones, those that are later than all before them. -/
def latestAfter (earlier : List (ℕ × List Route)) :
    List (ℕ × List Route) → List (ℕ × List Route)
  | [] => []
  | call :: rest =>
    let later := latestAfter (earlier ++ [call]) rest
    if ∀ c ∈ earlier, c.1 < call.1 then call :: later else later

/-- The calls that are later than all before them. -/
def latestCalls (calls : List (ℕ × List Route)) : List (ℕ × List Route) := latestAfter [] calls

variable {calls : List (ℕ × List Route)} {step last : ℕ}

/-- The latest step is that of some call, and no call is later. -/
lemma latestStep_eq_some_iff :
    latestStep calls = some last ↔ (∃ c ∈ calls, c.1 = last) ∧ ∀ c ∈ calls, c.1 ≤ last := by
  rw [latestStep, List.max?_eq_some_iff, List.mem_map, List.forall_mem_map]

/-- A step is later than the latest one if it is later than all others. -/
lemma latestStep_lt_iff :
    (∀ last, latestStep calls = some last → last < step) ↔ ∀ c ∈ calls, c.1 < step := by
  constructor
  · intro h c hc
    have hne : latestStep calls ≠ none := by
      simpa [latestStep, List.max?_eq_none_iff] using List.ne_nil_of_mem hc
    obtain ⟨last, hlast⟩ := Option.ne_none_iff_exists'.mp hne
    exact Nat.lt_of_le_of_lt ((latestStep_eq_some_iff.mp hlast).2 c hc) (h last hlast)
  · intro h last hlast
    obtain ⟨c, hc, rfl⟩ := (latestStep_eq_some_iff.mp hlast).1
    exact h c hc

/-- A call that is later than all before it has the latest step. -/
lemma latestStep_snoc_of_lt (call : ℕ × List Route) (h : ∀ c ∈ calls, c.1 < call.1) :
    latestStep (calls ++ [call]) = some call.1 := by
  refine latestStep_eq_some_iff.mpr ⟨⟨call, by simp, rfl⟩, fun c hc => ?_⟩
  rcases List.mem_append.mp hc with hc | hc
  · exact Nat.le_of_lt (h c hc)
  · obtain rfl := List.mem_singleton.mp hc
    exact Nat.le_refl _

/-- A call that is not later leaves the latest step as it is. -/
lemma latestStep_snoc_of_le (call : ℕ × List Route) (hlast : latestStep calls = some last)
    (h : call.1 ≤ last) : latestStep (calls ++ [call]) = some last := by
  obtain ⟨⟨c, hc, heq⟩, hall⟩ := latestStep_eq_some_iff.mp hlast
  refine latestStep_eq_some_iff.mpr ⟨⟨c, List.mem_append_left _ hc, heq⟩, fun c hc => ?_⟩
  rcases List.mem_append.mp hc with hc | hc
  · exact hall c hc
  · rwa [List.mem_singleton.mp hc]

/-- What one more call adds to the latest calls after some earlier ones. -/
lemma latestAfter_snoc (earlier calls : List (ℕ × List Route)) (call : ℕ × List Route) :
    latestAfter earlier (calls ++ [call]) = latestAfter earlier calls ++
      if ∀ c ∈ earlier ++ calls, c.1 < call.1 then [call] else [] := by
  induction calls generalizing earlier with
  | nil => rw [List.append_nil]; rfl
  | cons first rest ih =>
    rw [List.cons_append, latestAfter, latestAfter, ih, List.append_assoc, List.singleton_append]
    split <;> rfl

/-- **What one more call adds to the latest calls.** -/
lemma latestCalls_snoc (calls : List (ℕ × List Route)) (call : ℕ × List Route) :
    latestCalls (calls ++ [call]) =
      latestCalls calls ++ if ∀ c ∈ calls, c.1 < call.1 then [call] else [] :=
  latestAfter_snoc [] calls call

/-- The latest calls are some of the calls. -/
lemma mem_of_mem_latestCalls {call : ℕ × List Route} (h : call ∈ latestCalls calls) :
    call ∈ calls := by
  induction calls using List.reverseRecOn with
  | nil => exact h
  | append_singleton calls last ih =>
    rw [latestCalls_snoc] at h
    rcases List.mem_append.mp h with hold | hnew
    · exact List.mem_append_left _ (ih hold)
    · split at hnew
      · exact List.mem_append_right _ hnew
      · cases hnew

/-- The steps of the latest calls ascend. -/
lemma pairwise_latestCalls (calls : List (ℕ × List Route)) :
    ((latestCalls calls).map Prod.fst).Pairwise (· < ·) := by
  induction calls using List.reverseRecOn with
  | nil => exact List.Pairwise.nil
  | append_singleton calls call ih =>
    rw [latestCalls_snoc]
    split
    · next hlt =>
      rw [List.map_append, List.pairwise_append]
      refine ⟨ih, List.pairwise_singleton _ _, ?_⟩
      simpa using fun step routes hmem => hlt (step, routes) (mem_of_mem_latestCalls hmem)
    · rwa [List.append_nil]

namespace Analyzer

/-! ## Any calls -/

variable {named : List RoutePair} {a b : Analyzer}

/-- A series with one more snapshot is taken if the series is taken and then the snapshot. -/
lemma ingestAll_snoc {snapshots : List (ℕ × List Route)} (h : a.ingestAll snapshots = .ok b)
    (call : ℕ × List Route) :
    a.ingestAll (snapshots ++ [call]) = b.ingest call.1 call.2 := by
  induction snapshots generalizing a with
  | nil =>
    cases h
    rw [List.nil_append, ingestAll]
    split
    · next hcall => exact hcall.symm
    · next hcall => exact hcall.symm
  | cons first rest ih =>
    rw [List.cons_append, ingestAll]
    rw [ingestAll] at h
    split at h
    · cases h
    · exact ih h

/-- What is known of an analyzer after some calls. -/
structure Reached (named : List RoutePair) (calls : List (ℕ × List Route)) (a : Analyzer) :
    Prop where
  /-- The last step is the latest one of all calls. -/
  lastStep : a.lastStep = latestStep calls
  /-- The latest calls alone lead to the same analyzer. -/
  ingestAll : (new named).ingestAll (latestCalls calls) = .ok a
  /-- They are its snapshots. -/
  snapshots : a.snapshots = (latestCalls calls).length

namespace Reached

/-- Nothing is known before the first call. -/
lemma new (named : List RoutePair) : Reached named [] (new named) where
  lastStep := rfl
  ingestAll := rfl
  snapshots := rfl

/-- A call is refused unless it is later than all before it. -/
lemma exists_last (h : Reached named calls a) (hnot : ¬ ∀ c ∈ calls, c.1 < step) :
    ∃ last, a.lastStep = some last ∧ step ≤ last := by
  rw [← latestStep_lt_iff, ← h.lastStep] at hnot
  simp only [not_forall, Nat.not_lt] at hnot
  obtain ⟨last, hlast, hle⟩ := hnot
  exact ⟨last, hlast, hle⟩

/-- The last step is earlier than a call that is later than all before it. -/
lemma lastStep_lt (h : Reached named calls a) (hlt : ∀ c ∈ calls, c.1 < step) :
    ∀ last, a.lastStep = some last → last < step := by
  rw [h.lastStep]
  exact latestStep_lt_iff.mpr hlt

/-- **One more call**, whether it is refused or not. -/
lemma call (h : Reached named calls a) (step : ℕ) (routes : List Route) :
    Reached named (calls ++ [(step, routes)]) (a.call step routes).2 := by
  by_cases hlt : ∀ c ∈ calls, c.1 < step
  · rw [call_of_lt (h.lastStep_lt hlt)]
    constructor
    · exact (latestStep_snoc_of_lt (step, routes) hlt).symm
    · rw [latestCalls_snoc, if_pos hlt, ingestAll_snoc h.ingestAll]
      exact ingest_of_lt routes (h.lastStep_lt hlt)
    · rw [latestCalls_snoc, if_pos hlt, List.length_append, ← h.snapshots]
      rfl
  · obtain ⟨last, hlast, hle⟩ := h.exists_last hlt
    rw [call_of_le hlast hle]
    constructor
    · rw [hlast, latestStep_snoc_of_le (step, routes) (h.lastStep ▸ hlast) hle]
    · rw [latestCalls_snoc, if_neg hlt, List.append_nil]
      exact h.ingestAll
    · rw [latestCalls_snoc, if_neg hlt, List.append_nil]
      exact h.snapshots

/-- What is tracked are the observations of the latest calls. -/
lemma tracks (h : Reached named calls a) : a.Tracks named (observations (latestCalls calls)) := by
  obtain ⟨b, hb, htracks, -⟩ := exists_ingestAll named _ (pairwise_latestCalls calls)
  obtain rfl := Except.ok.inj (h.ingestAll.symm.trans hb)
  exact htracks

/-- None of these observations is later than the last step. -/
lemma exists_step_le (h : Reached named calls a) {o : Observation}
    (ho : o ∈ observations (latestCalls calls)) :
    ∃ last, a.lastStep = some last ∧ o.step ≤ last := by
  obtain ⟨call, hcall, ho⟩ := List.mem_flatMap.mp ho
  obtain ⟨route, -, rfl⟩ := List.mem_map.mp ho
  exact h.exists_last fun hlt => Nat.lt_irrefl _ (hlt call (mem_of_mem_latestCalls hcall))

end Reached

/-- Whatever a new analyzer is called with, it is known what it has become. -/
lemma reached_callAll (named : List RoutePair) (calls : List (ℕ × List Route)) :
    Reached named calls ((new named).callAll calls) := by
  induction calls using List.reverseRecOn with
  | nil => exact Reached.new named
  | append_singleton calls call ih =>
    rw [callAll_snoc]
    exact ih.call call.1 call.2

/-- How an analyzer answers after some calls. -/
structure Answers (named : List RoutePair) (calls : List (ℕ × List Route)) (a : Analyzer) :
    Prop where
  /-- The next call is taken if it is later than all before it, whether these were taken or
  refused. -/
  taken : ∀ step routes, (a.call step routes).1 = .ok () ↔ ∀ c ∈ calls, c.1 < step
  /-- Otherwise it is refused, the fault names the latest step and its own, and nothing changes. -/
  refused : ∀ step routes, (∃ c ∈ calls, step ≤ c.1) → ∃ last, latestStep calls = some last ∧
    a.call step routes = (.error ⟨last, step⟩, a)
  /-- Whether the analyzer is changed in place makes no difference. -/
  agrees : ∀ step routes, a.call step routes =
    ((a.ingest step routes).map fun _ => (), (a.ingest step routes).toOption.getD a)
  /-- The latest calls alone lead to the same analyzer without a refusal. -/
  kept : (new named).ingestAll (latestCalls calls) = .ok a
  /-- They are the snapshots that are counted in the end. -/
  snapshots : ∀ duration, (a.finish duration).snapshots = (latestCalls calls).length

/-- **A refused snapshot leaves no trace.** Whatever a new analyzer is called with, a call is taken
if and only if it is later than all calls before it, and every other call is refused with the
latest step so far and leaves the analyzer as it is. Therefore the history is that of the calls
which are later than all before them, and it counts these.

**Proof sketch.** By induction on the calls the last step is the latest one of all calls, those that
are refused included (`Reached.call`): the step of a refused call is not later than the last step,
so it does not matter that it is not remembered. -/
theorem callAll_answers (named : List RoutePair) (calls : List (ℕ × List Route)) :
    Answers named calls ((new named).callAll calls) := by
  have hreached := reached_callAll named calls
  constructor
  · intro step routes
    constructor
    · intro hok
      by_contra hnot
      obtain ⟨last, hlast, hle⟩ := hreached.exists_last hnot
      rw [call_of_le hlast hle] at hok
      cases hok
    · intro hlt
      rw [call_of_lt (hreached.lastStep_lt hlt)]
  · rintro step routes ⟨c, hc, hle⟩
    obtain ⟨last, hlast, hle⟩ :=
      hreached.exists_last fun hlt => absurd (hlt c hc) (Nat.not_lt.mpr hle)
    exact ⟨last, hreached.lastStep ▸ hlast, call_of_le hlast hle routes⟩
  · exact call_eq_ingest _
  · exact hreached.ingestAll
  · exact fun _ => hreached.snapshots

end Analyzer

end Constellation
