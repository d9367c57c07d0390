import Mathlib.Data.List.Forall2
import Mathlib.Tactic.Ring
import Constellation.Proofs.Experiment.Names
set_option autoImplicit false

/-!
# What an experiment expands to

An experiment can be at fault in several ways at once. Its outcome is told from its axes alone:
which fault is reported, and if there is none, which run stands at which place.

## Main definitions

* `FirstOccurrences` — a list holds the first item of each key, in order.
* `Experiment.Choice.Gives` — what a run says of the choice that it is made for.
* `Experiment.Outcome` — what an experiment expands to.

## Main results

* `firstOccurrences_distinctBy` — a list without repeated items holds the first item of each key.
* `getElem?_flatMap` — places in lists of equal length that are put one after the other.
* `Experiment.findSome?_choices` — the first fault among all choices.
* `Experiment.runs_outcome` — the outcome of an experiment.

## Design

A choice can only be at fault for its topology and its algorithm, or for a time that all choices
share. So the search for the first fault among all choices goes through topologies and algorithms,
and the places of the runs are numbers whose digits are the places on the axes.
-/

namespace Constellation

/-! ## Lists without repeated items -/

section Distinct

variable {α κ : Type} [BEq κ]

/-- The place of the first item that has the key of another one. -/
def firstPlace (key : α → κ) (items : List α) (a : α) : ℕ := items.findIdx fun b => key b == key a

/-- `kept` holds the first item of each key of `items`, in the order of their places. -/
structure FirstOccurrences (key : α → κ) (items kept : List α) : Prop where
  /-- The items are some of those that are given. -/
  sublist : kept.Sublist items
  /-- They are in the order in which their keys occur first. -/
  ordered : kept.Pairwise fun a b => firstPlace key items a < firstPlace key items b
  /-- No key is there twice. -/
  nodup : (kept.map key).Nodup
  /-- Each key is there with its first item. -/
  first : ∀ k, (kept.find? fun a => key a == k) = items.find? fun a => key a == k

/-- The items that are left are in order. -/
lemma sublist_distinctFrom (key : α → κ) (items : List α) (seen : List κ) :
    (distinctFrom key seen items).Sublist items := by
  induction items generalizing seen with
  | nil => exact List.Sublist.refl _
  | cons a rest ih =>
    rw [distinctFrom]
    split
    · exact (ih seen).cons a
    · exact (ih _).cons_cons a

/-- It is empty only if there are no items at all. -/
lemma distinctBy_eq_nil_iff {key : α → κ} {items : List α} :
    distinctBy key items = [] ↔ items = [] := by
  cases items with
  | nil => exact Iff.rfl
  | cons a rest =>
    rw [distinctBy, distinctFrom, if_neg (by simp)]
    exact iff_of_false (List.cons_ne_nil _ _) (List.cons_ne_nil _ _)

variable [LawfulBEq κ]

/-- Of each key that has not been seen the first item is left. -/
lemma find?_distinctFrom (key : α → κ) (items : List α) {seen : List κ} {k : κ} (hk : k ∉ seen) :
    ((distinctFrom key seen items).find? fun a => key a == k) =
      items.find? fun a => key a == k := by
  induction items generalizing seen with
  | nil => rfl
  | cons a rest ih =>
    rw [distinctFrom]
    by_cases hseen : seen.contains (key a) = true
    · have hne : (key a == k) = false := by
        rw [beq_eq_false_iff_ne]
        rintro rfl
        exact hk (List.contains_iff_mem.mp hseen)
      rw [if_pos hseen, ih hk, List.find?_cons, hne]
    · rw [if_neg hseen, List.find?_cons, List.find?_cons]
      cases heq : key a == k with
      | true => rfl
      | false =>
        have hnotMem : k ∉ key a :: seen :=
          List.not_mem_cons_of_ne_of_not_mem (Ne.symm (beq_eq_false_iff_ne.mp heq)) hk
        exact ih hnotMem

/-- The item in front has the first place. -/
lemma firstPlace_cons_self (key : α → κ) (a : α) (rest : List α) :
    firstPlace key (a :: rest) a = 0 := by
  rw [firstPlace, List.findIdx_cons, beq_self_eq_true, cond_true]

/-- Items of other keys are one place further back behind it. -/
lemma firstPlace_cons_of_ne {key : α → κ} {a b : α} (h : key b ≠ key a) (rest : List α) :
    firstPlace key (a :: rest) b = firstPlace key rest b + 1 := by
  rw [firstPlace, List.findIdx_cons, beq_eq_false_iff_ne.mpr h.symm, cond_false, firstPlace]

/-- The items that are left are in the order in which their keys occur first. -/
lemma pairwise_distinctFrom (key : α → κ) (items : List α) (seen : List κ) :
    (distinctFrom key seen items).Pairwise fun a b =>
      firstPlace key items a < firstPlace key items b := by
  induction items generalizing seen with
  | nil => exact List.Pairwise.nil
  | cons head rest ih =>
    -- Behind the first item all places are one further back, since its key is not left there.
    have hbehind : ∀ seen', key head ∈ seen' →
        (distinctFrom key seen' rest).Pairwise fun a b =>
          firstPlace key (head :: rest) a < firstPlace key (head :: rest) b := by
      intro seen' hhead
      refine (ih seen').imp_of_mem fun {a b} ha hb hlt => ?_
      have hne : ∀ c ∈ distinctFrom key seen' rest, key c ≠ key head := fun c hc heq =>
        notMem_of_mem_distinctFrom key rest seen' hc (heq ▸ hhead)
      rw [firstPlace_cons_of_ne (hne a ha), firstPlace_cons_of_ne (hne b hb)]
      exact Nat.succ_lt_succ hlt
    rw [distinctFrom]
    by_cases hseen : seen.contains (key head) = true
    · rw [if_pos hseen]
      exact hbehind seen (List.contains_iff_mem.mp hseen)
    · rw [if_neg hseen, List.pairwise_cons]
      refine ⟨fun b hb => ?_, hbehind _ List.mem_cons_self⟩
      have hne : key b ≠ key head := fun heq =>
        notMem_of_mem_distinctFrom key rest _ hb (heq ▸ List.mem_cons_self)
      rw [firstPlace_cons_self, firstPlace_cons_of_ne hne]
      exact Nat.succ_pos _

/-- **A list without repeated items holds the first item of each key.** -/
lemma firstOccurrences_distinctBy (key : α → κ) (items : List α) :
    FirstOccurrences key items (distinctBy key items) where
  sublist := sublist_distinctFrom key items []
  ordered := pairwise_distinctFrom key items []
  nodup := nodup_distinctBy key items
  first := fun _ => find?_distinctFrom key items List.not_mem_nil

end Distinct

/-! ## Lists put one after the other -/

section Blocks

variable {α β γ : Type}

/-- Something is found in lists put one after the other if it is found in one of them. -/
lemma findSome?_flatMap (f : α → List β) (g : β → Option γ) (items : List α) :
    (items.flatMap f).findSome? g = items.findSome? fun a => (f a).findSome? g := by
  induction items with
  | nil => rfl
  | cons a rest ih =>
    rw [List.flatMap_cons, List.findSome?_append, ih, List.findSome?_cons]
    cases (f a).findSome? g <;> rfl

/-- If each item gives the same, this is found as long as there is an item. -/
lemma findSome?_of_forall_eq {items : List α} (h : items ≠ []) {g : α → Option γ}
    {found : Option γ} (hg : ∀ a, g a = found) : items.findSome? g = found := by
  obtain ⟨a, rest, rfl⟩ := List.exists_cons_of_ne_nil h
  rw [List.findSome?_cons, hg]
  cases found with
  | some b => rfl
  | none => exact List.findSome?_eq_none_iff.mpr fun b _ => hg b

/-- The first item that does not pass a check is the one at which something is found, if nothing
is found at items that pass. -/
lemma findSome?_of_find? {items : List α} {fails : α → Bool} {g : α → Option γ} {a : α}
    (ha : items.find? fails = some a) (hpass : ∀ b ∈ items, fails b = false → g b = none) :
    (g a).isSome → items.findSome? g = g a := by
  intro hsome
  obtain ⟨c, hc⟩ := Option.isSome_iff_exists.mp hsome
  obtain ⟨-, before, after, rfl, hbefore⟩ := List.find?_eq_some_iff_append.mp ha
  rw [hc]
  refine List.findSome?_eq_some_iff.mpr ⟨before, a, after, rfl, hc, fun b hb => ?_⟩
  exact hpass b (List.mem_append_left _ hb) (by simpa using hbefore b hb)

variable {f : α → List β} {n : ℕ}

/-- The length of lists of equal length that are put one after the other. -/
lemma length_flatMap (h : ∀ a, (f a).length = n) (items : List α) :
    (items.flatMap f).length = items.length * n := by
  simp [List.length_flatMap, h]

/-- **The place of an item in lists of equal length that are put one after the other** has the
number of its list and its place there as its digits. -/
lemma getElem?_flatMap (h : ∀ a, (f a).length = n) {items : List α} {i j : ℕ} {a : α} {b : β}
    (hi : items[i]? = some a) (hj : (f a)[j]? = some b) :
    (items.flatMap f)[i * n + j]? = some b := by
  have hlt : j < n := by
    rw [← h a]
    exact (List.getElem?_eq_some_iff.mp hj).1
  induction items generalizing i with
  | nil => cases hi
  | cons head rest ih =>
    rw [List.flatMap_cons]
    cases i with
    | zero =>
      obtain rfl := Option.some.inj hi
      rw [Nat.zero_mul, Nat.zero_add, List.getElem?_append_left (by rwa [h head])]
      exact hj
    | succ i =>
      have hplace : (i + 1) * n + j - n = i * n + j := by
        rw [Nat.succ_mul]
        omega
      rw [List.getElem?_append_right (by rw [h head, Nat.succ_mul]; omega), h head, hplace]
      exact ih hi

/-- Items at the same place of two lists are related if all are. -/
lemma exists_getElem?_of_forall₂ {R : α → β → Prop} {items : List α} {others : List β}
    (h : List.Forall₂ R items others) {i : ℕ} {a : α} (ha : items[i]? = some a) :
    ∃ b, others[i]? = some b ∧ R a b := by
  obtain ⟨hi, rfl⟩ := List.getElem?_eq_some_iff.mp ha
  obtain ⟨hlength, hall⟩ := List.forall₂_iff_get.mp h
  have hi' : i < others.length := hlength ▸ hi
  exact ⟨others[i], List.getElem?_eq_getElem hi', hall i hi hi'⟩

end Blocks

namespace Experiment

/-! ## A single choice -/

/-- What a run says of its experiment and of the choice that it is made for. -/
structure Choice.Gives (e : Experiment) (choice : Choice) (run : Run) : Prop where
  /-- It is named for the choice. -/
  name : run.name = Run.nameOf choice.topology.name choice.pair.source choice.pair.destination
    choice.client choice.algorithm choice.loss
  /-- It has the topology. -/
  topology : run.topology = choice.topology.name
  /-- The topology has this network for the algorithm. -/
  network : choice.topology.networks.get? choice.algorithm = some run.network
  /-- The routes are in the directory of the experiment. -/
  dynamicState : run.dynamicState = e.dynamicState
  /-- The time between two updates is in nanoseconds. -/
  updateInterval : run.updateIntervalNs.toNat = e.updateIntervalMs.toNat * 1000000
  /-- The simulated time is in nanoseconds. -/
  endTime : run.endTimeNs.toNat = e.endTimeS.toNat * 1000000000
  /-- The links between satellites are those of the experiment. -/
  isl : run.islRate = e.islRate ∧ run.islQueue = e.islQueue
  /-- The links to the ground are those of the experiment. -/
  gsl : run.gslRate = e.gslRate ∧ run.gslQueue = e.gslQueue
  /-- The load is recorded as the experiment says. -/
  tracking : run.trackUtilization = e.trackUtilization ∧
    run.trackingIntervalNs = e.trackingIntervalNs
  /-- It has the pair of ground stations with its description. -/
  pair : run.source = choice.pair.source ∧ run.destination = choice.pair.destination ∧
    run.pairLabel = choice.pair.label
  /-- It has the client. -/
  client : run.client = choice.client
  /-- It has the algorithm. -/
  algorithm : run.algorithm = choice.algorithm
  /-- All its links have the loss ratio. -/
  loss : run.islErrorRate = choice.loss.value ∧ run.gslErrorRate = choice.loss.value

/-- Some time of an experiment has too many nanoseconds for 64 bits. -/
def Overflows (e : Experiment) : Prop :=
  2 ^ 64 ≤ e.updateIntervalMs.toNat * 1000000 ∨ 2 ^ 64 ≤ e.endTimeS.toNat * 1000000000

instance (e : Experiment) : Decidable e.Overflows := inferInstanceAs (Decidable (_ ∨ _))

/-- A time is converted if 64 bits suffice for it. -/
lemma nanoseconds_of_lt {count : UInt64} {each : ℕ} (h : count.toNat * each < 2 ^ 64) :
    nanoseconds count each = .ok (count.toNat * each).toUInt64 ∧
      (count.toNat * each).toUInt64.toNat = count.toNat * each := by
  have hbound : Numeral.longBound = 2 ^ 64 := by decide
  refine ⟨?_, ?_⟩
  · rw [nanoseconds, hbound]
    exact if_pos h
  · rw [Nat.toUInt64_eq, UInt64.toNat_ofNat']
    exact Nat.mod_eq_of_lt h

/-- A time is not converted otherwise. -/
lemma nanoseconds_of_le {count : UInt64} {each : ℕ} (h : 2 ^ 64 ≤ count.toNat * each) :
    nanoseconds count each = .error .overflow := by
  have hbound : Numeral.longBound = 2 ^ 64 := by decide
  rw [nanoseconds, hbound]
  exact if_neg (Nat.not_lt.mpr h)

section Choice

variable {e : Experiment} {choice : Choice}

/-- A topology without a network for the algorithm is at fault whatever the times are. -/
lemma run_of_get?_eq_none (h : choice.topology.networks.get? choice.algorithm = none) :
    e.run choice = .error (.missingNetwork choice.topology.name choice.algorithm) := by
  rw [run, h]
  rfl

/-- With a network a time of too many nanoseconds is at fault. -/
lemma run_of_overflows {network : String}
    (h : choice.topology.networks.get? choice.algorithm = some network) (ho : e.Overflows) :
    e.run choice = .error .overflow := by
  rw [run, h, updateIntervalNs, endTimeNs]
  by_cases hinterval : 2 ^ 64 ≤ e.updateIntervalMs.toNat * 1000000
  · rw [nanoseconds_of_le hinterval]
    rfl
  · rw [(nanoseconds_of_lt (Nat.not_le.mp hinterval)).1,
      nanoseconds_of_le (ho.resolve_left hinterval)]
    rfl

/-- With a network and without such a time there is a run. -/
lemma exists_run {network : String}
    (h : choice.topology.networks.get? choice.algorithm = some network) (ho : ¬ e.Overflows) :
    ∃ run, e.run choice = .ok run ∧ choice.Gives e run := by
  obtain ⟨hinterval, htime⟩ := not_or.mp ho
  obtain ⟨hinterval, hintervalNat⟩ := nanoseconds_of_lt (Nat.not_le.mp hinterval)
  obtain ⟨htime, htimeNat⟩ := nanoseconds_of_lt (Nat.not_le.mp htime)
  rw [run, h, updateIntervalNs, hinterval, endTimeNs, htime]
  exact ⟨_, rfl, rfl, rfl, h, rfl, hintervalNat, htimeNat, ⟨rfl, rfl⟩, ⟨rfl, rfl⟩, ⟨rfl, rfl⟩,
    ⟨rfl, rfl, rfl⟩, rfl, rfl, rfl, rfl⟩

end Choice

/-! ## All choices -/

/-- The fault of a choice of some topology and some algorithm. -/
def fault? (e : Experiment) (topology : Topology) (algorithm : Algorithm) :
    Option ExperimentFault :=
  match topology.networks.get? algorithm with
  | none => some (.missingNetwork topology.name algorithm)
  | some _ => if e.Overflows then some .overflow else none

/-- The fault of a choice. -/
def Choice.fault? (e : Experiment) (choice : Choice) : Option ExperimentFault :=
  e.fault? choice.topology choice.algorithm

/-- A choice is at fault or gives a run. -/
lemma run_of_fault? (e : Experiment) (choice : Choice) :
    match choice.fault? e with
    | some fault => e.run choice = .error fault
    | none => ∃ run, e.run choice = .ok run ∧ choice.Gives e run := by
  rw [Choice.fault?, fault?]
  cases hnetwork : choice.topology.networks.get? choice.algorithm with
  | none => exact run_of_get?_eq_none hnetwork
  | some network =>
    by_cases ho : e.Overflows
    · rw [if_pos ho]
      exact run_of_overflows hnetwork ho
    · rw [if_neg ho]
      exact exists_run hnetwork ho

/-- The first choice at fault decides, and without one each choice gives a run. -/
lemma runsFor_of_findSome? (e : Experiment) (choices : List Choice) :
    match choices.findSome? (Choice.fault? e) with
    | some fault => e.runsFor choices = .error fault
    | none =>
      ∃ runs, e.runsFor choices = .ok runs ∧ List.Forall₂ (Choice.Gives e) choices runs := by
  induction choices with
  | nil => exact ⟨[], rfl, List.Forall₂.nil⟩
  | cons choice choices ih =>
    have hchoice := e.run_of_fault? choice
    rw [List.findSome?_cons, runsFor]
    cases hfault : choice.fault? e with
    | some fault =>
      rw [hfault] at hchoice
      rw [show e.run choice = .error fault from hchoice]
      rfl
    | none =>
      rw [hfault] at hchoice
      obtain ⟨run, hrun, hgives⟩ := hchoice
      rw [hrun]
      cases hrest : choices.findSome? (Choice.fault? e) with
      | some fault =>
        rw [hrest] at ih
        rw [show e.runsFor choices = .error fault from ih]
        rfl
      | none =>
        rw [hrest] at ih
        obtain ⟨runs, hruns, hall⟩ := ih
        exact ⟨run :: runs, by rw [hruns]; rfl, List.Forall₂.cons hgives hall⟩

/-- **The first fault among all choices** is the first one among the topologies, of each of them
among the algorithms. -/
lemma findSome?_choices {e : Experiment} (hclients : e.clientAxis ≠ []) (hpairs : e.pairAxis ≠ [])
    (hloss : e.lossAxis ≠ []) : e.choices.findSome? (Choice.fault? e) =
      e.topologyAxis.findSome? fun topology => e.algorithmAxis.findSome? (e.fault? topology) := by
  simp only [choices, findSome?_flatMap, List.findSome?_map]
  refine findSome?_of_forall_eq hclients fun client => ?_
  refine congrArg (e.topologyAxis.findSome? ·) (funext fun topology => ?_)
  refine findSome?_of_forall_eq hpairs fun pair => ?_
  refine congrArg (e.algorithmAxis.findSome? ·) (funext fun algorithm => ?_)
  exact findSome?_of_forall_eq hloss fun loss => rfl

/-- There always is a loss ratio. -/
lemma lossAxis_ne_nil (e : Experiment) : e.lossAxis ≠ [] := by
  rw [lossAxis]
  split
  · exact List.cons_ne_nil _ _
  · next hempty =>
    intro hnil
    exact hempty (List.isEmpty_iff.mpr (distinctBy_eq_nil_iff.mp hnil))

/-! ## Places -/

/-- The number of choices. -/
lemma length_choices (e : Experiment) : e.choices.length = e.clientAxis.length *
    (e.topologyAxis.length * (e.pairAxis.length * (e.algorithmAxis.length * e.lossAxis.length))) :=
  length_flatMap (fun _ => length_flatMap (fun _ => length_flatMap (fun _ =>
    length_flatMap (fun _ => List.length_map _) _) _) _) _

/-- The place of a choice, whose digits are the places on the axes. -/
def place (e : Experiment) (client topology pair algorithm loss : ℕ) : ℕ :=
  (((client * e.topologyAxis.length + topology) * e.pairAxis.length + pair) *
    e.algorithmAxis.length + algorithm) * e.lossAxis.length + loss

/-- Each choice is found at its place. -/
lemma getElem?_choices {e : Experiment} {choice : Choice} {i j k l m : ℕ}
    (hclient : e.clientAxis[i]? = some choice.client)
    (htopology : e.topologyAxis[j]? = some choice.topology)
    (hpair : e.pairAxis[k]? = some choice.pair)
    (halgorithm : e.algorithmAxis[l]? = some choice.algorithm)
    (hloss : e.lossAxis[m]? = some choice.loss) :
    e.choices[e.place i j k l m]? = some choice := by
  have hplace : e.place i j k l m = i * (e.topologyAxis.length *
      (e.pairAxis.length * (e.algorithmAxis.length * e.lossAxis.length))) +
        (j * (e.pairAxis.length * (e.algorithmAxis.length * e.lossAxis.length)) +
          (k * (e.algorithmAxis.length * e.lossAxis.length) + (l * e.lossAxis.length + m))) := by
    rw [place]
    ring
  rw [hplace, choices]
  refine getElem?_flatMap (fun _ => ?_) hclient (getElem?_flatMap (fun _ => ?_) htopology
    (getElem?_flatMap (fun _ => ?_) hpair (getElem?_flatMap (fun _ => ?_) halgorithm ?_)))
  · exact length_flatMap (fun _ => length_flatMap (fun _ =>
      length_flatMap (fun _ => List.length_map _) _) _) _
  · exact length_flatMap (fun _ => length_flatMap (fun _ => List.length_map _) _) _
  · exact length_flatMap (fun _ => List.length_map _) _
  · exact List.length_map _
  · rw [List.getElem?_map, hloss]
    rfl

/-! ## The outcome -/

/-- The axes of an experiment, each without its repeated items. -/
structure DistinctAxes (e : Experiment) : Prop where
  /-- Clients are told apart as they are. -/
  clients : FirstOccurrences id e.clients e.clientAxis
  /-- Topologies are told apart by their names. -/
  topologies : FirstOccurrences (·.name) e.topologies e.topologyAxis
  /-- Pairs are told apart by their ground stations. -/
  pairs : FirstOccurrences (fun p => (p.source, p.destination)) e.pairs e.pairAxis
  /-- Algorithms are told apart as they are. -/
  algorithms : FirstOccurrences id e.algorithms e.algorithmAxis
  /-- Loss ratios are told apart by their texts, and none at all stand for the ratio zero. -/
  losses : if e.lossRatios = [] then e.lossAxis = [LossRatio.zero]
    else FirstOccurrences (·.label) e.lossRatios e.lossAxis

/-- Some axis other than that of the loss ratios is empty. -/
def HasEmptyAxis (e : Experiment) : Prop :=
  e.clients = [] ∨ e.topologies = [] ∨ e.pairs = [] ∨ e.algorithms = []

/-- What an experiment expands to. -/
structure Outcome (e : Experiment) (result : Except ExperimentFault (List Run)) : Prop where
  /-- The first topology with an unsafe name is reported, whatever else there is. -/
  unsafeName : ∀ topology, (e.topologyAxis.find? fun t => !isSafeName t.name) = some topology →
    result = .error (.unsafeName topology.name)
  /-- Without one, an empty axis leaves no runs, whatever else there is. -/
  empty : (∀ t ∈ e.topologyAxis, isSafeName t.name = true) → e.HasEmptyAxis → result = .ok []
  /-- Without one, a time of too many nanoseconds is met in the first choice, after its network. -/
  overflow : (∀ t ∈ e.topologyAxis, isSafeName t.name = true) → ¬ e.HasEmptyAxis → e.Overflows →
    ∃ topology algorithm, e.topologyAxis.head? = some topology ∧
      e.algorithmAxis.head? = some algorithm ∧
      result = .error (if topology.networks.get? algorithm = none
        then .missingNetwork topology.name algorithm else .overflow)
  /-- Without one, the first topology that lacks a network is reported, with the first algorithm
  that it lacks one for. -/
  missing : (∀ t ∈ e.topologyAxis, isSafeName t.name = true) → ¬ e.HasEmptyAxis → ¬ e.Overflows →
    ∀ topology algorithm, (e.topologyAxis.find? fun t =>
        e.algorithmAxis.any fun a => (t.networks.get? a).isNone) = some topology →
      (e.algorithmAxis.find? fun a => (topology.networks.get? a).isNone) = some algorithm →
      result = .error (.missingNetwork topology.name algorithm)
  /-- Without one, there is a run for each choice, at the place of the choice. -/
  complete : (∀ t ∈ e.topologyAxis, isSafeName t.name = true) → ¬ e.HasEmptyAxis →
    ¬ e.Overflows → (∀ t ∈ e.topologyAxis, ∀ a ∈ e.algorithmAxis, t.networks.get? a ≠ none) →
    ∃ runs, result = .ok runs ∧
      runs.length = e.clientAxis.length * e.topologyAxis.length * e.pairAxis.length *
        e.algorithmAxis.length * e.lossAxis.length ∧
      ∀ (choice : Choice) (i j k l m : ℕ), e.clientAxis[i]? = some choice.client →
        e.topologyAxis[j]? = some choice.topology → e.pairAxis[k]? = some choice.pair →
        e.algorithmAxis[l]? = some choice.algorithm → e.lossAxis[m]? = some choice.loss →
        ∃ run, runs[e.place i j k l m]? = some run ∧ choice.Gives e run

/-- Each axis has the first items of its keys. -/
lemma distinctAxes (e : Experiment) : e.DistinctAxes where
  clients := firstOccurrences_distinctBy id e.clients
  topologies := firstOccurrences_distinctBy _ e.topologies
  pairs := firstOccurrences_distinctBy _ e.pairs
  algorithms := firstOccurrences_distinctBy id e.algorithms
  losses := by
    split
    · next hempty => rw [lossAxis, hempty, List.isEmpty_nil, if_pos rfl]
    · next hne =>
      rw [lossAxis, if_neg (by simpa using hne)]
      exact firstOccurrences_distinctBy _ e.lossRatios

section Outcome

variable {e : Experiment}

/-- Without an unsafe name the choices decide. -/
lemma runs_of_safe (h : ∀ t ∈ e.topologyAxis, isSafeName t.name = true) :
    e.runs = e.runsFor e.choices := by
  have hnone : e.unsafeTopology? = none := by
    rw [unsafeTopology?, List.find?_eq_none]
    intro t ht
    rw [h t ht]
    exact Bool.false_ne_true
  rw [runs, hnone]

/-- An empty axis leaves no choices. -/
lemma choices_eq_nil (h : e.HasEmptyAxis) : e.choices = [] := by
  rw [← List.length_eq_zero_iff, length_choices]
  rcases h with h | h | h | h
  · rw [clientAxis, h]
    exact Nat.zero_mul _
  · rw [topologyAxis, h]
    exact (congrArg _ (Nat.zero_mul _)).trans (Nat.mul_zero _)
  · rw [pairAxis, h]
    simp [distinctBy, distinctFrom]
  · rw [algorithmAxis, h]
    simp [distinctBy, distinctFrom]

/-- Without an empty axis there is something on each of them. -/
lemma axes_ne_nil (h : ¬ e.HasEmptyAxis) : e.clientAxis ≠ [] ∧ e.topologyAxis ≠ [] ∧
    e.pairAxis ≠ [] ∧ e.algorithmAxis ≠ [] := by
  simp only [HasEmptyAxis, not_or] at h
  simp only [ne_eq, clientAxis, topologyAxis, pairAxis, algorithmAxis, distinctBy_eq_nil_iff]
  exact h

/-- Without an unsafe name and an empty axis, the first fault is looked for among the topologies
and the algorithms. -/
lemma runs_of_faults (hsafe : ∀ t ∈ e.topologyAxis, isSafeName t.name = true)
    (hempty : ¬ e.HasEmptyAxis) :
    match e.topologyAxis.findSome? fun t => e.algorithmAxis.findSome? (e.fault? t) with
    | some fault => e.runs = .error fault
    | none => ∃ runs, e.runs = .ok runs ∧ List.Forall₂ (Choice.Gives e) e.choices runs := by
  obtain ⟨hclients, -, hpairs, -⟩ := axes_ne_nil hempty
  rw [runs_of_safe hsafe, ← findSome?_choices hclients hpairs e.lossAxis_ne_nil]
  exact e.runsFor_of_findSome? e.choices

/-- If there are runs, all topologies have safe names, and the runs are those for all choices. -/
lemma runsFor_of_runs {runs : List Run} (h : e.runs = .ok runs) :
    (∀ t ∈ e.topologyAxis, isSafeName t.name = true) ∧ e.runsFor e.choices = .ok runs := by
  have hsafe : ∀ t ∈ e.topologyAxis, isSafeName t.name = true := by
    cases hfound : e.unsafeTopology? with
    | some topology => simp [Experiment.runs, hfound] at h
    | none => simpa [unsafeTopology?] using hfound
  exact ⟨hsafe, (runs_of_safe hsafe).symm.trans h⟩

/-- Each run is made for a choice, whose topology has a safe name. -/
lemma exists_choice_of_mem_runs {runs : List Run} (h : e.runs = .ok runs) {run : Run}
    (hrun : run ∈ runs) :
    ∃ choice : Choice, isSafeName choice.topology.name = true ∧ choice.Gives e run := by
  obtain ⟨hsafe, hruns⟩ := runsFor_of_runs h
  have hall := e.runsFor_of_findSome? e.choices
  cases hfault : e.choices.findSome? (Choice.fault? e) with
  | some fault => simp [hfault, hruns] at hall
  | none =>
    simp only [hfault, hruns, Except.ok.injEq] at hall
    obtain ⟨others, rfl, hgives⟩ := hall
    obtain ⟨i, hi⟩ := List.mem_iff_getElem?.mp hrun
    obtain ⟨choice, hchoice, hgive⟩ := exists_getElem?_of_forall₂ hgives.flip hi
    refine ⟨choice, hsafe _ ?_, hgive⟩
    have hmem := List.mem_of_getElem? hchoice
    simp only [choices, List.mem_flatMap, List.mem_map] at hmem
    obtain ⟨client, -, topology, htopology, pair, -, algorithm, -, loss, -, rfl⟩ := hmem
    exact htopology

/-- If no time has too many nanoseconds, only networks can be missing. -/
lemma fault?_of_not_overflows (h : ¬ e.Overflows) (topology : Topology) (algorithm : Algorithm) :
    e.fault? topology algorithm = if (topology.networks.get? algorithm).isNone
      then some (.missingNetwork topology.name algorithm) else none := by
  rw [fault?]
  cases topology.networks.get? algorithm with
  | none => rfl
  | some network => exact if_neg h

/-- If some time does, every choice is at fault. -/
lemma fault?_of_overflows (h : e.Overflows) (topology : Topology) (algorithm : Algorithm) :
    e.fault? topology algorithm = some (if topology.networks.get? algorithm = none
      then .missingNetwork topology.name algorithm else .overflow) := by
  rw [fault?]
  cases topology.networks.get? algorithm with
  | none => rfl
  | some network => exact if_pos h

/-- The first missing network is the first fault if no time has too many nanoseconds. -/
lemma findSome?_missing (ho : ¬ e.Overflows) {topology : Topology} {algorithm : Algorithm}
    (htopology : (e.topologyAxis.find? fun t =>
      e.algorithmAxis.any fun a => (t.networks.get? a).isNone) = some topology)
    (halgorithm : (e.algorithmAxis.find? fun a => (topology.networks.get? a).isNone) =
      some algorithm) :
    (e.topologyAxis.findSome? fun t => e.algorithmAxis.findSome? (e.fault? t)) =
      some (.missingNetwork topology.name algorithm) := by
  have hpass : ∀ t a, (t.networks.get? a).isNone = false → e.fault? t a = none := by
    intro t a hnetwork
    rw [fault?_of_not_overflows ho, hnetwork]
    rfl
  have hfault : e.fault? topology algorithm = some (.missingNetwork topology.name algorithm) := by
    rw [fault?_of_not_overflows ho, List.find?_some halgorithm]
    rfl
  have hfound : e.algorithmAxis.findSome? (e.fault? topology) =
      some (.missingNetwork topology.name algorithm) := by
    rw [← hfault]
    exact findSome?_of_find? halgorithm (fun a _ => hpass topology a) (by rw [hfault]; rfl)
  rw [← hfound]
  refine findSome?_of_find? htopology (fun t _ hall => ?_) (by rw [hfound]; rfl)
  refine List.findSome?_eq_none_iff.mpr fun a ha => hpass t a ?_
  exact Bool.eq_false_iff.mpr (List.any_eq_false.mp hall a ha)

/-- There is no fault if no network is missing either. -/
lemma findSome?_complete (ho : ¬ e.Overflows)
    (h : ∀ t ∈ e.topologyAxis, ∀ a ∈ e.algorithmAxis, t.networks.get? a ≠ none) :
    (e.topologyAxis.findSome? fun t => e.algorithmAxis.findSome? (e.fault? t)) = none := by
  refine List.findSome?_eq_none_iff.mpr fun t ht => List.findSome?_eq_none_iff.mpr fun a ha => ?_
  rw [fault?_of_not_overflows ho, if_neg (by simpa using h t ht a ha)]

end Outcome

/-- **The outcome of an experiment.** An unsafe name is reported first; then an empty axis leaves
no runs; then the first choice reports its missing network or a time of too many nanoseconds; then
the first missing network is reported; and otherwise there is one run for each choice, in order. -/
theorem runs_outcome (e : Experiment) : e.DistinctAxes ∧ e.Outcome e.runs := by
  refine ⟨e.distinctAxes, ?_, ?_, ?_, ?_, ?_⟩
  · intro topology hfound
    rw [runs, unsafeTopology?, hfound]
  · intro hsafe hempty
    rw [runs_of_safe hsafe, choices_eq_nil hempty, runsFor]
  · intro hsafe hempty ho
    obtain ⟨-, htopologies, -, halgorithms⟩ := axes_ne_nil hempty
    obtain ⟨topology, topologies, htopology⟩ := List.exists_cons_of_ne_nil htopologies
    obtain ⟨algorithm, algorithms, halgorithm⟩ := List.exists_cons_of_ne_nil halgorithms
    have hfaults := runs_of_faults hsafe hempty
    rw [htopology, halgorithm, List.findSome?_cons, List.findSome?_cons,
      fault?_of_overflows ho] at hfaults
    exact ⟨topology, algorithm, by rw [htopology]; rfl, by rw [halgorithm]; rfl, hfaults⟩
  · intro hsafe hempty ho topology algorithm htopology halgorithm
    have hfaults := runs_of_faults hsafe hempty
    rw [findSome?_missing ho htopology halgorithm] at hfaults
    exact hfaults
  · intro hsafe hempty ho hnetworks
    have hfaults := runs_of_faults hsafe hempty
    rw [findSome?_complete ho hnetworks] at hfaults
    obtain ⟨runs, hruns, hall⟩ := hfaults
    refine ⟨runs, hruns, ?_, fun choice i j k l m hclient htopology hpair halgorithm hloss => ?_⟩
    · rw [← hall.length_eq, length_choices]
      ring
    · have hchoice := getElem?_choices hclient htopology hpair halgorithm hloss
      exact exists_getElem?_of_forall₂ hall hchoice

end Experiment

end Constellation
