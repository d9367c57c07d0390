import Constellation.Proofs.Command.Runs
import Constellation.Proofs.History.Scanning
import Constellation.Proofs.Snapshot.Readable
set_option autoImplicit false

/-!
# Checking a directory before it is analysed

Whoever checks a directory and each of its snapshots knows whether an analysis of the same directory
will get to its end: the check succeeds precisely if the analysis prints what it has found.

## Main definitions

* `Check.Asks`, `Analyze.Asks` — what arguments ask for.
* `Analyze.found` — what an analysis finds.

## Main results

* `Check.code_eq_zero_iff` — a check succeeds if the directory is readable.
* `Analyze.printed_eq` — an analysis prints what it finds.
* `Analyze.printed_ne_empty_iff` — an analysis gets to its end if the directory is readable.
* `Program.check_agrees` — the two commands agree.

## Design

What is found is printed after the last snapshot has been taken, and before the results are written
to files. So something is printed if and only if the analysis has got through the snapshots, whether
or not there is a place for its results.
-/

namespace Constellation

/-- The arguments ask for a check of a directory and of each snapshot in it. -/
def Check.Asks (arguments : List String) (directory : Path) (step : Option ℕ) : Prop :=
  ∃ given, Check.spec.read arguments = .ok given ∧ given.positionals = [directory.text] ∧
    given.number? "step-ns" = step ∧ given.has "parse" = true

/-- The arguments ask for an analysis of all snapshots in a directory. -/
def Analyze.Asks (arguments : List String) (directory : Path) (step : Option ℕ) : Prop :=
  ∃ given, Analyze.spec.read arguments = .ok given ∧
    given.value? "fstate-dir" = some directory.text ∧ given.number? "step-ns" = step ∧
      given.number? "steps" = none

/-- The value of an option has 64 bits. -/
lemma Arguments.lt_longBound_of_number? {given : Arguments} {long : String} {n : ℕ}
    (h : given.number? long = some n) : n < Numeral.longBound := by
  rw [Arguments.number?, Option.bind_eq_some_iff] at h
  obtain ⟨text, -, hnumber⟩ := h
  unfold numberOf at hnumber
  cases hread : Numeral.read Numeral.longBound text.toList with
  | error fault =>
    simp only [hread] at hnumber
    cases hnumber
  | ok m =>
    simp only [hread] at hnumber
    cases hnumber
    exact Numeral.lt_of_read_eq_ok (by decide) hread

variable {tree : FileTree} {arguments : List String} {directory : Path} {step : Option ℕ}

/-! ## The check -/

namespace Check

open Snapshot

/-- There are no faults if and only if each snapshot can be read. -/
lemma faults_eq_nil_iff (tree : FileTree) (index : Index) :
    faults tree index = [] ↔ ∀ time ∈ index.times, CanRead tree index.directory time := by
  rw [faults, List.filterMap_eq_nil_iff]
  refine forall₂_congr fun time _ => ?_
  rw [CanRead]
  cases readAt tree (path index.directory time) with
  | error fault => simp
  | ok routes => simp

/-- A check without an index is refused. -/
lemma code_of_discover_error {given : Arguments} (hread : spec.read arguments = .ok given)
    (hdirectory : given.positionals = [directory.text]) {fault : SnapshotFault}
    (hfault : discover tree directory (given.number? "step-ns") = .error fault) :
    ((command arguments).outcome tree).code = 1 := by
  have hpath : (⟨given.positionals.headD ""⟩ : Path) = directory := by rw [hdirectory]; rfl
  have hrun : (command arguments).run (Command.start tree) =
      (.error .refused, { Command.start tree with warned := fault.message ++ "\n" }) := by
    rw [command, Command.run_bind_ok (Command.run_arguments hread),
      Command.run_bind_ok Command.run_files]
    simp only [hpath, Command.start, hfault]
    rfl
  rw [Command.code_outcome_of_error hrun]
  rfl

/-- A check with an index is refused if steps are missing or snapshots cannot be read. -/
lemma code_of_discover {given : Arguments} (hread : spec.read arguments = .ok given)
    (hdirectory : given.positionals = [directory.text]) (hparse : given.has "parse" = true)
    {index : Index} (hindex : discover tree directory (given.number? "step-ns") = .ok index) :
    ((command arguments).outcome tree).code = 0 ↔
      index.isComplete = true ∧ faults tree index = [] := by
  have hpath : (⟨given.positionals.headD ""⟩ : Path) = directory := by rw [hdirectory]; rfl
  -- What has been printed by the end does not matter, only whether the check is refused there.
  have hrun : ∃ c, (command arguments).run (Command.start tree) =
      ((if !index.isComplete || !(faults tree index).isEmpty then throw .refused
        else pure () : Command Unit)).run c := by
    rw [command, Command.run_bind_ok (Command.run_arguments hread),
      Command.run_bind_ok Command.run_files]
    simp only [hpath, Command.start, hindex, hparse, if_true]
    rw [Command.run_bind_ok (Command.run_printLines _ _),
      Command.run_bind_ok (Command.run_printLines _ _)]
    exact ⟨_, rfl⟩
  obtain ⟨c, hrun⟩ := hrun
  have hbad : (!index.isComplete || !(faults tree index).isEmpty) = true ↔
      ¬ (index.isComplete = true ∧ faults tree index = []) := by
    rw [← List.isEmpty_iff]
    cases index.isComplete <;> simp
  split at hrun
  · next h =>
    rw [Command.code_outcome_of_error (hrun.trans rfl)]
    exact ⟨fun heq => (by cases heq), fun hgood => absurd hgood (hbad.mp h)⟩
  · next h =>
    rw [Command.code_outcome_of_ok (hrun.trans rfl)]
    exact ⟨fun _ => not_not.mp fun hnot => h (hbad.mpr hnot), fun _ => rfl⟩

/-- **A check succeeds** if and only if the directory is readable. -/
lemma code_eq_zero_iff (h : Asks arguments directory step) :
    ((command arguments).outcome tree).code = 0 ↔ IsReadable tree directory step := by
  obtain ⟨given, hread, hdirectory, rfl, hparse⟩ := h
  cases hindex : discover tree directory (given.number? "step-ns") with
  | error fault =>
    rw [code_of_discover_error hread hdirectory hindex]
    constructor
    · intro heq
      cases heq
    · rintro ⟨index, hok, -⟩
      rw [hindex] at hok
      cases hok
  | ok index =>
    obtain ⟨names, -, hT, hdescribes⟩ := exists_describes_of_discover hindex
    rw [code_of_discover hread hdirectory hparse hindex, faults_eq_nil_iff, hdescribes.directory]
    constructor
    · intro hgood
      exact ⟨index, hindex, hgood⟩
    · rintro ⟨index', hok, hgood⟩
      rw [hindex] at hok
      cases hok
      exact hgood

end Check

/-! ## The analysis -/

namespace Analyze

open Snapshot

variable {surroundings : Surroundings}

/-- What an analysis finds, before it prints any of it. -/
def found (tree : FileTree) (directory : Path) (given : Arguments) : Except HistoryFault History :=
  (stepsToScan tree directory (given.number? "steps")
    ((given.number? "step-ns").map Duration.mk) fallbackStep).bind fun s =>
      (SnapshotSource.ofDirectory tree directory).scan ((given.values "pair").filterMap pairOf?)
        s.1 s.2

/-- **An analysis prints what it finds**, and nothing if it does not get that far. -/
lemma printed_eq {given : Arguments} (hread : spec.read arguments = .ok given)
    (hdirectory : given.pathOr "fstate-dir" "" = directory) :
    ((command surroundings arguments).outcome tree).console.printed =
      ((found tree directory given).toOption.map fun history =>
        Command.printout (summary ((given.number? "top").getD 10) history)).getD "" := by
  rw [Command.printed_outcome, command, Command.run_bind_ok (Command.run_arguments hread),
    Command.run_bind_ok Command.run_files, found]
  simp only [hdirectory, Command.start]
  cases stepsToScan tree directory (given.number? "steps")
      ((given.number? "step-ns").map Duration.mk) fallbackStep with
  | error fault =>
    rw [Command.run_bind_error (Command.run_ofExcept_error _ _ _)]
    rfl
  | ok s =>
    rw [Command.run_bind_ok (Command.run_ofExcept_ok _ _ _)]
    dsimp only [Except.bind]
    cases (SnapshotSource.ofDirectory tree directory).scan
        ((given.values "pair").filterMap pairOf?) s.1 s.2 with
    | error fault =>
      rw [Command.run_bind_error (Command.run_ofExcept_error _ _ _)]
      rfl
    | ok history =>
      -- Writing the results can still fail, but it prints nothing.
      rw [Command.run_bind_ok (Command.run_ofExcept_ok _ _ _),
        Command.run_bind_ok (Command.run_printLines _ _), Command.console_bind_pure,
        Command.printed_onFiles]
      exact String.empty_append

/-- An analysis of all snapshots finds something if and only if the directory is readable. -/
lemma exists_found_iff {given : Arguments} (hall : given.number? "steps" = none) :
    (∃ history, found tree directory given = .ok history) ↔
      IsReadable tree directory (given.number? "step-ns") := by
  have hreadable := isReadable_iff tree directory
    ((given.number? "step-ns").map Duration.mk) fallbackStep
  rw [givenStep_map fun _ => Arguments.lt_longBound_of_number?] at hreadable
  rw [← hreadable, found, hall]
  cases stepsToScan tree directory none ((given.number? "step-ns").map Duration.mk)
      fallbackStep with
  | error fault =>
    constructor
    · rintro ⟨history, heq⟩
      cases heq
    · rintro ⟨n, d, heq, -⟩
      cases heq
  | ok s =>
    have hscan := (SnapshotSource.ofDirectory tree directory).exists_scan_iff s.2
      ((given.values "pair").filterMap pairOf?) s.1
    refine hscan.trans ⟨fun hload => ⟨s.1, s.2, rfl, hload⟩, ?_⟩
    rintro ⟨n, d, heq, hload⟩
    cases heq
    exact hload

/-- **An analysis gets to its end** if and only if the directory is readable. -/
lemma printed_ne_empty_iff (h : Asks arguments directory step) :
    ((command surroundings arguments).outcome tree).console.printed ≠ "" ↔
      IsReadable tree directory step := by
  obtain ⟨given, hread, hvalue, rfl, hall⟩ := h
  have hdirectory : given.pathOr "fstate-dir" "" = directory := by
    rw [Arguments.pathOr, hvalue]
    rfl
  rw [printed_eq hread hdirectory, ← exists_found_iff hall]
  cases found tree directory given with
  | error fault =>
    constructor
    · intro hne
      exact absurd rfl hne
    · rintro ⟨history, heq⟩
      cases heq
  | ok history =>
    constructor
    · intro _
      exact ⟨history, rfl⟩
    · intro _
      exact Command.printout_ne_empty (List.cons_ne_nil _ _)

end Analyze

/-! ## Both commands -/

namespace Program

/-- **A check tells whether an analysis gets to its end.** The check of a directory and of each of
its snapshots succeeds if and only if the analysis of this directory against the same step prints
what it has found, and this is if and only if there are steps to scan and all of them can be
loaded. -/
theorem check_agrees (tree : FileTree) (surroundings : Surroundings) {directory : Path}
    {step : Option ℕ} {checking analysing : List String}
    (hcheck : Check.Asks checking directory step)
    (hanalyse : Analyze.Asks analysing directory step) (fallback : Duration) :
    ((check.outcome surroundings tree checking).code = 0 ↔
        (analyze.outcome surroundings tree analysing).console.printed ≠ "") ∧
      ((check.outcome surroundings tree checking).code = 0 ↔
        ∃ n d, Snapshot.stepsToScan tree directory none (step.map Duration.mk) fallback =
            .ok (n, d) ∧
          ∀ i < n, ∃ routes,
            (SnapshotSource.ofDirectory tree directory).load i d = .ok routes) := by
  have hchecked : (check.outcome surroundings tree checking).code = 0 ↔
      Snapshot.IsReadable tree directory step := Check.code_eq_zero_iff hcheck
  have hanalysed : (analyze.outcome surroundings tree analysing).console.printed ≠ "" ↔
      Snapshot.IsReadable tree directory step := Analyze.printed_ne_empty_iff hanalyse
  have hstep : Snapshot.givenStep (step.map Duration.mk) = step := by
    obtain ⟨given, -, -, rfl, -⟩ := hcheck
    exact Snapshot.givenStep_map fun _ => Arguments.lt_longBound_of_number?
  have hscanned := Snapshot.isReadable_iff tree directory (step.map Duration.mk) fallback
  rw [hstep] at hscanned
  exact ⟨hchecked.trans hanalysed.symm, hchecked.trans hscanned.symm⟩

/-- A directory whose second snapshot is some entry. -/
def twoSnapshots (second : Entry) : FileTree :=
  .ofList [(["d"], .directory), (["d", "fstate_0.txt"], .file "1,2,3\n".toUTF8),
    (["d", "fstate_100.txt"], second)]

/-- There are two steps to scan, whatever the entry is. -/
lemma stepsToScan_twoSnapshots (second : Entry) :
    Snapshot.stepsToScan (twoSnapshots second) ⟨"d"⟩ none (some ⟨100⟩) ⟨1⟩ = .ok (2, ⟨100⟩) := by
  have hnames : (twoSnapshots second).namesIn ⟨"d"⟩ = .ok ["fstate_0.txt", "fstate_100.txt"] := rfl
  have htimes : Snapshot.timesNamed ["fstate_0.txt", "fstate_100.txt"] = [0, 100].toFinset := by
    decide
  have hindex : Snapshot.discover (twoSnapshots second) ⟨"d"⟩
      (Snapshot.givenStep (some ⟨100⟩)) = .ok ⟨⟨"d"⟩, [0, 100], some 100, []⟩ := by
    rw [Snapshot.discover_of_times hnames htimes (by decide) (by decide)]
    decide
  exact Snapshot.stepsToScan_of_discover hindex ⟨1⟩

/-- If the second snapshot is an empty file, the check succeeds and the analysis prints something;
if it is a directory, neither is so. -/
theorem check_agrees_sample :
    Check.Asks ["d", "--step-ns", "100", "--parse"] ⟨"d"⟩ (some 100) ∧
      Analyze.Asks ["--fstate-dir", "d", "--step-ns=100"] ⟨"d"⟩ (some 100) ∧
      (∀ surroundings : Surroundings,
        (analyze.outcome surroundings (twoSnapshots (.file ByteArray.empty))
          ["--fstate-dir", "d", "--step-ns=100"]).console.printed ≠ "") ∧
      ∀ surroundings : Surroundings,
        (check.outcome surroundings (twoSnapshots .directory)
          ["d", "--step-ns", "100", "--parse"]).code ≠ 0 := by
  have hcheck : Check.Asks ["d", "--step-ns", "100", "--parse"] ⟨"d"⟩ (some 100) :=
    ⟨⟨[("step-ns", "100"), ("parse", "")], ["d"]⟩, by decide, rfl, by decide, by decide⟩
  have hanalyse : Analyze.Asks ["--fstate-dir", "d", "--step-ns=100"] ⟨"d"⟩ (some 100) :=
    ⟨⟨[("fstate-dir", "d"), ("step-ns", "100")], []⟩, by decide, rfl, by decide, by decide⟩
  refine ⟨hcheck, hanalyse, fun surroundings => ?_, fun surroundings hcode => ?_⟩
  · obtain ⟨hagree, hscan⟩ := check_agrees (twoSnapshots (.file ByteArray.empty)) surroundings
      hcheck hanalyse ⟨1⟩
    refine hagree.mp (hscan.mpr ⟨2, ⟨100⟩, stepsToScan_twoSnapshots _, fun i hi => ?_⟩)
    have hcases : i = 0 ∨ i = 1 := by omega
    rcases hcases with rfl | rfl
    · exact ⟨[⟨1, 2, 3⟩], by decide⟩
    · exact ⟨[], by decide⟩
  · obtain ⟨-, hscan⟩ := check_agrees (twoSnapshots .directory) surroundings hcheck hanalyse ⟨1⟩
    obtain ⟨n, d, hsteps, hload⟩ := hscan.mp hcode
    cases hsteps.symm.trans (stepsToScan_twoSnapshots .directory)
    obtain ⟨routes, hroutes⟩ := hload 1 (by decide)
    have hblocked : (SnapshotSource.ofDirectory (twoSnapshots .directory) ⟨"d"⟩).load 1 ⟨100⟩ =
        .error (.snapshot 1 (.table ⟨"d/fstate_100.txt"⟩ (.file .isADirectory))) := by decide
    cases hblocked.symm.trans hroutes

end Program

end Constellation
