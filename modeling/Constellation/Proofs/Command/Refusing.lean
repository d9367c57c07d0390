import Mathlib.Control.Monad.Basic
import Constellation.Proofs.Command.Scheduling
import Constellation.Proofs.FileTree.Bringing
set_option autoImplicit false

/-!
# What a refused experiment leaves behind

A schedule does not begin while sessions of someone else are active, nor if no session may be active
at all. Sessions of someone else are looked for before the directories for logs are emptied, and
once more afterwards. That no session may be active is found out only afterwards.

## Main definitions

* `Stop.IsRefusal` — the schedule of a command does not begin.
* `JobLayout.IsInLogs` — a location belongs to the logs of some runs.
* `Execute.Refused` — the ways in which an experiment is refused, and what each of them keeps.

## Main results

* `Execute.run_prepareLogs` — preparing the logs is preparing the directory of each run.
* `Execute.run_runSchedule_of_isRefusal` — a schedule is refused at once.
* `Execute.run_command_of_isRefusal` — how far a command has come when it is refused.
* `Execute.refused_keeps` — which files are kept.
* `Execute.refused_loses` — results of a former execution that are lost.

## Design

Everything else that stops a command has another wording: a failure is told with its cause, or it
names the job that cannot be launched. So a refusal is seen from the outside.
-/

namespace Constellation

open FileTree

/-- The schedule of a command does not begin. -/
def Stop.IsRefusal (stop : Stop) : Prop :=
  stop = refused ∨ stop = failure SchedulerFault.invalidParallelism.failure

/-- A failure that differs from the one of a schedule without room is no refusal. -/
lemma Failure.not_isRefusal_stop {failure : Failure}
    (h : failure ≠ SchedulerFault.invalidParallelism.failure) : ¬ failure.stop.IsRefusal := by
  rintro (hstop | hstop)
  · cases hstop
  · exact h (Stop.failure.inj hstop)

/-- A failure within another one is no refusal, since it has a cause. -/
lemma Failure.not_isRefusal_within (failure : Failure) (message : String) :
    ¬ (failure.within message).stop.IsRefusal :=
  Failure.not_isRefusal_stop fun h => List.cons_ne_nil _ _ (congrArg Failure.causes h)

/-- Neither is a fault of an experiment description. -/
lemma ExperimentFault.not_isRefusal_stop (context : String) (fault : ExperimentFault) :
    ¬ (fault.stop context).IsRefusal := by
  cases fault with
  | overflow => rintro (h | h) <;> cases h
  | _ => exact Failure.not_isRefusal_within _ _

/-- Nor is a program that cannot be started. -/
lemma SchedulerFault.not_isRefusal_file (cause : FileFault) :
    ¬ (SchedulerFault.file cause).failure.stop.IsRefusal :=
  Failure.not_isRefusal_stop fun h => List.cons_ne_nil _ _ (congrArg Failure.causes h)

/-- Nor is a job that cannot be launched. -/
lemma SchedulerFault.not_isRefusal_launch (job reason : String) :
    ¬ (SchedulerFault.launch job reason).failure.stop.IsRefusal := by
  refine Failure.not_isRefusal_stop fun h => ?_
  have hlaunch : (SchedulerFault.launch job reason).message.toList.head? = some 'C' := by
    unfold message
    dsimp only [toString]
    rw [String.toList_append, String.toList_append, String.toList_append, List.append_assoc,
      List.append_assoc]
    rfl
  have hsame := congrArg (fun failure : Failure => failure.message.toList.head?) h
  cases hlaunch.symm.trans hsame

/-- A location is that of the directory for the logs of one of some runs, or in it. -/
def JobLayout.IsInLogs (layout : JobLayout) (runs : List Run) (l : Location) : Prop :=
  ∃ run ∈ runs, (layout.simulatorRoot.join (layout.logDirectory run)).goal.Covers l

namespace Execute

variable {c c' : Console} {stop : Stop} {layout : JobLayout} {runs : List Run}

/-! ## The directories for logs -/

/-- Preparing the logs of one run is recreating their directory. -/
lemma relates_prepareLogDirectory {R : FileTree → FileTree → Prop} [Std.Refl R] [IsTrans FileTree R]
    {run : Run}
    (h : Files.Relates R (Files.recreate (layout.simulatorRoot.join (layout.logDirectory run)))) :
    Files.Relates R (layout.prepareLogDirectory run) :=
  h.bind fun _ => Files.relates_pure _

/-- **Preparing the logs** is preparing the directory of each run. Nothing else changes, and a
failure to do so is no refusal. -/
lemma run_prepareLogs {R : FileTree → FileTree → Prop} [Std.Refl R] [IsTrans FileTree R]
    (hrun : ∀ run ∈ runs, Files.Relates R (layout.prepareLogDirectory run))
    {result : Except Stop Unit} (h : (prepareLogs layout runs).run c = (result, c')) :
    (∃ tree, c' = { c with tree } ∧ R c.tree tree) ∧
      ∀ stop, result = .error stop → ¬ stop.IsRefusal := by
  induction runs generalizing c with
  | nil =>
    cases h
    exact ⟨⟨_, rfl, Std.Refl.refl _⟩, nofun⟩
  | cons run runs ih =>
    obtain ⟨hhead, hrest⟩ := List.forall_mem_cons.mp hrun
    have hstep := hhead c.tree
    have hfirst := Command.run_onFiles (fun fault : FileFault => .failure
      (fault.failure.within s!"cannot prepare the log directory of {run.name}"))
      (layout.prepareLogDirectory run) c
    rw [prepareLogs] at h
    rcases hresult : (layout.prepareLogDirectory run).run c.tree with ⟨fault | _, tree⟩
    · rw [hresult] at hstep hfirst
      rw [Command.run_bind_error hfirst] at h
      cases h
      refine ⟨⟨tree, rfl, hstep⟩, fun stop heq => ?_⟩
      cases heq
      exact Failure.not_isRefusal_within _ _
    · rw [hresult] at hstep hfirst
      rw [Command.run_bind_ok hfirst] at h
      obtain ⟨⟨tree', rfl, hlast⟩, hstops⟩ := ih hrest h
      exact ⟨⟨tree', rfl, IsTrans.trans _ _ _ hstep hlast⟩, hstops⟩

/-! ## Sessions of someone else -/

/-- The console after sessions of someone else have been told. -/
def told (c : Console) (count : ℕ) : Console :=
  { c with printed := c.printed ++ ((SchedulerFault.staleSessions count).message ++ "\n") }

/-- A fault of a call is no refusal. -/
lemma not_isRefusal_stopFor {α : Type} {fault : SchedulerFault}
    (hfault : Screen.IsFaultOfCall fault)
    (h : (stopFor (α := α) fault).run c = (.error stop, c')) : ¬ stop.IsRefusal := by
  obtain ⟨cause, rfl⟩ | ⟨job, reason, rfl⟩ := hfault
  · cases h
    exact SchedulerFault.not_isRefusal_file cause
  · cases h
    exact SchedulerFault.not_isRefusal_launch job reason

/-- **A count after which the command is refused** has found sessions of someone else. -/
lemma exists_of_checkStale {α : Type} {screen : Screen} {fault : SchedulerFault}
    (hstale : checkStale screen.count = .error fault)
    (h : (stopFor (α := α) fault).run c = (.error stop, c')) (hrefusal : stop.IsRefusal) :
    ∃ n, screen.count = .ok (n + 1) ∧ stop = .refused ∧ c' = told c (n + 1) := by
  cases hcount : screen.count with
  | error fault' =>
    rw [hcount] at hstale
    cases hstale
    exact absurd hrefusal (not_isRefusal_stopFor (Screen.isFaultOfCall_of_count hcount) h)
  | ok n =>
    rw [hcount] at hstale
    cases n with
    | zero => cases hstale
    | succ n =>
      cases hstale
      cases h
      exact ⟨n, rfl, rfl, rfl⟩

/-- With sessions of someone else it is refused. -/
lemma run_refuseStale_of_isRefusal {screen : Screen.Course}
    (h : (refuseStale screen).run c = (.error stop, c')) (hrefusal : stop.IsRefusal) :
    ∃ n, (screen.after c.requests).count = .ok (n + 1) ∧ stop = .refused ∧
      c' = told { c with requests := c.requests + 1 } (n + 1) := by
  rw [run_refuseStale] at h
  cases hstale : checkStale (screen.after c.requests).count with
  | error fault =>
    rw [hstale] at h
    exact exists_of_checkStale hstale h hrefusal
  | ok _ =>
    rw [hstale] at h
    cases h

/-! ## The schedule -/

section Schedule

variable {screen : Screen.Course} {rule : Option LogRule} {config : SchedulerConfig}
  {prepare : Job} {jobs : List Job}

/-- A schedule that ends with the fault of a call is not refused, and neither is one that has been
interrupted. -/
lemma not_isRefusal_conclude {outcome : Option (Except SchedulerFault SchedulerReport)}
    (hfault : ∀ fault, outcome = some (.error fault) → Screen.IsFaultOfCall fault)
    (h : (conclude outcome).run c = (.error stop, c')) : ¬ stop.IsRefusal := by
  cases outcome with
  | none =>
    cases h
    rintro (heq | heq) <;> cases heq
  | some outcome =>
    cases outcome with
    | ok report => cases h
    | error fault => exact not_isRefusal_stopFor (hfault fault rfl) h

/-- **A schedule with room is refused for sessions of someone else** that its first count finds. -/
lemma run_runSchedule_of_isRefusal (hroom : config.maxParallel ≠ 0)
    (h : (runSchedule screen rule (.new config prepare jobs)).run c = (.error stop, c'))
    (hrefusal : stop.IsRefusal) :
    ∃ n, (screen.after c.requests).count = .ok (n + 1) ∧ stop = .refused ∧
      c' = told { c with requests := c.requests + 1 } (n + 1) := by
  have hphase : (Scheduler.new config prepare jobs).phase = .checking := if_neg hroom
  generalize Scheduler.new config prepare jobs = s at h hphase
  have hfuel := requestBound_eq_succ s.jobs screen.patience
  have hcount : (screen.runner.count c.toCalls).1 = (screen.after c.requests).count := rfl
  rw [← hcount]
  cases hstale : checkStale (screen.runner.count c.toCalls).1 with
  | error fault =>
    have hdrive := Scheduler.drive_of_checkStale_error hphase hstale
      (3 * s.jobs.length + 3 + 2 * screen.patience) []
    rw [← hfuel] at hdrive
    rw [run_runSchedule_of_ended hdrive rfl] at h
    rw [hcount] at hstale ⊢
    exact exists_of_checkStale hstale h hrefusal
  | ok _ =>
    obtain ⟨before, hdrive⟩ := Scheduler.drive_of_checkStale_ok hphase hstale
      (3 * s.jobs.length + 3 + 2 * screen.patience) []
    rw [← hfuel] at hdrive
    rcases hfinal : Scheduler.drive screen.runner (3 * s.jobs.length + 3 + 2 * screen.patience)
      (s.goto .launchingPrepare) (screen.runner.count c.toCalls).2 before
      with ⟨final, calls, notices⟩
    obtain ⟨console, -, hrun⟩ := run_runSchedule (hdrive.trans hfinal) rule
    rw [hrun] at h
    refine absurd hrefusal (not_isRefusal_conclude (fun fault houtcome => ?_) h)
    rw [Scheduler.outcome?_eq_some_iff] at houtcome
    have hfault := congrArg (fun result => result.1.phase) hfinal
    refine Screen.Course.fault_of_drive (fun heq => ?_) (fun _ heq => ?_) (hfault.trans houtcome)
    · cases heq
    · cases heq

end Schedule

/-! ## The command -/

/-- A description that cannot be loaded is no refusal. -/
lemma not_isRefusal_ofArguments {given : Arguments}
    (h : (Experiment.ofArguments given).run c = (.error stop, c')) : ¬ stop.IsRefusal := by
  unfold Experiment.ofArguments at h
  split at h
  · cases h
  · obtain ⟨fault, _, -, rfl, -⟩ := Command.run_onFiles_eq_error h
    exact ExperimentFault.not_isRefusal_stop _ fault

/-- **How far a command has come when it is refused**: either it has made the directory for runs,
and has found sessions of someone else, or it has prepared the logs of all chosen runs in addition,
and its schedule has been refused. -/
lemma run_command_of_isRefusal {surroundings : Surroundings} {arguments : List String}
    {tree : FileTree}
    (h : (command surroundings arguments).run (Command.start tree) = (.error stop, c))
    (hrefusal : stop.IsRefusal) :
    ∃ given e runs p made, spec.read arguments = .ok given ∧
      (Experiment.ofArguments given).run (Command.start tree) = (.ok e, Command.start tree) ∧
      e.runs = .ok runs ∧ (Files.makeAll p).run tree = (.ok (), made) ∧
      ((∃ n, (surroundings.screen.after 0).count = .ok (n + 1) ∧ stop = .refused ∧
        c = told { Command.start made with requests := 1 } (n + 1)) ∨
      ∃ prepared jobs, (surroundings.screen.after 0).count = .ok 0 ∧
        (prepareLogs (layoutOf given) (runs.filter (filterOf given).accepts)).run
          { Command.start made with requests := 1 } = (.ok (), prepared) ∧
        (runSchedule surroundings.screen (LogRule.ofTree tree)
          (.new (configOf given) (layoutOf given).prepareJob jobs)).run prepared =
            (.error stop, c)) := by
  unfold command at h
  rw [Command.run_bind_ok Command.run_files] at h
  rcases Command.run_bind_eq_error h with hstop | ⟨given, c₁, hgiven, h⟩
  · obtain ⟨fault, -, rfl, -⟩ := Command.run_ofExcept_eq_error hstop
    cases fault <;> rcases hrefusal with heq | heq <;> cases heq
  obtain ⟨hread, rfl⟩ := Command.run_ofExcept_eq_ok hgiven
  rcases Command.run_bind_eq_error h with hstop | ⟨e, c₂, he, h⟩
  · exact absurd hrefusal (not_isRefusal_ofArguments hstop)
  obtain rfl : c₂ = Command.start tree :=
    (congrArg Prod.snd he).symm.trans (Experiment.console_ofArguments given _)
  rcases Command.run_bind_eq_error h with hstop | ⟨runs, c₃, hruns, h⟩
  · obtain ⟨fault, -, rfl, -⟩ := Command.run_ofExcept_eq_error hstop
    exact absurd hrefusal (ExperimentFault.not_isRefusal_stop _ fault)
  obtain ⟨hexpand, rfl⟩ := Command.run_ofExcept_eq_ok hruns
  rcases Command.run_bind_eq_error h with hstop | ⟨_, c₄, hmake, h⟩
  · obtain ⟨fault, _, -, rfl, -⟩ := Command.run_onFiles_eq_error hstop
    exact absurd hrefusal (Failure.not_isRefusal_within _ _)
  obtain ⟨made, hmade, rfl⟩ := Command.run_onFiles_eq_ok hmake
  refine ⟨given, e, runs, _, made, hread, he, hexpand, hmade, ?_⟩
  rcases Command.run_bind_eq_error h with hstop | ⟨_, c₅, hfirst, h⟩
  · exact Or.inl (run_refuseStale_of_isRefusal hstop hrefusal)
  obtain ⟨hidle, rfl⟩ := run_refuseStale_eq_ok hfirst
  rcases Command.run_bind_eq_error h with hstop | ⟨_, prepared, hlogs, h⟩
  · obtain ⟨-, hstops⟩ := run_prepareLogs (R := BringsNone)
      (fun run _ => relates_prepareLogDirectory (Files.bringsNoFile_recreate _)) hstop
    exact absurd hrefusal (hstops stop rfl)
  rcases Command.run_bind_eq_error h with hstop | ⟨report, c₆, -, h⟩
  · exact Or.inr ⟨prepared, _, hidle, hlogs, hstop⟩
  · obtain ⟨fault, _, -, rfl, -⟩ := Command.run_onFiles_eq_error h
    exact absurd hrefusal (Failure.not_isRefusal_within _ _)

/-- The ways in which an experiment is refused, and which files each of them keeps. -/
inductive Refused (screen : Screen.Course) (given : Arguments) (runs : List Run) (tree : FileTree) :
    Stop → Console → Prop
  /-- Someone else has sessions at the beginning. This is told, and no file is lost. -/
  | early (n : ℕ) (c : Console) (hcount : (screen.after 0).count = .ok (n + 1))
    (hprinted : c.printed = (SchedulerFault.staleSessions (n + 1)).message ++ "\n")
    (hkeeps : KeepsFiles (fun _ => False) tree c.tree) : Refused screen given runs tree .refused c
  /-- Someone else has sessions once the logs have been prepared. This is told as well, and no file
  is lost but those in the directories for the logs of the chosen runs. -/
  | late (n : ℕ) (c : Console) (hroom : (configOf given).maxParallel ≠ 0)
    (hidle : (screen.after 0).count = .ok 0) (hcount : (screen.after 1).count = .ok (n + 1))
    (hprinted : c.printed = (SchedulerFault.staleSessions (n + 1)).message ++ "\n")
    (hkeeps : KeepsFiles ((layoutOf given).IsInLogs (runs.filter (filterOf given).accepts)) tree
      c.tree) : Refused screen given runs tree .refused c
  /-- No session may be active at all. This is found out once the logs have been prepared, and no
  file is lost but those in their directories. -/
  | noRoom (c : Console) (hroom : (configOf given).maxParallel = 0)
    (hidle : (screen.after 0).count = .ok 0)
    (hkeeps : KeepsFiles ((layoutOf given).IsInLogs (runs.filter (filterOf given).accepts)) tree
      c.tree) :
    Refused screen given runs tree (.failure SchedulerFault.invalidParallelism.failure) c

/-- **What a refused experiment keeps.** Nothing is launched and no file is brought. If someone else
has sessions at the beginning, no file is lost. If the sessions are there only by the time that the
schedule begins, or if no session may be active at all, this is found out after the logs have been
prepared: no file is lost but those in the directories for the logs of the chosen runs.

**Proof sketch.** The reasons to stop in all other parts of the command are no refusals, so a
refused command has come to the search for sessions or to its schedule (`run_command_of_isRefusal`).
Making the directory for runs loses no file, and neither does preparing logs outside of their
directories (`Files.keepsFiles_makeAll`, `Files.keepsFiles_recreate`). -/
theorem refused_keeps {surroundings : Surroundings} {arguments : List String} {tree : FileTree}
    (h : (command surroundings arguments).run (Command.start tree) = (.error stop, c))
    (hrefusal : stop.IsRefusal) :
    c.launched = [] ∧ BringsNone tree c.tree ∧
      ∃ given e runs, spec.read arguments = .ok given ∧
        (Experiment.ofArguments given).run (Command.start tree) = (.ok e, Command.start tree) ∧
        e.runs = .ok runs ∧ Refused surroundings.screen given runs tree stop c := by
  obtain ⟨given, e, runs, p, made, hread, he, hruns, hmade, hcases⟩ :=
    run_command_of_isRefusal h hrefusal
  have hmakeAll : ∀ gone, KeepsFiles gone tree made := by
    intro gone
    have hkeeps : KeepsFiles gone tree ((Files.makeAll p).run tree).2 :=
      Files.keepsFiles_makeAll p tree
    rwa [hmade] at hkeeps
  have hbrings : BringsNone tree made := by
    have hbrings := Files.relates_makeAll bringsNone_put p tree
    rwa [hmade] at hbrings
  obtain ⟨n, hcount, rfl, rfl⟩ | ⟨prepared, jobs, hidle, hlogs, hschedule⟩ := hcases
  · exact ⟨rfl, hbrings, given, e, runs, hread, he, hruns, .early n _ hcount
      String.empty_append (hmakeAll _)⟩
  · obtain ⟨⟨after, rfl, hkeepsLogs⟩, -⟩ := run_prepareLogs
      (R := KeepsFiles ((layoutOf given).IsInLogs (runs.filter (filterOf given).accepts)))
      (fun run hrun => relates_prepareLogDirectory <|
        Files.keepsFiles_recreate _ fun l hl => ⟨run, hrun, hl⟩) hlogs
    obtain ⟨⟨_, hafter, hbringsLogs⟩, -⟩ := run_prepareLogs (R := BringsNone)
      (fun run _ => relates_prepareLogDirectory (Files.bringsNoFile_recreate _)) hlogs
    cases hafter
    have hkeeps : KeepsFiles ((layoutOf given).IsInLogs (runs.filter (filterOf given).accepts))
        tree after := IsTrans.trans _ _ _ (hmakeAll _) hkeepsLogs
    have hnone : BringsNone tree after := IsTrans.trans _ _ _ hbrings hbringsLogs
    by_cases hroom : (configOf given).maxParallel = 0
    · rw [run_runSchedule_of_no_room hroom] at hschedule
      cases hschedule
      exact ⟨rfl, hnone, given, e, runs, hread, he, hruns, .noRoom _ hroom hidle hkeeps⟩
    · obtain ⟨n, hcount, rfl, rfl⟩ := run_runSchedule_of_isRefusal hroom hschedule hrefusal
      exact ⟨rfl, hnone, given, e, runs, hread, he, hruns, .late n _ hroom hidle hcount
        String.empty_append hkeeps⟩

/-- A program that lists no session. -/
def noSession : Screen := ⟨"screen", some ("No Sockets found.\n".toUTF8, .code 0)⟩

/-- A program that lists a session of someone else. -/
def oneSession : Screen := ⟨"screen", some ("\t7.a\t(Detached)\n".toUTF8, .code 0)⟩

/-- The location of what the run of the experiment below has printed. -/
def formerOutput : Location :=
  ["e", "runs", "t_1_to_2_with_Ping_paired_loss_0_0", "logs_ns3", "console.txt"]

/-- An experiment with a single run, which has been executed. -/
def executed : FileTree :=
  .ofList [
    (["c.json"], .file Experiment.singleText.toUTF8),
    (["e"], .directory), (["e", "runs"], .directory),
    (["e", "runs", "t_1_to_2_with_Ping_paired_loss_0_0"], .directory),
    (["e", "runs", "t_1_to_2_with_Ping_paired_loss_0_0", "logs_ns3"], .directory),
    (formerOutput, .file "old\n".toUTF8)]

set_option maxRecDepth 10000 in
/-- What the run has printed is there. -/
lemma lookUp_executed : executed.lookUp formerOutput = some (.file "old\n".toUTF8) := rfl

/-- **Without room for any session the results of the former execution are lost**, although nothing
is launched. -/
theorem refused_loses : ∃ c,
    (command ⟨noSession, ""⟩ ["-c", "c.json", "-s", ".", "-e", "e", "-j", "0"]).run
        (Command.start executed) =
      (.error (.failure SchedulerFault.invalidParallelism.failure), c) ∧
    executed.lookUp formerOutput = some (.file "old\n".toUTF8) ∧
    c.tree.lookUp formerOutput = none := by
  have hrefused : ((command ⟨noSession, ""⟩
        ["-c", "c.json", "-s", ".", "-e", "e", "-j", "0"]).run (Command.start executed)).1 =
        .error (.failure SchedulerFault.invalidParallelism.failure) ∧
      (((command ⟨noSession, ""⟩ ["-c", "c.json", "-s", ".", "-e", "e", "-j", "0"]).run
        (Command.start executed)).2.tree.lookUp formerOutput).isNone = true := by
    decide +kernel
  obtain ⟨hstop, hlost⟩ := hrefused
  obtain ⟨c, hrun⟩ := Command.exists_run_of_fst hstop
  rw [hrun] at hlost
  exact ⟨c, hrun, lookUp_executed, Option.isNone_iff_eq_none.mp hlost⟩

/-- A program that lists a session of someone else only after its first listing. -/
def lateSession : Screen.Course :=
  ⟨fun requests => if requests = 0 then noSession else oneSession, 0⟩

/-- While someone else has a session they are kept. If the session is there only by the time that
the schedule begins, they are lost as well. Without room for any session, nothing is launched and no
file is brought. -/
theorem refused_keeps_executed :
    (∃ c, (command ⟨oneSession, ""⟩ ["-s", ".", "-e", "e"]).run (Command.start executed) =
      (.error .refused, c) ∧ c.tree.lookUp formerOutput = some (.file "old\n".toUTF8)) ∧
    (∃ c, (command ⟨lateSession, ""⟩ ["-c", "c.json", "-s", ".", "-e", "e"]).run
        (Command.start executed) = (.error .refused, c) ∧ c.launched = [] ∧
      BringsNone executed c.tree ∧ c.tree.lookUp formerOutput = none) ∧
    ∃ c, (command ⟨noSession, ""⟩ ["-s", ".", "-e", "e", "-j", "0", "-f", "zz"]).run
        (Command.start executed) =
      (.error (.failure SchedulerFault.invalidParallelism.failure), c) ∧ c.launched = [] ∧
      BringsNone executed c.tree := by
  have hearly : ((command ⟨oneSession, ""⟩ ["-s", ".", "-e", "e"]).run
      (Command.start executed)).1 = .error .refused := by
    decide +kernel
  have hlate : ((command ⟨lateSession, ""⟩ ["-c", "c.json", "-s", ".", "-e", "e"]).run
        (Command.start executed)).1 = .error .refused ∧
      (((command ⟨lateSession, ""⟩ ["-c", "c.json", "-s", ".", "-e", "e"]).run
        (Command.start executed)).2.tree.lookUp formerOutput).isNone = true := by
    decide +kernel
  have hnoRoom : ((command ⟨noSession, ""⟩ ["-s", ".", "-e", "e", "-j", "0", "-f", "zz"]).run
      (Command.start executed)).1 =
      .error (.failure SchedulerFault.invalidParallelism.failure) := by
    decide +kernel
  have hone : oneSession.count = .ok 1 := by decide +kernel
  obtain ⟨hlate, hlost⟩ := hlate
  obtain ⟨c₁, hearly⟩ := Command.exists_run_of_fst hearly
  obtain ⟨c₂, hlate⟩ := Command.exists_run_of_fst hlate
  obtain ⟨c₃, hnoRoom⟩ := Command.exists_run_of_fst hnoRoom
  rw [hlate] at hlost
  obtain ⟨-, -, _, _, _, -, -, -, hrefused⟩ := refused_keeps hearly (Or.inl rfl)
  obtain ⟨hlaunched₂, hbrings₂, -⟩ := refused_keeps hlate (Or.inl rfl)
  obtain ⟨hlaunched₃, hbrings₃, -⟩ := refused_keeps hnoRoom (Or.inr rfl)
  refine ⟨⟨c₁, hearly, ?_⟩, ⟨c₂, hlate, hlaunched₂, hbrings₂, Option.isNone_iff_eq_none.mp hlost⟩,
    c₃, hnoRoom, hlaunched₃, hbrings₃⟩
  cases hrefused with
  | early n c hcount hprinted hkeeps => exact hkeeps _ _ id lookUp_executed
  | late n c hroom hidle => cases hone.symm.trans hidle

end Execute

end Constellation
