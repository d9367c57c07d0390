import Constellation.Proofs.Experiment.Separation
import Constellation.Proofs.FileTree.Descending
import Constellation.Session.Job
set_option autoImplicit false

/-!
# Where jobs put their logs

The job of a run writes into a directory of its own, which is emptied before. Its name is fixed, and
it lies in the directory of the run, so that no two runs share it.

## Main definitions

* `JobLayout.runsPath`, `JobLayout.runPath`, `JobLayout.logsPath` — the directory for all runs, that
  of a run, and the one for its logs.
* `JobLayout.Leads` — nothing gets lost on the way to the directory for all runs.
* `JobLayout.Prepared` — the directories for the logs of some runs have been made ready.
* `JobLayout.LogsApart` — the jobs of some runs write into directories of their own.

## Main results

* `JobLayout.join_logDirectory` — the directory for logs is a name in that of the run.
* `JobLayout.prepared_of_run` — directories that are made ready one after the other stay so.
* `JobLayout.logs_apart` — so the jobs of an experiment write into directories of their own.
* `JobLayout.prepareLogDirectory_stale` — old logs are left where the way to them is missing.

## Design

A path that goes through something that is not there yet may lead to a directory that could not be
emptied. If the simulator is there this cannot happen, and only what its own path goes through can
be left in a directory that has been prepared.
-/

namespace Constellation

namespace JobLayout

variable (layout : JobLayout) {run other : Run}

/-! ## Paths -/

/-- The directory for all runs. -/
def runsPath : Path :=
  (layout.simulatorRoot.join layout.experimentDirectory).join Run.runsDirectory

/-- The directory of a run. -/
def runPath (run : Run) : Path := layout.runsPath.join ⟨run.name⟩

/-- The directory for the logs of a run. -/
def logsPath (run : Run) : Path := (layout.runPath run).join ⟨"logs_ns3"⟩

/-- Whether a location is the directory of a run, or that for its logs or below. -/
def Owns (run : Run) (l : Location) : Prop :=
  l = (layout.runPath run).goal ∨ (layout.logsPath run).goal.Covers l

/-- The name of the directory for logs is plain. -/
lemma isPlain_logs : FileTree.IsPlain "logs_ns3" := ⟨by decide, by decide, by decide⟩

/-- So is the name of the log of the first job. -/
lemma isPlain_compileLog : FileTree.IsPlain "compile.txt" := ⟨by decide, by decide, by decide⟩

/-- The name of the directory for all runs is no absolute path. -/
lemma isAbsolute_runsDirectory : Run.runsDirectory.isAbsolute = false :=
  Path.isAbsolute_piece Materializer.isPlain_runs.slash

/-- The log of the first job is in the directory for all runs. -/
lemma logFile_prepareJob : layout.prepareJob.logFile = layout.runsPath.join ⟨"compile.txt"⟩ := by
  rw [runsPath, Path.join_assoc _ _ isAbsolute_runsDirectory,
    Path.join_assoc _ _ (Path.isAbsolute_piece isPlain_compileLog.slash)]
  rfl

/-- The log of a run is in the directory that is prepared for it. -/
lemma logFile_job (run : Run) : (layout.job run).logFile =
    (layout.simulatorRoot.join (layout.logDirectory run)).join ⟨"console.txt"⟩ := by
  have hconsole : Path.isAbsolute ⟨"console.txt"⟩ = false := by decide
  rw [Path.join_assoc _ _ hconsole, Job.logFile, job, Job.new]

/-- Nothing gets lost on the way to the directory for all runs: it is there, or its path does not go
up after a name, or the simulator is there and the path does not go up after a name from there. -/
def Leads (tree : FileTree) : Prop :=
  tree.isDirectory layout.runsPath = true ∨
    (layout.simulatorRoot.join layout.experimentDirectory).IsDirect ∨
    tree.isDirectory layout.simulatorRoot = true ∧ layout.experimentDirectory.IsDirect

/-- Then the path only goes down from where it may get stuck. -/
lemma Leads.descends {layout : JobLayout} {tree : FileTree} (h : layout.Leads tree)
    (hparents : tree.HasParents) : tree.Descends layout.runsPath := by
  rcases h with hdirectory | hdirect | ⟨hsimulator, hdirect⟩
  · exact FileTree.descends_of_forall (FileTree.isDirectory_iff.mp hdirectory).2
  · exact (hdirect.descends tree).join Materializer.isPlain_runs
  · exact (hparents.descends_join hsimulator hdirect).join Materializer.isPlain_runs

section Plain

variable (hname : FileTree.IsPlain run.name)

include hname

/-- The directory of a run is a name in that of all runs. -/
lemma join_directory :
    layout.simulatorRoot.join (layout.experimentDirectory.join run.directory) =
      layout.runPath run := by
  have hpiece := Path.isAbsolute_piece hname.slash
  have hrun : run.directory.isAbsolute = false :=
    (Path.isAbsolute_join _ hpiece).trans isAbsolute_runsDirectory
  rw [← Path.join_assoc _ _ hrun, Run.directory, ← Path.join_assoc _ _ hpiece, runPath, runsPath]

/-- **The directory that is prepared for the logs of a run** is a name in that of the run. -/
lemma join_logDirectory :
    layout.simulatorRoot.join (layout.logDirectory run) = layout.logsPath run := by
  rw [logDirectory, ← Path.join_assoc _ _ (Path.isAbsolute_piece isPlain_logs.slash),
    join_directory layout hname, logsPath]

/-- It is at its name below the location of all runs. -/
lemma goal_runPath : (layout.runPath run).goal = layout.runsPath.goal ++ [run.name] := by
  rw [runPath, Path.goal_join hname]

/-- The directory for logs is below it. -/
lemma goal_logsPath :
    (layout.logsPath run).goal = layout.runsPath.goal ++ [run.name, "logs_ns3"] := by
  rw [logsPath, Path.goal_join isPlain_logs, goal_runPath layout hname, List.append_assoc]
  rfl

/-- The walk to it ends there. -/
lemma mem_walk_logsPath {l : Location} : l ∈ (layout.logsPath run).walk ↔
    l ∈ layout.runsPath.walk ∨ l = (layout.runPath run).goal ∨ l = (layout.logsPath run).goal := by
  rw [Path.mem_walk_iff, logsPath, Path.through_join isPlain_logs, Path.mem_walk_iff, runPath,
    Path.through_join hname, or_assoc]

/-- What is below there has a name after that of the directory for logs. -/
lemma exists_of_isBelow_logsPath {l : Location}
    (h : (layout.logsPath run).goal.isBelow l = true) :
    ∃ next rest, l = layout.runsPath.goal ++ run.name :: "logs_ns3" :: next :: rest := by
  obtain ⟨next, rest, hl⟩ := Location.exists_of_isBelow h
  rw [goal_logsPath layout hname, List.append_assoc] at hl
  exact ⟨next, rest, hl⟩

/-- What it goes through below there, the path of the directory for all runs goes through. -/
lemma mem_walk_logsPath_of_isBelow {l : Location}
    (h : (layout.logsPath run).goal.isBelow l = true) :
    l ∈ (layout.logsPath run).walk ↔ l ∈ layout.runsPath.walk := by
  obtain ⟨next, rest, hl⟩ := layout.exists_of_isBelow_logsPath hname h
  rw [mem_walk_logsPath layout hname, or_iff_left]
  rw [hl, goal_logsPath layout hname, goal_runPath layout hname]
  simp

/-- What a run owns has its name after the location of all runs. -/
lemma exists_of_owns {l : Location} (h : layout.Owns run l) :
    ∃ rest, l = layout.runsPath.goal ++ run.name :: rest := by
  rcases h with rfl | hcovers
  · exact ⟨[], goal_runPath layout hname⟩
  · rw [logsPath, Path.goal_join isPlain_logs, goal_runPath layout hname] at hcovers
    obtain ⟨rest, hrest⟩ := hcovers.exists_eq
    exact ⟨"logs_ns3" :: rest, by rw [hrest, List.append_assoc, List.singleton_append]⟩

/-- Runs that own the same have the same name. -/
lemma name_eq_of_owns (hother : FileTree.IsPlain other.name) {l : Location} (h : layout.Owns run l)
    (h' : layout.Owns other l) : run.name = other.name := by
  obtain ⟨rest, hl⟩ := layout.exists_of_owns hname h
  obtain ⟨rest', hl'⟩ := layout.exists_of_owns hother h'
  exact (List.cons.inj (List.append_cancel_left (hl.symm.trans hl'))).1

/-- What is below the directory for logs is not given. -/
lemma isGiven_of_isBelow {l : Location} (h : (layout.logsPath run).goal.isBelow l = true) :
    l.isGiven = false := by
  obtain ⟨next, rest, hl⟩ := layout.exists_of_isBelow_logsPath hname h
  rw [hl]
  exact hname.isGiven_append _ _

/-- What is below the directory for logs is not above that for all runs. -/
lemma goal_ne_of_isBelow {l : Location} (h : (layout.logsPath run).goal.isBelow l = true)
    (rest : Location) : layout.runsPath.goal ≠ l ++ rest := by
  intro heq
  obtain ⟨next, others, hl⟩ := layout.exists_of_isBelow_logsPath hname h
  have hlength := congrArg List.length heq
  rw [hl] at hlength
  simp at hlength

/-- A path that does not go up after a name goes through nothing below the directory for logs. -/
lemma notMem_walk_runsPath
    (hdirect : (layout.simulatorRoot.join layout.experimentDirectory).IsDirect) {l : Location}
    (h : (layout.logsPath run).goal.isBelow l = true) : l ∉ layout.runsPath.walk := by
  intro hmem
  rcases (hdirect.join Materializer.isPlain_runs).exists_goal_eq hmem with hgiven | ⟨rest, hrest⟩
  · rw [layout.isGiven_of_isBelow hname h] at hgiven
    cases hgiven
  · exact layout.goal_ne_of_isBelow hname h rest hrest

/-- If it does not do so from the simulator, it goes through nothing there but what the path of the
simulator goes through. -/
lemma mem_walk_simulatorRoot (hdirect : layout.experimentDirectory.IsDirect) {l : Location}
    (h : (layout.logsPath run).goal.isBelow l = true) (hl : l ∈ layout.runsPath.walk) :
    l ∈ layout.simulatorRoot.walk := by
  have hgoal : layout.runsPath.goal =
      (layout.simulatorRoot.join layout.experimentDirectory).goal ++ ["runs"] :=
    Path.goal_join Materializer.isPlain_runs
  have hwalk : layout.runsPath.walk =
      (layout.simulatorRoot.join layout.experimentDirectory).walk ++ [layout.runsPath.goal] := by
    rw [hgoal]
    exact Path.walk_join Materializer.isPlain_runs
  rw [hwalk, List.mem_append, List.mem_singleton] at hl
  rcases hl with hl | hl
  · rcases hdirect.exists_goal_join_eq hl with hsimulator | hgiven | ⟨rest, hrest⟩
    · exact hsimulator
    · rw [layout.isGiven_of_isBelow hname h] at hgiven
      cases hgiven
    · refine absurd ?_ (layout.goal_ne_of_isBelow hname h (rest ++ ["runs"]))
      rw [hgoal, hrest, List.append_assoc]
  · refine absurd ?_ (layout.goal_ne_of_isBelow hname h [])
    rw [hl, List.append_nil]

end Plain

/-! ## Directories for logs -/

/-- The directories for the logs of some runs have been made ready. -/
structure Prepared (runs : List Run) (before after : FileTree) : Prop where
  /-- They are there. -/
  made : ∀ run ∈ runs, after.isDirectory (layout.logsPath run) = true
  /-- Nothing is below them but the directories that the path of the directory for all runs goes
  through. -/
  emptied : ∀ run ∈ runs, ∀ l, (layout.logsPath run).goal.isBelow l = true →
    after.lookUp l = if l ∈ layout.runsPath.walk then some .directory else none
  /-- What this path goes through is there if any run has been prepared, and stays in any case. -/
  walk : (runs ≠ [] ∨ ∀ l ∈ layout.runsPath.walk, before.lookUp l = some .directory) →
    ∀ l ∈ layout.runsPath.walk, after.lookUp l = some .directory
  /-- All else that no run owns is as before. -/
  kept : ∀ l, l ∉ layout.runsPath.walk → (∀ run ∈ runs, ¬ layout.Owns run l) →
    after.lookUp l = before.lookUp l

variable {layout} {runs : List Run} {tree tree' middle : FileTree} {path : Path} {paths : List Path}

/-- A directory that is prepared is recreated. -/
lemma run_recreate_of_run (h : (layout.prepareLogDirectory run).run tree = (.ok path, tree')) :
    path = layout.simulatorRoot.join (layout.logDirectory run) ∧
      (Files.recreate path).run tree = (.ok (), tree') := by
  obtain ⟨_, after, hrecreate, hpure⟩ := Files.run_bind_eq_ok h
  have heq := Prod.mk.inj hpure
  rw [← Except.ok.inj heq.1, ← heq.2]
  exact ⟨rfl, hrecreate⟩

/-- And if it can be recreated it is prepared. -/
lemma run_of_run_recreate (hname : FileTree.IsPlain run.name)
    (h : (Files.recreate (layout.logsPath run)).run tree = (.ok (), tree')) :
    (layout.prepareLogDirectory run).run tree = (.ok (layout.logsPath run), tree') := by
  rw [prepareLogDirectory, join_logDirectory layout hname, Files.run_bind_ok h]
  rfl

/-- Either the directory of a run is made ready with those of others, or nothing that the run owns
is touched. -/
lemma Prepared.eq_or_lookUp_eq (h : layout.Prepared runs middle tree')
    (hname : FileTree.IsPlain run.name) (hothers : ∀ other ∈ runs, FileTree.IsPlain other.name) :
    (∃ other ∈ runs, layout.logsPath other = layout.logsPath run) ∨
      ∀ l, layout.Owns run l → l ∉ layout.runsPath.walk → tree'.lookUp l = middle.lookUp l := by
  by_cases hagain : ∃ other ∈ runs, other.name = run.name
  · obtain ⟨other, hother, heq⟩ := hagain
    refine Or.inl ⟨other, hother, ?_⟩
    rw [logsPath, logsPath, runPath, runPath, heq]
  · refine Or.inr fun l hl hout => h.kept l hout fun other hother howns => ?_
    exact hagain ⟨other, hother, layout.name_eq_of_owns (hothers other hother) hname howns hl⟩

/-- A directory that has been recreated stays as it is, unless it is recreated again. -/
lemma Prepared.cons (hnames : ∀ other ∈ run :: runs, FileTree.IsPlain other.name)
    (hmiddle : middle.isDirectory (layout.logsPath run) = true)
    (h : tree.HasRecreated middle (layout.logsPath run))
    (hrest : layout.Prepared runs middle tree') :
    layout.Prepared (run :: runs) tree tree' := by
  rw [List.forall_mem_cons] at hnames
  obtain ⟨hname, hothers⟩ := hnames
  have hwalk : ∀ l ∈ layout.runsPath.walk, tree'.lookUp l = some .directory :=
    hrest.walk (Or.inr fun l hl => h.made l ((mem_walk_logsPath layout hname).mpr (Or.inl hl)))
  -- what is prepared again later is ready then, and all else stays as it has been made
  have hown := hrest.eq_or_lookUp_eq hname hothers
  refine ⟨List.forall_mem_cons.mpr ⟨?_, hrest.made⟩, List.forall_mem_cons.mpr ⟨?_, hrest.emptied⟩,
    fun _ => hwalk, ?_⟩
  · rcases hown with ⟨other, hother, heq⟩ | hkept
    · exact heq ▸ hrest.made other hother
    · refine FileTree.isDirectory_iff.mpr ⟨(FileTree.isDirectory_iff.mp hmiddle).1, fun l hl => ?_⟩
      by_cases hmem : l ∈ layout.runsPath.walk
      · exact hwalk l hmem
      · have howned := ((mem_walk_logsPath layout hname).mp hl).resolve_left hmem
        rw [hkept l (howned.imp_right Or.inl) hmem]
        exact h.made l hl
  · intro l hbelow
    split
    · next hmem => exact hwalk l hmem
    · next hmem =>
      rcases hown with ⟨other, hother, heq⟩ | hkept
      · have hlast := hrest.emptied other hother l (heq ▸ hbelow)
        rwa [if_neg hmem] at hlast
      · rw [hkept l (Or.inr (Or.inr hbelow)) hmem]
        exact h.emptied l hbelow fun hin =>
          hmem ((mem_walk_logsPath_of_isBelow layout hname hbelow).mp hin)
  · intro l hl hout
    rw [List.forall_mem_cons] at hout
    have hout' := hout.1
    rw [Owns, Location.Covers, not_or, not_or, Bool.not_eq_true] at hout'
    rw [hrest.kept l hl hout.2, h.kept l ?_ hout'.2.2]
    rw [mem_walk_logsPath layout hname, not_or, not_or]
    exact ⟨hl, hout'.1, hout'.2.1⟩

/-- **Directories that are made ready one after the other** stay so. -/
lemma prepared_of_run (hnames : ∀ run ∈ runs, FileTree.IsPlain run.name)
    (hparents : tree.HasParents) (hdescends : tree.Descends layout.runsPath)
    (h : (runs.mapM layout.prepareLogDirectory).run tree = (.ok paths, tree')) :
    paths = runs.map layout.logsPath ∧ layout.Prepared runs tree tree' := by
  induction runs generalizing tree paths with
  | nil =>
    cases h
    exact ⟨rfl, by simp, by simp, fun hwalk => hwalk.resolve_left (by simp), fun _ _ _ => rfl⟩
  | cons run runs ih =>
    rw [List.mapM_cons] at h
    obtain ⟨path, middle, hrun, hrest⟩ := Files.run_bind_eq_ok h
    obtain ⟨others, last, hothers, hpure⟩ := Files.run_bind_eq_ok hrest
    cases hpure
    have hname := hnames run List.mem_cons_self
    obtain ⟨hpath, hrecreate⟩ := run_recreate_of_run hrun
    rw [join_logDirectory layout hname] at hpath
    rw [hpath, logsPath] at hrecreate
    have hmiddle : middle.isDirectory (layout.logsPath run) = true :=
      Files.isDirectory_of_run_recreate (Path.text_join_ne_empty isPlain_logs) hrecreate
    have hrecreated : tree.HasRecreated middle (layout.logsPath run) :=
      Files.hasRecreated_of_run hparents (hdescends.join hname) isPlain_logs hrecreate
    -- from now on the path goes through directories, so the others are recreated as well
    obtain ⟨hpaths, hall⟩ := ih (fun other hother => hnames other (List.mem_cons_of_mem run hother))
      (hrecreated.hasParents hparents) (FileTree.descends_of_forall fun l hl =>
        hrecreated.made l ((mem_walk_logsPath layout hname).mpr (Or.inl hl))) hothers
    exact ⟨by rw [hpath, hpaths, List.map_cons], hall.cons hnames hmiddle hrecreated⟩

/-! ## Runs of an experiment -/

variable (layout) in
/-- The jobs of some runs write into directories of their own. -/
structure LogsApart (runs : List Run) : Prop where
  /-- The log of a run is in the directory that is prepared for it. -/
  console : ∀ run ∈ runs, ∀ (tree tree' : FileTree) (path : Path),
    (layout.prepareLogDirectory run).run tree = (.ok path, tree') →
    (layout.job run).logFile = path.join ⟨"console.txt"⟩
  /-- This directory is a name in that of the run. -/
  place : ∀ run ∈ runs,
    layout.simulatorRoot.join (layout.experimentDirectory.join run.directory) =
      layout.runPath run ∧
    layout.simulatorRoot.join (layout.logDirectory run) = layout.logsPath run
  /-- No two of them are the same, and none lies in another one. -/
  apart : runs.Pairwise fun run other =>
    ¬ (layout.logsPath run).goal.Covers (layout.logsPath other).goal ∧
    ¬ (layout.logsPath other).goal.Covers (layout.logsPath run).goal
  /-- They can be prepared in any order. If this succeeds they are all there, with nothing in them
  but what the path of the directory for all runs goes through. -/
  ready : ∀ (order : List Run) (tree tree' : FileTree) (paths : List Path),
    (∀ run ∈ order, run ∈ runs) → tree.HasParents → layout.Leads tree →
    (order.mapM layout.prepareLogDirectory).run tree = (.ok paths, tree') →
    paths = order.map layout.logsPath ∧ layout.Prepared order tree tree'
  /-- They are empty if this path does not go up after a name, or if it does not do so from the
  simulator, and the path of the simulator goes through nothing in them. -/
  empty : ∀ (order : List Run) (tree tree' : FileTree) (paths : List Path),
    (∀ run ∈ order, run ∈ runs) → tree.HasParents → layout.Leads tree →
    (order.mapM layout.prepareLogDirectory).run tree = (.ok paths, tree') →
    ∀ run ∈ order, (layout.simulatorRoot.join layout.experimentDirectory).IsDirect ∨
        layout.experimentDirectory.IsDirect ∧
          (∀ l ∈ layout.simulatorRoot.walk, (layout.logsPath run).goal.isBelow l = false) →
      ∀ l, (layout.logsPath run).goal.isBelow l = true → tree'.lookUp l = none
  /-- The log of the first job is in the directory for all runs, but not in that of a run. -/
  compile : layout.prepareJob.logFile = layout.runsPath.join ⟨"compile.txt"⟩ ∧
    ∀ run ∈ runs, ¬ (layout.runPath run).goal.Covers layout.prepareJob.logFile.goal

/-- Directories of runs with different names are apart. -/
lemma pairwise_not_covers (hnames : ∀ run ∈ runs, FileTree.IsPlain run.name)
    (hnodup : (runs.map (·.name)).Nodup) : runs.Pairwise fun run other =>
      ¬ (layout.logsPath run).goal.Covers (layout.logsPath other).goal ∧
      ¬ (layout.logsPath other).goal.Covers (layout.logsPath run).goal := by
  refine (List.pairwise_map.mp hnodup).imp_of_mem fun {run other} hrun hother hne => ?_
  have hown : ∀ run, layout.Owns run (layout.logsPath run).goal := fun run => Or.inr (Or.inl rfl)
  exact ⟨fun hcovers => hne (layout.name_eq_of_owns (hnames run hrun) (hnames other hother)
      (Or.inr hcovers) (hown other)),
    fun hcovers => hne (layout.name_eq_of_owns (hnames run hrun) (hnames other hother)
      (hown run) (Or.inr hcovers))⟩

/-- **Jobs log into the directories that are prepared for them**, and these are apart from each
other and from the log of the first job.

**Proof sketch.** Names of runs are single names that differ (`Experiment.isPlain_name`,
`Experiment.nodup_name`), so what a run owns has its name at a fixed place (`name_eq_of_owns`). A
directory that is recreated below a path that only goes down is empty, but for its own walk
(`Files.hasRecreated_of_run`). By induction on the order of the runs each of them stays so, since
the others do not touch what it owns (`prepared_of_run`). -/
theorem logs_apart {e : Experiment} (layout : JobLayout) (h : e.runs = .ok runs) :
    layout.LogsApart runs := by
  have hnames : ∀ run ∈ runs, FileTree.IsPlain run.name := fun run hrun =>
    Experiment.isPlain_name h hrun
  refine ⟨?_, fun run hrun => ⟨layout.join_directory (hnames run hrun),
    layout.join_logDirectory (hnames run hrun)⟩,
    pairwise_not_covers hnames (Experiment.nodup_name h), ?_, ?_, layout.logFile_prepareJob, ?_⟩
  · intro run _ tree tree' path hrun
    rw [(run_recreate_of_run hrun).1, logFile_job]
  · intro order tree tree' paths hsub hparents hleads hrun
    exact prepared_of_run (fun run hrun => hnames run (hsub run hrun)) hparents
      (hleads.descends hparents) hrun
  · intro order tree tree' paths hsub hparents hleads hrun run hmem hclear l hbelow
    have hname := hnames run (hsub run hmem)
    obtain ⟨-, hprepared⟩ := prepared_of_run (fun run hrun => hnames run (hsub run hrun)) hparents
      (hleads.descends hparents) hrun
    rw [hprepared.emptied run hmem l hbelow, if_neg]
    rcases hclear with hdirect | ⟨hdirect, houtside⟩
    · exact layout.notMem_walk_runsPath hname hdirect hbelow
    · intro hl
      rw [houtside l (layout.mem_walk_simulatorRoot hname hdirect hbelow hl)] at hbelow
      cases hbelow
  · intro run hrun hcovers
    rw [logFile_prepareJob, Path.goal_join isPlain_compileLog,
      goal_runPath layout (hnames run hrun)] at hcovers
    have hname : run.name = "compile.txt" := hcovers.name_eq (Or.inl rfl)
    have hmem := hname ▸ Experiment.mem_name h hrun
    revert hmem
    decide

/-! ## Old logs -/

/-- The directory of an experiment beside that of the simulator. -/
def beside : JobLayout := ⟨⟨"s"⟩, ⟨"../e"⟩, "./waf"⟩

/-- A tree with an old file among the logs of this run, and further entries. -/
def staleTree (further : List (Location × Entry)) : FileTree :=
  .ofList <| (["e"], .directory) :: (["e", "runs"], .directory) ::
    (["e", "runs", "t_1_to_2_with_Ping_paired_loss_0_0"], .directory) ::
    (["e", "runs", "t_1_to_2_with_Ping_paired_loss_0_0", "logs_ns3"], .directory) ::
    (["e", "runs", "t_1_to_2_with_Ping_paired_loss_0_0", "logs_ns3", "old.txt"],
      .file "x".toUTF8) :: further

/-- Nothing hangs in the air if the further entries are single names. -/
lemma hasParents_staleTree {further : List (Location × Entry)}
    (h : ∀ e ∈ further, e.1.dropLast = []) : (staleTree further).HasParents := by
  apply FileTree.hasParents_of_entries
  rw [staleTree, FileTree.ofList]
  simp only [List.map_cons, List.forall_mem_cons, List.forall_mem_map]
  refine ⟨Or.inr rfl, Or.inr rfl, Or.inr rfl, Or.inr rfl, Or.inr rfl, fun e he => Or.inr ?_⟩
  have hkey : e.1.key.2 = e.1 := rfl
  rw [hkey, h e he]
  rfl

section Single

variable (hname : run.name = "t_1_to_2_with_Ping_paired_loss_0_0")

include hname

/-- The directory for the logs of this run. -/
lemma logsPath_beside : beside.logsPath run =
    ⟨"s/../e/runs/t_1_to_2_with_Ping_paired_loss_0_0/logs_ns3"⟩ := by
  rw [logsPath, runPath, runsPath, hname]
  decide +kernel

/-- It is beside the directory of the simulator. -/
lemma goal_logsPath_beside : (beside.logsPath run).goal =
    ["e", "runs", "t_1_to_2_with_Ping_paired_loss_0_0", "logs_ns3"] := by
  rw [logsPath_beside hname]
  decide +kernel

/-- Its path goes through that directory. -/
lemma walk_logsPath_beside : (beside.logsPath run).walk = [[], ["s"], [], ["e"], ["e", "runs"],
    ["e", "runs", "t_1_to_2_with_Ping_paired_loss_0_0"],
    ["e", "runs", "t_1_to_2_with_Ping_paired_loss_0_0", "logs_ns3"]] := by
  rw [logsPath_beside hname]
  decide +kernel

/-- It can be used. -/
lemma isUsable_logsPath_beside : (beside.logsPath run).IsUsable := by
  rw [logsPath_beside hname]
  refine ⟨by decide +kernel, by decide +kernel, by decide +kernel, ?_⟩
  unfold FileTree.IsShort
  decide +kernel

end Single

/-- The logs of this run are apart, and its old logs are removed if the simulator is there. -/
theorem logs_apart_beside : ∃ run paths tree', Experiment.single.runs = .ok [run] ∧
    ([run].mapM beside.prepareLogDirectory).run (staleTree [(["s"], .directory)]) =
      (.ok paths, tree') ∧
    beside.LogsApart [run] ∧ paths = [beside.logsPath run] ∧
    tree'.lookUp ((beside.logsPath run).goal ++ ["old.txt"]) = none := by
  obtain ⟨run, hruns, hname⟩ := Experiment.exists_run_single
  have hplain : FileTree.IsPlain run.name := hname ▸ ⟨by decide, by decide, by decide⟩
  have hold : FileTree.IsPlain "old.txt" := ⟨by decide, by decide, by decide⟩
  have hparents : (staleTree [(["s"], .directory)]).HasParents :=
    hasParents_staleTree (List.forall_mem_singleton.mpr rfl)
  have hleads : beside.Leads (staleTree [(["s"], .directory)]) :=
    Or.inr (Or.inr ⟨by decide +kernel, by decide +kernel⟩)
  have hresolve : (staleTree [(["s"], .directory)]).resolve (beside.logsPath run) ≠
      .error .notADirectory := by
    rw [logsPath_beside hname]
    decide +kernel
  have hclearable := hparents.isClearable
    (((hleads.descends hparents).join hplain).join isPlain_logs)
    (isUsable_logsPath_beside hname) (Path.names_join_ne_nil isPlain_logs)
    (Path.demandsDirectory_join isPlain_logs) hresolve
  obtain ⟨tree', hrecreate, -⟩ := Files.run_recreate hclearable
  have hrun : ([run].mapM beside.prepareLogDirectory).run (staleTree [(["s"], .directory)]) =
      (.ok [beside.logsPath run], tree') := by
    rw [List.mapM_cons, Files.run_bind_ok (run_of_run_recreate hplain hrecreate)]
    rfl
  have houtside : ∀ l ∈ beside.simulatorRoot.walk,
      (beside.logsPath run).goal.isBelow l = false := by
    rw [goal_logsPath_beside hname]
    decide +kernel
  have hapart := logs_apart beside hruns
  exact ⟨run, _, tree', hruns, hrun, hapart, rfl,
    hapart.empty [run] _ _ _ (fun _ => id) hparents hleads hrun run List.mem_cons_self
      (Or.inr ⟨by decide +kernel, houtside⟩) _ (Location.isBelow_append hold _ [])⟩

/-- **Old logs are left where the way to them is missing**: nothing can be removed, but the way is
made. -/
theorem prepareLogDirectory_stale : ∃ run path tree', Experiment.single.runs = .ok [run] ∧
    beside.simulatorRoot.IsDirect ∧ beside.experimentDirectory.IsDirect ∧
    (staleTree []).HasParents ∧
    (beside.prepareLogDirectory run).run (staleTree []) = (.ok path, tree') ∧
    path = beside.logsPath run ∧ path.goal.isBelow (path.goal ++ ["old.txt"]) = true ∧
    tree'.lookUp (path.goal ++ ["old.txt"]) = some (.file "x".toUTF8) := by
  obtain ⟨run, hruns, hname⟩ := Experiment.exists_run_single
  have hplain : FileTree.IsPlain run.name := hname ▸ ⟨by decide, by decide, by decide⟩
  have hold : FileTree.IsPlain "old.txt" := ⟨by decide, by decide, by decide⟩
  have hgoal := goal_logsPath_beside hname
  have hway : (staleTree []).IsFree (beside.logsPath run) := by
    rw [FileTree.IsFree, walk_logsPath_beside hname]
    simp only [List.forall_mem_cons]
    exact ⟨Or.inl rfl, Or.inr rfl, Or.inl rfl, Or.inl rfl, Or.inl rfl, Or.inl rfl, Or.inl rfl,
      by simp⟩
  have hsimulator : ["s"] ∈ (beside.logsPath run).through := by
    refine (Path.mem_walk_iff.mp ?_).resolve_right ?_
    · rw [walk_logsPath_beside hname]
      decide
    · rw [hgoal]
      decide
  obtain ⟨tree', hrecreate, hmade⟩ := Files.run_recreate_of_missing
    (isUsable_logsPath_beside hname) (Path.demandsDirectory_join isPlain_logs) hway
    ⟨["s"], hsimulator, rfl⟩
  refine ⟨run, beside.logsPath run, tree', hruns, by decide +kernel, by decide +kernel,
    hasParents_staleTree (by simp), run_of_run_recreate hplain hrecreate, rfl,
    Location.isBelow_append hold _ [], ?_⟩
  rw [hgoal, hmade.kept _ ?_]
  · rfl
  · rw [walk_logsPath_beside hname]
    decide

end JobLayout

end Constellation
