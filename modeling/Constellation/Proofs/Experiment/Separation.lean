import Constellation.Proofs.Experiment.Materializing
set_option autoImplicit false

/-!
# Runs do not interfere

Each run has its directory removed and made again when its configuration file is written. Since no
two runs hold the same location, none of them loses what another one has written.

## Main definitions

* `Materializer.WritesAll` — a tree comes from another one by writing the files of some runs.
* `Materializer.Outcome` — what is there after the configuration files of all runs have been
  written.

## Main results

* `Materializer.writesAll_of_run` — runs that are written one after the other do not touch each
  other's files.
* `Materializer.run_materializeAll_again` — runs that have been written can be written again, which
  changes nothing.
* `Materializer.materializeAll_outcome` — the outcome for the runs of an experiment.
* `Materializer.materializeAll_winding` — a directory is left in that of a run if the path of the
  experiment directory goes through it.
-/

namespace Constellation

namespace Materializer

variable (m : Materializer) {run : Run}

/-! ## All runs -/

/-- A tree comes from another one by writing the configuration files of some runs. -/
structure WritesAll (content : ByteArray) (runs : List Run) (before after : FileTree) : Prop where
  /-- The files of all runs are there. -/
  settled : ∀ run ∈ runs, m.Settled content run after
  /-- All that no run holds is as before, but for the location of all runs. -/
  kept : ∀ l, l ≠ m.base → (∀ run ∈ runs, ¬ m.Holds run l) → after.lookUp l = before.lookUp l
  /-- The directory of all runs stays. -/
  base : before.lookUp m.base = some .directory → after.lookUp m.base = some .directory
  /-- So does the experiment directory. -/
  directory : after.isDirectory m.directory = true
  /-- The template is still found if there are runs. -/
  template : runs ≠ [] → after.entryAt m.template = .ok (.file content)

section All

variable {m} {tree tree' middle : FileTree} {content : ByteArray} {runs : List Run}
  {paths : List Path}

/-- Writing a run does not change what it does not hold. -/
lemma Writes.lookUp_eq (hname : FileTree.IsPlain run.name)
    (hdirectory : tree.isDirectory m.directory = true) (h : m.Writes content run tree middle)
    {l : Location} (hbase : l ≠ m.base) (hout : ¬ m.Holds run l) :
    middle.lookUp l = tree.lookUp l := by
  rw [Holds, not_or, Bool.not_eq_true] at hout
  by_cases hwalk : l ∈ (m.runDirectory run).walk
  · have hmem := ((mem_walk_runDirectory m hname).mp hwalk).resolve_right
      (not_or.mpr ⟨hbase, hout.1⟩)
    rw [h.settled.walk l hwalk, (FileTree.isDirectory_iff.mp hdirectory).2 l hmem]
  · exact h.kept l hwalk hout.2

/-- The experiment directory stays. -/
lemma Writes.isDirectory (hname : FileTree.IsPlain run.name)
    (hdirectory : tree.isDirectory m.directory = true) (h : m.Writes content run tree middle) :
    middle.isDirectory m.directory = true :=
  FileTree.isDirectory_iff.mpr ⟨(FileTree.isDirectory_iff.mp hdirectory).1, fun l hl =>
    h.settled.walk l ((mem_walk_runDirectory m hname).mpr (Or.inl hl))⟩

/-- A run stays written where nothing that it holds is changed. -/
lemma Settled.of_kept (hname : FileTree.IsPlain run.name) (h : m.Settled content run middle)
    (hdirectory : tree'.isDirectory m.directory = true)
    (hbase : tree'.lookUp m.base = some .directory)
    (hkept : ∀ l, m.Holds run l → tree'.lookUp l = middle.lookUp l) :
    m.Settled content run tree' where
  usable := h.usable
  walk := by
    intro l hl
    rcases (mem_walk_runDirectory m hname).mp hl with hmem | rfl | hplace
    · exact (FileTree.isDirectory_iff.mp hdirectory).2 l hmem
    · exact hbase
    · rw [hkept l (Or.inl hplace), h.walk l hl]
  file := by
    obtain ⟨text, htext, hlookUp⟩ := h.file
    exact ⟨text, htext, (hkept _ (Or.inr (isBelow_file m run))).trans hlookUp⟩
  only := by
    intro l hbelow hwalk hfile
    rw [hkept l (Or.inr hbelow), h.only l hbelow hwalk hfile]
  apart := h.apart

/-- Nothing hangs in the air below a location that a run does not hold. -/
lemma Writes.isRooted (hname : FileTree.IsPlain run.name)
    (hdirectory : tree.isDirectory m.directory = true) (h : m.Writes content run tree middle)
    {other : Run} (hne : other.name ≠ run.name) (hrooted : tree.IsRooted (m.place other)) :
    middle.IsRooted (m.place other) := by
  have hkept : ∀ l, m.Holds other l → middle.lookUp l = tree.lookUp l := fun l hl =>
    h.lookUp_eq hname hdirectory (m.ne_base_of_holds hl) (m.not_holds_of_holds hne hl)
  intro hnone l hbelow
  rw [hkept _ (Or.inl rfl)] at hnone
  rw [hkept l (Or.inr hbelow)]
  exact hrooted hnone l hbelow

/-- After a run has been written, the others are written as well. -/
lemma Writes.trans (hname : FileTree.IsPlain run.name)
    (hdirectory : tree.isDirectory m.directory = true) (h : m.Writes content run tree middle)
    (hnotMem : run.name ∉ runs.map (·.name)) (hall : m.WritesAll content runs middle tree')
    (hnil : runs = [] → tree' = middle) : m.WritesAll content (run :: runs) tree tree' := by
  have hne : ∀ other ∈ runs, run.name ≠ other.name := by
    intro other hother heq
    exact hnotMem (List.mem_map.mpr ⟨other, hother, heq.symm⟩)
  have hbase := hall.base (h.settled.walk _ ((mem_walk_runDirectory m hname).mpr
    (Or.inr (Or.inl rfl))))
  have hfirst := h.settled.of_kept hname hall.directory hbase fun l hl =>
    hall.kept l (m.ne_base_of_holds hl) fun other hother =>
      m.not_holds_of_holds (hne other hother) hl
  refine ⟨List.forall_mem_cons.mpr ⟨hfirst, hall.settled⟩, ?_, fun _ => hbase, hall.directory, ?_⟩
  · intro l hl hout
    rw [List.forall_mem_cons] at hout
    rw [hall.kept l hl hout.2, h.lookUp_eq hname hdirectory hl hout.1]
  · intro _
    by_cases hruns : runs = []
    · rw [hnil hruns]
      exact h.template
    · exact hall.template hruns

/-- **Runs that are written one after the other** do not touch each other's files. -/
lemma writesAll_of_run (hnames : ∀ run ∈ runs, FileTree.IsPlain run.name)
    (hnodup : (runs.map (·.name)).Nodup) (hdirectory : tree.isDirectory m.directory = true)
    (hrooted : tree.IsRooted m.base) (hplaces : ∀ run ∈ runs, tree.IsRooted (m.place run))
    (hsource : tree.lookUp m.template.goal = some (.file content))
    (h : (m.materializeAll runs).run tree = (.ok paths, tree')) :
    paths = runs.map m.configurationPath ∧ m.WritesAll content runs tree tree' := by
  induction runs generalizing tree paths with
  | nil =>
    cases h
    exact ⟨rfl, ⟨by simp, fun _ _ _ => rfl, id, hdirectory, fun hne => absurd rfl hne⟩⟩
  | cons run runs ih =>
    rw [List.forall_mem_cons] at hnames hplaces
    rw [List.map_cons, List.nodup_cons] at hnodup
    obtain ⟨path, middle, hrun, hrest⟩ := Files.run_bind_eq_ok h
    obtain ⟨others, last, hothers, hpure⟩ := Files.run_bind_eq_ok hrest
    cases hpure
    obtain ⟨rfl, content', hwrites⟩ :=
      writes_of_run hnames.1 hdirectory hrooted hplaces.1 hrun
    obtain rfl : content' = content := by
      have hsame := hwrites.source
      rw [hsource] at hsame
      cases hsame
      rfl
    have hbase : middle.IsRooted m.base := by
      intro hnone
      rw [hwrites.settled.walk _ ((mem_walk_runDirectory m hnames.1).mpr
        (Or.inr (Or.inl rfl)))] at hnone
      cases hnone
    have hplaces' : ∀ other ∈ runs, middle.IsRooted (m.place other) := fun other hother =>
      hwrites.isRooted hnames.1 hdirectory
        (fun heq => hnodup.1 (List.mem_map.mpr ⟨other, hother, heq⟩)) (hplaces.2 other hother)
    obtain ⟨rfl, hall⟩ := ih hnames.2 hnodup.2 (hwrites.isDirectory hnames.1 hdirectory) hbase
      hplaces' (FileTree.entryAt_eq_file_iff.mp hwrites.template).2.2 hothers
    refine ⟨rfl, hwrites.trans hnames.1 hdirectory hnodup.1 hall ?_⟩
    rintro rfl
    cases hothers
    rfl

/-- **Runs that have been written can be written again**, which changes nothing. -/
lemma run_materializeAll_again (hnames : ∀ run ∈ runs, FileTree.IsPlain run.name)
    (hdirectory : tree.isDirectory m.directory = true)
    (hsettled : ∀ run ∈ runs, m.Settled content run tree)
    (hentry : runs ≠ [] → tree.entryAt m.template = .ok (.file content)) :
    ∃ tree', (m.materializeAll runs).run tree = (.ok (runs.map m.configurationPath), tree') ∧
      ∀ l, tree'.lookUp l = tree.lookUp l := by
  induction runs generalizing tree with
  | nil => exact ⟨tree, rfl, fun _ => rfl⟩
  | cons run runs ih =>
    rw [List.forall_mem_cons] at hnames hsettled
    have htemplate := hentry (List.cons_ne_nil run runs)
    obtain ⟨middle, hrun, hsame⟩ := hsettled.1.run_materialize hnames.1 hdirectory htemplate
    have hdirectory' : middle.isDirectory m.directory = true := by
      obtain ⟨husable, hwalk⟩ := FileTree.isDirectory_iff.mp hdirectory
      exact FileTree.isDirectory_iff.mpr ⟨husable, fun l hl => (hsame l).trans (hwalk l hl)⟩
    have htemplate' : middle.entryAt m.template = .ok (.file content) := by
      obtain ⟨hresolve, hmay, hlookUp⟩ := FileTree.entryAt_eq_file_iff.mp htemplate
      exact FileTree.entryAt_eq_file_iff.mpr ⟨FileTree.resolve_of_forall hresolve
        fun l _ hl => (hsame l).trans hl, hmay, (hsame _).trans hlookUp⟩
    have hsettled' : ∀ other ∈ runs, m.Settled content other middle := by
      intro other hother
      have hbase := (hsettled.2 other hother).walk m.base ((mem_walk_runDirectory m
        (hnames.2 other hother)).mpr (Or.inr (Or.inl rfl)))
      exact (hsettled.2 other hother).of_kept (hnames.2 other hother) hdirectory'
        ((hsame _).trans hbase) fun l _ => hsame l
    obtain ⟨after, hrest, hsame'⟩ := ih hnames.2 hdirectory' hsettled' fun _ => htemplate'
    refine ⟨after, ?_, fun l => (hsame' l).trans (hsame l)⟩
    exact (Files.run_bind_ok hrun).trans (Files.run_bind_ok hrest)

end All

/-! ## The outcome -/

/-- What a tree and the paths are after the configuration files of all runs have been written. -/
structure Outcome (runs : List Run) (before after : FileTree) (paths : List Path) : Prop where
  /-- The configuration file of each run is below the experiment directory, in a directory with the
  name of the run. It is the template as it was before, with the placeholders of the run replaced
  one after the other. -/
  files : ∃ content, before.entryAt m.template = .ok (.file content) ∧
    List.Forall₂ (fun run path =>
      path = m.directory.join ⟨s!"runs/{run.name}/config_ns3.properties"⟩ ∧
        ∃ text, String.fromUTF8? content = some text ∧ after.entryAt path =
          .ok (.file (Files.substituteText run.placeholders text).toUTF8)) runs paths
  /-- The directory of each run is there, and below it is nothing but the configuration file and
  the directories that the path of the experiment directory goes through. -/
  only : ∀ run ∈ runs, after.lookUp (m.place run) = some .directory ∧
    ∀ l, (m.place run).isBelow l = true → l ≠ m.file run →
      after.lookUp l = if l ∈ m.directory.walk then some .directory else none
  /-- If that path does not go up, there is nothing but the configuration file. -/
  clean : (∀ name ∈ m.directory.parts, name ≠ "..") → ∀ run ∈ runs,
    ∀ l, (m.place run).isBelow l = true → l ≠ m.file run → after.lookUp l = none
  /-- All is as before, but for the directory of all runs and what is at and below the directories
  of these runs. -/
  kept : ∀ l, l ≠ m.base → (∀ run ∈ runs, ¬ m.Holds run l) → after.lookUp l = before.lookUp l
  /-- Writing all configuration files again succeeds and changes nothing. -/
  again : ∃ again, (m.materializeAll runs).run after = (.ok paths, again) ∧
    ∀ l, again.lookUp l = after.lookUp l

section Outcome

variable {m} {tree tree' : FileTree} {content : ByteArray} {runs : List Run} {paths : List Path}

/-- The configuration file of a run that has been written is found under its path. -/
lemma Settled.exists_entryAt (hname : FileTree.IsPlain run.name)
    (h : m.Settled content run tree) : ∃ text, String.fromUTF8? content = some text ∧
      tree.entryAt (m.configurationPath run) =
        .ok (.file (Files.substituteText run.placeholders text).toUTF8) := by
  obtain ⟨text, htext, hlookUp⟩ := h.file
  refine ⟨text, htext, FileTree.entryAt_eq_file_iff.mpr ⟨?_, ?_, ?_⟩⟩
  · refine FileTree.resolve_eq_ok_iff.mpr ⟨h.usable, fun l hl => ?_, rfl⟩
    rw [through_configurationPath] at hl
    exact h.walk l hl
  · exact Path.demandsDirectory_join isPlain_configurationFile
  · rw [goal_configurationPath m hname, hlookUp]

/-- A path that does not go up goes through nothing below its end. -/
lemma notMem_walk_of_isBelow (hup : ∀ name ∈ m.directory.parts, name ≠ "..") {l : Location}
    (hbelow : (m.place run).isBelow l = true) : l ∉ m.directory.walk := by
  intro hmem
  have hlength : l.length ≤ m.directory.goal.length := Location.length_le_of_mem_walk _ hup hmem
  obtain ⟨name, rest, rfl⟩ := Location.exists_of_isBelow hbelow
  simp [place, base] at hlength

/-- What the writing of all runs amounts to. -/
lemma WritesAll.outcome (hnames : ∀ run ∈ runs, FileTree.IsPlain run.name)
    (hentry : tree.entryAt m.template = .ok (.file content))
    (h : m.WritesAll content runs tree tree') :
    m.Outcome runs tree tree' (runs.map m.configurationPath) := by
  have honly : ∀ run ∈ runs, ∀ l, (m.place run).isBelow l = true → l ≠ m.file run →
      tree'.lookUp l = if l ∈ m.directory.walk then some .directory else none := by
    intro run hrun l hbelow hfile
    split
    · next hmem => exact (FileTree.isDirectory_iff.mp h.directory).2 l hmem
    · next hmem => exact (h.settled run hrun).only l hbelow hmem hfile
  refine ⟨⟨content, hentry, ?_⟩, fun run hrun => ⟨?_, honly run hrun⟩, ?_, h.kept,
    run_materializeAll_again hnames h.directory h.settled h.template⟩
  · rw [List.forall₂_map_right_iff, List.forall₂_same]
    intro run hrun
    exact ⟨configurationPath_eq m (hnames run hrun),
      (h.settled run hrun).exists_entryAt (hnames run hrun)⟩
  · exact (h.settled run hrun).walk _ ((mem_walk_runDirectory m (hnames run hrun)).mpr
      (Or.inr (Or.inr rfl)))
  · intro hup run hrun l hbelow hfile
    rw [honly run hrun l hbelow hfile, if_neg (notMem_walk_of_isBelow hup hbelow)]

/-- A template that is accepted is a file. -/
lemma exists_entryAt_of_ofTemplate
    (h : (ofTemplate m.template m.directory).run tree = (.ok m, tree)) :
    ∃ content, tree.entryAt m.template = .ok (.file content) := by
  have hrun : (ofTemplate m.template m.directory).run tree = (if tree.isFile m.template
      then pure ⟨m.template, m.directory⟩ else throw (.missing m.template) :
        Files TemplateFault Materializer).run tree := rfl
  rw [hrun, FileTree.isFile] at h
  cases hentry : tree.entryAt m.template with
  | error fault =>
    rw [hentry] at h
    cases h
  | ok entry =>
    cases entry with
    | file content => exact ⟨content, rfl⟩
    | directory =>
      rw [hentry] at h
      cases h

end Outcome

/-- **Writing the configuration files of all runs does not interfere.** If it succeeds in a tree
where the experiment directory is there, each run has its own file, filled from the template as it
was before, and nothing else has changed.

**Proof sketch.** The names of the runs differ, so no run holds what another one has written
(`not_holds_of_holds`). A single run changes only what it holds (`writes_of_run`), and by induction
on the list the files of all runs are there in the end (`writesAll_of_run`). In such a tree each run
can be written again without any change (`run_materializeAll_again`). -/
theorem materializeAll_outcome {e : Experiment} {runs : List Run} {m : Materializer}
    {tree tree' : FileTree} {paths : List Path} (hparents : tree.HasParents)
    (hdirectory : tree.isDirectory m.directory = true)
    (htemplate : (ofTemplate m.template m.directory).run tree = (.ok m, tree))
    (hruns : e.runs = .ok runs)
    (h : (m.materializeAll runs).run tree = (.ok paths, tree')) :
    m.Outcome runs tree tree' paths := by
  have hnames : ∀ run ∈ runs, FileTree.IsPlain run.name := fun run hrun =>
    Experiment.isPlain_name hruns hrun
  obtain ⟨content, hentry⟩ := exists_entryAt_of_ofTemplate htemplate
  obtain ⟨rfl, hall⟩ := writesAll_of_run hnames (Experiment.nodup_name hruns) hdirectory
    (hparents.isRooted _) (fun run _ => hparents.isRooted _)
    (FileTree.entryAt_eq_file_iff.mp hentry).2.2 h
  exact hall.outcome hnames hentry

end Materializer

/-! ## A single run -/

/-- An experiment with a single run. -/
def Experiment.single : Experiment :=
  { standard with
    topologies := [⟨"t", ⟨some "n", none⟩⟩]
    pairs := [⟨1, 2, ""⟩]
    clients := [.ping]
    lossRatios := [] }

/-- An experiment has a single run if something that is asked of its runs has a single answer. -/
lemma Experiment.exists_run_of_map {α : Type} {e : Experiment} {f : Run → α} {a : α}
    (h : e.runs.toOption.map (·.map f) = some [a]) : ∃ run, e.runs = .ok [run] ∧ f run = a := by
  cases hruns : e.runs with
  | error fault =>
    rw [hruns] at h
    cases h
  | ok runs =>
    rw [hruns] at h
    obtain ⟨run, rfl, hrun⟩ := List.map_eq_singleton_iff.mp (Option.some.inj h)
    exact ⟨run, rfl, hrun⟩

/-- The run of this experiment. -/
lemma Experiment.exists_run_single :
    ∃ run, single.runs = .ok [run] ∧ run.name = "t_1_to_2_with_Ping_paired_loss_0_0" :=
  exists_run_of_map (by decide +kernel)

namespace Materializer

/-- Nothing is in the way of this run below a directory, with a template beside it. -/
lemma isReady_single {m : Materializer} {run : Run} {tree : FileTree}
    (hname : run.name = "t_1_to_2_with_Ping_paired_loss_0_0")
    (hgoal : m.directory.goal = ["e"]) (htemplate : m.template = ⟨"t.txt"⟩)
    (husable : (m.configurationPath run).IsUsable) (hparents : tree.HasParents)
    (hdirectory : tree.isDirectory m.directory = true)
    (hbase : tree.lookUp ["e", "runs"] = some .directory ∨ tree.lookUp ["e", "runs"] = none)
    (hfree : ["e", "runs", "t_1_to_2_with_Ping_paired_loss_0_0", "config_ns3.properties"] ∉
      m.directory.walk) : m.IsReady run tree := by
  have hbaseEq : m.base = ["e", "runs"] := by
    rw [base, hgoal]
    rfl
  have hfile : m.file run =
      ["e", "runs", "t_1_to_2_with_Ping_paired_loss_0_0", "config_ns3.properties"] := by
    rw [file, place, hbaseEq, hname]
    rfl
  have hout : ∀ l ∈ m.template.walk, ¬ m.Holds run l := by
    intro l hl hholds
    obtain ⟨rest, rfl⟩ := m.exists_of_holds hholds
    have hparts : (⟨"t.txt"⟩ : Path).parts = ["t.txt"] := by decide
    have hwalk : m.template.walk = [[], ["t.txt"]] := by
      rw [htemplate, Path.walk, hparts]
      rfl
    simp [hbaseEq, hwalk] at hl
  exact ⟨hparents, hdirectory, hbaseEq ▸ hbase, husable, hfile ▸ hfree, hout⟩

/-! ## A winding path -/

/-- A tree with something in the directory of this run. -/
def windingTree : FileTree :=
  .ofList [(["t.txt"], .file "a=[FROM-ID]\n".toUTF8), (["e"], .directory),
    (["e", "runs"], .directory), (["e", "runs", "t_1_to_2_with_Ping_paired_loss_0_0"], .directory),
    (["e", "runs", "t_1_to_2_with_Ping_paired_loss_0_0", "x"], .directory)]

/-- An experiment directory whose path goes through the directory of the run and up again. -/
def winding : Materializer :=
  ⟨⟨"t.txt"⟩, ⟨"e/runs/t_1_to_2_with_Ping_paired_loss_0_0/x/../../.."⟩⟩

/-- The names in this path. -/
lemma parts_winding : winding.directory.parts =
    ["e", "runs", "t_1_to_2_with_Ping_paired_loss_0_0", "x", "..", "..", ".."] := by
  decide +kernel

/-- Where it leads. -/
lemma goal_winding : winding.directory.goal = ["e"] := by
  rw [Path.goal, parts_winding]
  rfl

/-- Each entry of the tree is in a directory. -/
lemma hasParents_windingTree : windingTree.HasParents := by
  apply FileTree.hasParents_of_entries
  rw [windingTree, FileTree.ofList]
  simp only [List.map_cons, List.map_nil, List.forall_mem_cons]
  exact ⟨Or.inr rfl, Or.inr rfl, Or.inr rfl, Or.inr rfl, Or.inr rfl, by simp⟩

/-- The experiment directory is there. -/
lemma isDirectory_winding : windingTree.isDirectory winding.directory = true := by
  decide +kernel

/-- So is the template. -/
lemma run_ofTemplate_winding :
    (ofTemplate winding.template winding.directory).run windingTree = (.ok winding, windingTree) :=
  rfl

/-- The run can be written in this tree. -/
lemma exists_writes_winding {run : Run}
    (hname : run.name = "t_1_to_2_with_Ping_paired_loss_0_0") :
    ∃ tree', (winding.materializeAll [run]).run windingTree =
        (.ok [winding.configurationPath run], tree') ∧
      winding.Writes "a=[FROM-ID]\n".toUTF8 run windingTree tree' := by
  have hplain : FileTree.IsPlain run.name := hname ▸ ⟨by decide, by decide, by decide⟩
  have husable : (winding.configurationPath run).IsUsable := by
    rw [configurationPath_eq winding hplain, hname]
    refine ⟨by decide +kernel, by decide +kernel, by decide +kernel, ?_⟩
    unfold FileTree.IsShort
    decide +kernel
  have hready : winding.IsReady run windingTree := isReady_single hname goal_winding rfl husable
    hasParents_windingTree isDirectory_winding (Or.inl rfl) (by
      rw [Path.walk, parts_winding]
      decide)
  obtain ⟨tree', hrun, hwrites⟩ := hready.exists_writes hplain rfl (Symbol.fromUTF8?_toUTF8 _)
  exact ⟨tree', Files.run_bind_ok hrun, hwrites⟩

/-- **What the path of the experiment directory goes through is left** in the directory of a run. -/
theorem materializeAll_winding : ∃ run paths tree', Experiment.single.runs = .ok [run] ∧
    windingTree.HasParents ∧ windingTree.isDirectory winding.directory = true ∧
    (ofTemplate winding.template winding.directory).run windingTree = (.ok winding, windingTree) ∧
    (winding.materializeAll [run]).run windingTree = (.ok paths, tree') ∧
    (winding.place run).isBelow (winding.place run ++ ["x"]) = true ∧
    winding.place run ++ ["x"] ≠ winding.file run ∧
    tree'.lookUp (winding.place run ++ ["x"]) = some .directory := by
  obtain ⟨run, hruns, hname⟩ := Experiment.exists_run_single
  obtain ⟨tree', hrun, hwrites⟩ := exists_writes_winding hname
  have hplain : FileTree.IsPlain run.name := hname ▸ ⟨by decide, by decide, by decide⟩
  refine ⟨run, _, tree', hruns, hasParents_windingTree, isDirectory_winding, run_ofTemplate_winding,
    hrun, ?_, ?_, hwrites.settled.walk _ ((mem_walk_runDirectory winding hplain).mpr (Or.inl ?_))⟩
  · exact Location.isBelow_append ⟨by decide, by decide, by decide⟩ _ []
  · simp [file]
  · rw [place, base, goal_winding, hname, Path.walk, parts_winding]
    decide

/-- The outcome in this tree. -/
theorem materializeAll_outcome_winding : ∃ run paths tree', Experiment.single.runs = .ok [run] ∧
    (winding.materializeAll [run]).run windingTree = (.ok paths, tree') ∧
    winding.Outcome [run] windingTree tree' paths := by
  obtain ⟨run, hruns, hname⟩ := Experiment.exists_run_single
  obtain ⟨tree', hrun, -⟩ := exists_writes_winding hname
  exact ⟨run, _, tree', hruns, hrun, materializeAll_outcome hasParents_windingTree
    isDirectory_winding run_ofTemplate_winding hruns hrun⟩

end Materializer

end Constellation
