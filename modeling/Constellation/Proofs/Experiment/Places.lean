import Constellation.Experiment.Template
import Constellation.Proofs.Experiment.Outcome
import Constellation.Proofs.FileTree.Clearing
set_option autoImplicit false

/-!
# Where runs are

The directory of a run is two names below the experiment directory, and its configuration file is
one more name below. No two runs hold the same location, since their names differ.

## Main definitions

* `Materializer.base`, `Materializer.place`, `Materializer.file` — the locations of the directory of
  all runs, of the directory of a run, and of its configuration file.
* `Materializer.Holds` — a location is the directory of a run or below.

## Main results

* `Experiment.isPlain_name` — the name of a run is a single name in a path.
* `Materializer.goal_runDirectory`, `Materializer.through_runDirectory` — where the path to the
  directory of a run leads, and through what.
* `Materializer.not_holds_of_holds` — runs of different names hold different locations.
-/

namespace Constellation

/-! ## Paths of runs -/

namespace Experiment

/-- The names of runs are safe and have an underscore. -/
lemma isSafe_name {e : Experiment} {runs : List Run} (h : e.runs = .ok runs) {run : Run}
    (hrun : run ∈ runs) : isSafeName run.name = true ∧ '_' ∈ run.name.toList := by
  obtain ⟨choice, htopology, hgives⟩ := exists_choice_of_mem_runs h hrun
  have hname : run.name = choice.name := hgives.name
  rw [hname]
  exact Choice.isSafe_name htopology

/-- The names of runs are plain. -/
lemma isPlain_name {e : Experiment} {runs : List Run} (h : e.runs = .ok runs) {run : Run}
    (hrun : run ∈ runs) : FileTree.IsPlain run.name := by
  obtain ⟨hsafe, hunderscore⟩ := isSafe_name h hrun
  rw [isSafeName, Bool.and_eq_true, List.all_eq_true] at hsafe
  refine ⟨?_, by simpa using hsafe.1, ?_⟩
  · intro hslash
    have hsafe := hsafe.2 _ hslash
    revert hsafe
    decide
  · rw [FileTree.isDots, Bool.or_eq_false_iff, beq_eq_false_iff_ne, beq_eq_false_iff_ne]
    constructor <;>
    · intro hdots
      rw [hdots] at hunderscore
      revert hunderscore
      decide

/-- Their middle is a word that no other name in the directory of all runs has. -/
lemma mem_name {e : Experiment} {runs : List Run} (h : e.runs = .ok runs) {run : Run}
    (hrun : run ∈ runs) : 'w' ∈ run.name.toList := by
  obtain ⟨choice, -, hgives⟩ := exists_choice_of_mem_runs h hrun
  have hname : run.name = choice.name := hgives.name
  rw [hname, Choice.name, Run.toList_nameOf, mem_underscored]
  exact Or.inr ⟨"with".toList, by simp [Run.segments], Or.inr (by decide)⟩

/-- None of them is the name of the list of runs. -/
lemma name_ne_listFile {e : Experiment} {runs : List Run} (h : e.runs = .ok runs) {run : Run}
    (hrun : run ∈ runs) : run.name ≠ Run.listFile.text := by
  intro heq
  have hmem := heq ▸ mem_name h hrun
  revert hmem
  decide

/-- No two of them are the same. -/
lemma nodup_name {e : Experiment} {runs : List Run} (h : e.runs = .ok runs) :
    (runs.map (·.name)).Nodup := by
  rw [map_name_of_runsFor (runsFor_of_runs h).2]
  exact e.nodup_names

end Experiment

namespace Materializer

variable (m : Materializer) {run : Run}

/-- The location of the directory that holds the directories of all runs. -/
def base : Location := m.directory.goal ++ ["runs"]

/-- The location of the directory of a run. -/
def place (run : Run) : Location := m.base ++ [run.name]

/-- The location of the configuration file of a run. -/
def file (run : Run) : Location := m.place run ++ ["config_ns3.properties"]

/-- Whether a location is the directory of a run or below. -/
def Holds (run : Run) (l : Location) : Prop := l = m.place run ∨ (m.place run).isBelow l = true

/-- The name of the directory of all runs is plain. -/
lemma isPlain_runs : FileTree.IsPlain "runs" := ⟨by decide, by decide, by decide⟩

/-- So is the name of the configuration files. -/
lemma isPlain_configurationFile : FileTree.IsPlain "config_ns3.properties" :=
  ⟨by decide, by decide, by decide⟩

section Plain

variable (hname : FileTree.IsPlain run.name)

include hname

/-- The name of a run is joined to the directory of all runs. -/
lemma runDirectory_eq :
    m.runDirectory run = (m.directory.join Run.runsDirectory).join ⟨run.name⟩ :=
  (Path.join_assoc _ _ (Path.isAbsolute_piece hname.slash)).symm

/-- The configuration file has a fixed place below the experiment directory. -/
lemma configurationPath_eq : m.configurationPath run =
    m.directory.join ⟨s!"runs/{run.name}/config_ns3.properties"⟩ := by
  have hpiece := Path.isAbsolute_piece hname.slash
  have hconfiguration : Run.configurationFile.isAbsolute = false :=
    Path.isAbsolute_piece isPlain_configurationFile.slash
  have hdirectory : run.directory = ⟨"runs" ++ "/" ++ run.name⟩ := by
    have hseparator : Run.runsDirectory.needsSeparator = true := by decide
    rw [Run.directory, Path.join, hpiece, hseparator]
    rfl
  have hinner : run.directory.join Run.configurationFile =
      ⟨s!"runs/{run.name}/config_ns3.properties"⟩ := by
    have hseparator : run.directory.needsSeparator = true := Path.needsSeparator_join hname
    rw [Path.join, hconfiguration, hseparator, hdirectory]
    simp [Run.configurationFile, String.append_assoc, toString]
  rw [configurationPath, runDirectory, Path.join_assoc _ _ hconfiguration, hinner]

/-- The directory of a run is at its place. -/
lemma goal_runDirectory : (m.runDirectory run).goal = m.place run := by
  rw [runDirectory_eq m hname, Path.goal_join hname, Run.runsDirectory,
    Path.goal_join isPlain_runs]
  rfl

/-- The way to it is the walk of the experiment directory and the directory of all runs. -/
lemma through_runDirectory : (m.runDirectory run).through = m.directory.walk ++ [m.base] := by
  rw [runDirectory_eq m hname, Path.through_join hname, Run.runsDirectory,
    Path.walk_join isPlain_runs]
  rfl

/-- The walk to it ends there. -/
lemma mem_walk_runDirectory {l : Location} :
    l ∈ (m.runDirectory run).walk ↔ l ∈ m.directory.walk ∨ l = m.base ∨ l = m.place run := by
  rw [Path.mem_walk_iff, through_runDirectory m hname, goal_runDirectory m hname, List.mem_append,
    List.mem_singleton, or_assoc]

/-- The configuration file of a run is in it. -/
lemma goal_configurationPath : (m.configurationPath run).goal = m.file run := by
  rw [configurationPath, Run.configurationFile, Path.goal_join isPlain_configurationFile,
    goal_runDirectory m hname]
  rfl

/-- If the configuration file has a usable path, so has the directory of the run. -/
lemma isUsable_runDirectory (h : (m.configurationPath run).IsUsable) :
    (m.runDirectory run).IsUsable := by
  refine Path.IsUsable.of_join h (by decide) ?_
  rw [runDirectory_eq m hname]
  exact Path.text_join_ne_empty hname

end Plain

/-- The way to the configuration file is the walk to the directory of the run. -/
lemma through_configurationPath :
    (m.configurationPath run).through = (m.runDirectory run).walk := by
  rw [configurationPath, Run.configurationFile, Path.through_join isPlain_configurationFile]

/-- What is held for a run has its name after the location of all runs. -/
lemma exists_of_holds {l : Location} (h : m.Holds run l) :
    ∃ rest, l = m.base ++ run.name :: rest :=
  Location.Covers.exists_eq h

/-- Runs of different names hold different locations. -/
lemma not_holds_of_holds {other : Run} {l : Location} (hne : run.name ≠ other.name)
    (h : m.Holds run l) : ¬ m.Holds other l :=
  fun hother => hne (Location.Covers.name_eq h hother)

/-- No run holds the location of all runs. -/
lemma ne_base_of_holds {l : Location} (h : m.Holds run l) : l ≠ m.base := by
  rintro rfl
  obtain ⟨rest, hrest⟩ := m.exists_of_holds h
  simp at hrest

end Materializer

end Constellation
