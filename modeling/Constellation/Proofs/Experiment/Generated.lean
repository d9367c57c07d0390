import Constellation.Proofs.Experiment.Outputs
import Constellation.Proofs.Experiment.Separation
import Constellation.Proofs.Experiment.Storing
set_option autoImplicit false

/-!
# What a generation leaves

The outputs of an earlier generation are removed, the configuration files of all runs are written,
and then the list of runs. This is all that there is among the outputs in the end.

## Main definitions

* `Materializer.listPath`, `Materializer.list` — the path and the location of the list of runs.
* `Materializer.Generated` — a tree has the outputs of some runs, and no others.

## Main results

* `Materializer.exists_writesAll_of_run` — runs that are written successfully have been written from
  a template.
* `Materializer.WritesAll.lookUp_output` — no other outputs are there than have been written.
* `Materializer.generated_of_run` — three steps that succeed generate the runs.
-/

namespace Constellation

namespace Materializer

variable (m : Materializer) {run : Run} {runs : List Run}

/-! ## The list of runs -/

/-- The path of the list of runs. -/
def listPath : Path := (m.directory.join Run.runsDirectory).join Run.listFile

/-- The location of the list of runs. -/
def list : Location := m.base ++ ["run_list.json"]

/-- The name of the list of runs is plain. -/
lemma isPlain_listFile : FileTree.IsPlain "run_list.json" := ⟨by decide, by decide, by decide⟩

/-- The list of runs is at its location. -/
lemma goal_listPath : m.listPath.goal = m.list := by
  rw [listPath, Run.listFile, Path.goal_join isPlain_listFile, Run.runsDirectory,
    Path.goal_join isPlain_runs]
  rfl

/-- The directory of all runs is not the list. -/
lemma base_ne_list : m.base ≠ m.list := by
  intro h
  simpa [list] using congrArg List.length h

/-- A run with another name does not hold the list. -/
lemma not_holds_list (hname : run.name ≠ Run.listFile.text) : ¬ m.Holds run m.list := by
  intro hholds
  exact hname (Location.Covers.name_eq hholds (Or.inl rfl))

/-! ## Outputs -/

/-- What is below the directory of all runs is an output. -/
lemma isOutput_of_covers_base {l : Location} (h : m.base.Covers l) : IsOutput m.directory l :=
  ⟨"runs", List.mem_cons_self, h⟩

/-- What a run holds is below it. -/
lemma covers_base_of_holds (hname : FileTree.IsPlain run.name) {l : Location}
    (h : m.Holds run l) : m.base.Covers l := by
  obtain ⟨rest, rfl⟩ := m.exists_of_holds h
  exact Or.inr (Location.isBelow_append hname _ rest)

/-- So is the list of runs. -/
lemma covers_base_list : m.base.Covers m.list :=
  Or.inr (Location.isBelow_append isPlain_listFile _ [])

/-- A tree has the outputs of some runs and no others, and all else is as before. -/
structure Generated (runs : List Run) (before after : FileTree) : Prop where
  /-- No two runs share a directory. -/
  distinct : (runs.map m.place).Nodup
  /-- The directory of all runs is there. -/
  base : after.lookUp m.base = some .directory
  /-- The directory of each run is there. -/
  places : ∀ run ∈ runs, after.lookUp (m.place run) = some .directory
  /-- The configuration file of each run is the template as it was before, with the placeholders of
  the run replaced one after the other. -/
  files : ∃ content, before.entryAt m.template = .ok (.file content) ∧ ∀ run ∈ runs,
    ∃ text, String.fromUTF8? content = some text ∧ after.lookUp (m.file run) =
      some (.file (Files.substituteText run.placeholders text).toUTF8)
  /-- The list of runs is there. -/
  list : after.lookUp m.list = some (.file (Run.listFormat.encode runs).toUTF8)
  /-- If the doubles of the runs are read back from their decimals, it loads as these runs. -/
  loads : (∀ run ∈ runs, run.IsStorable) →
    (Run.loadList m.listPath).run after = (.ok runs, after)
  /-- Nothing else is in the directory of all runs. -/
  only : ∀ l, m.base.isBelow l = true → l ≠ m.list →
    (∀ run ∈ runs, l ≠ m.place run ∧ l ≠ m.file run) → after.lookUp l = none
  /-- The directories for other outputs are gone, with all that was in them. -/
  gone : ∀ name ∈ ["pdf", "data"], ∀ l, Location.Covers (m.directory.goal ++ [name]) l →
    after.lookUp l = none
  /-- All else is as before. -/
  kept : ∀ l, ¬ IsOutput m.directory l → after.lookUp l = before.lookUp l

section Generated

variable {m} {tree tree' cleared written after : FileTree} {content : ByteArray}
  {paths : List Path}

/-- **Runs that are written successfully** have been written from a template, if there are any. -/
lemma exists_writesAll_of_run (hnames : ∀ run ∈ runs, FileTree.IsPlain run.name)
    (hnodup : (runs.map (·.name)).Nodup) (hdirectory : tree.isDirectory m.directory = true)
    (hrooted : tree.IsRooted m.base) (hplaces : ∀ run ∈ runs, tree.IsRooted (m.place run))
    (h : (m.materializeAll runs).run tree = (.ok paths, tree')) :
    ∃ content, m.WritesAll content runs tree tree' ∧
      (runs ≠ [] → tree.lookUp m.template.goal = some (.file content)) := by
  cases runs with
  | nil =>
    cases h
    exact ⟨.empty, ⟨by simp, fun _ _ _ => rfl, id, hdirectory, fun hne => absurd rfl hne⟩,
      fun hne => absurd rfl hne⟩
  | cons run runs =>
    obtain ⟨path, middle, hrun, -⟩ := Files.run_bind_eq_ok h
    obtain ⟨-, content, hwrites⟩ := writes_of_run (hnames run List.mem_cons_self) hdirectory
      hrooted (hplaces run List.mem_cons_self) hrun
    exact ⟨content, (writesAll_of_run hnames hnodup hdirectory hrooted hplaces hwrites.source h).2,
      fun _ => hwrites.source⟩

/-- Nothing hangs in the air below the directory for runs after it has been emptied. -/
lemma isRooted_of_hasReset (hname : FileTree.IsPlain run.name)
    (h : HasReset m.directory tree cleared) : cleared.IsRooted (m.place run) := by
  intro _ l hbelow
  exact h.gone l (m.isOutput_of_covers_base (m.covers_base_of_holds hname (Or.inr hbelow)))
    (m.ne_base_of_holds (Or.inr hbelow))

/-- Runs of different names have different directories. -/
lemma nodup_place (hnodup : (runs.map (·.name)).Nodup) : (runs.map m.place).Nodup := by
  have hplaces : runs.map m.place = (runs.map (·.name)).map fun name => m.base ++ [name] := by
    rw [List.map_map]
    rfl
  rw [hplaces]
  exact hnodup.map fun _ _ heq => List.singleton_injective (List.append_cancel_left heq)

/-- Among the outputs there is only what has been written. -/
lemma WritesAll.lookUp_output (h : m.WritesAll content runs cleared written)
    (hreset : HasReset m.directory tree cleared) (havoid : AvoidsOutputs m.directory)
    {l : Location} (houtput : IsOutput m.directory l) (hbase : l ≠ m.base)
    (hruns : ∀ run ∈ runs, l ≠ m.place run ∧ l ≠ m.file run) : written.lookUp l = none := by
  by_cases hholds : ∃ run ∈ runs, m.Holds run l
  · obtain ⟨run, hrun, hholds⟩ := hholds
    obtain ⟨hplace, hfile⟩ := hruns run hrun
    exact (h.settled run hrun).only l (hholds.resolve_left hplace)
      (fun hmem => havoid l hmem houtput) hfile
  · rw [h.kept l hbase fun run hrun hholds' => hholds ⟨run, hrun, hholds'⟩,
      hreset.gone l houtput hbase]

/-- Storing the list after the configuration files have been written completes a generation. -/
lemma WritesAll.generated (h : m.WritesAll content runs cleared written)
    (hnames : ∀ run ∈ runs, FileTree.IsPlain run.name) (hnodup : (runs.map (·.name)).Nodup)
    (hlist : ∀ run ∈ runs, run.name ≠ Run.listFile.text) (havoid : AvoidsOutputs m.directory)
    (hreset : HasReset m.directory tree cleared)
    (hentry : ∃ content', tree.entryAt m.template = .ok (.file content') ∧
      (runs ≠ [] → content = content'))
    (hstore : (Run.storeList m.listPath runs).run written = (.ok (), after)) :
    m.Generated runs tree after := by
  obtain ⟨hput, hstored⟩ := hasPut_of_run_storeAs hstore
  have hgoal := m.goal_listPath
  have hkept : ∀ l, l ≠ m.list → after.lookUp l = written.lookUp l := fun l hl =>
    hput.kept l (hgoal ▸ hl)
  have hheld : ∀ run ∈ runs, ∀ l, m.Holds run l → after.lookUp l = written.lookUp l := by
    intro run hrun l hholds
    refine hkept l ?_
    rintro rfl
    exact m.not_holds_list (hlist run hrun) hholds
  obtain ⟨content', hentry, hcontent⟩ := hentry
  refine ⟨nodup_place hnodup, ?_, ?_, ⟨content', hentry, ?_⟩, ?_, ?_, ?_, ?_, ?_⟩
  · rw [hkept _ m.base_ne_list, h.base hreset.base]
  · intro run hrun
    rw [hheld run hrun _ (Or.inl rfl)]
    exact (h.settled run hrun).walk _ ((mem_walk_runDirectory m (hnames run hrun)).mpr
      (Or.inr (Or.inr rfl)))
  · intro run hrun
    obtain ⟨text, htext, hfile⟩ := (h.settled run hrun).file
    rw [hcontent (List.ne_nil_of_mem hrun)] at htext
    refine ⟨text, htext, ?_⟩
    rw [hheld run hrun _ (Or.inr (isBelow_file m run)), hfile]
  · rw [← hgoal, hput.put]
  · intro hstorable
    exact run_loadAs (Json.Format.keeps_list fun run hrun => Run.keeps (hstorable run hrun)) hstored
  · intro l hbelow hne hruns
    rw [hkept l hne]
    refine h.lookUp_output hreset havoid (m.isOutput_of_covers_base (Or.inr hbelow)) ?_ hruns
    rintro rfl
    rw [Location.isBelow_self] at hbelow
    cases hbelow
  · intro name hname l hcovers
    have hother : ∀ l', m.base.Covers l' → l ≠ l' := by
      rintro l' hl' rfl
      have hruns : name = "runs" := hcovers.name_eq hl'
      rw [hruns] at hname
      revert hname
      decide
    rw [hkept l (hother _ m.covers_base_list)]
    exact h.lookUp_output hreset havoid ⟨name, List.mem_cons_of_mem "runs" hname, hcovers⟩
      (hother _ (Or.inl rfl)) fun run hrun =>
        ⟨hother _ (m.covers_base_of_holds (hnames run hrun) (Or.inl rfl)),
          hother _ (m.covers_base_of_holds (hnames run hrun) (Or.inr (isBelow_file m run)))⟩
  · intro l hout
    have hbase : l ≠ m.base := by
      rintro rfl
      exact hout (m.isOutput_of_covers_base (Or.inl rfl))
    have hne : l ≠ m.list := by
      rintro rfl
      exact hout (m.isOutput_of_covers_base m.covers_base_list)
    rw [hkept l hne, h.kept l hbase fun run hrun hholds =>
      hout (m.isOutput_of_covers_base (m.covers_base_of_holds (hnames run hrun) hholds)),
      hreset.kept l hout]

/-- **Three steps that succeed generate the runs**: the outputs are cleared, the configuration files
are written, and the list is stored. -/
lemma generated_of_run (hnames : ∀ run ∈ runs, FileTree.IsPlain run.name)
    (hnodup : (runs.map (·.name)).Nodup) (hlist : ∀ run ∈ runs, run.name ≠ Run.listFile.text)
    (havoid : AvoidsOutputs m.directory) (hparents : tree.HasParents)
    (hdirectory : tree.isDirectory m.directory = true)
    (hentry : tree.entryAt m.template = .ok (.file content))
    (hclear : (clearOutputs m.directory).run tree = (.ok (), cleared))
    (hwrite : (m.materializeAll runs).run cleared = (.ok paths, written))
    (hstore : (Run.storeList m.listPath runs).run written = (.ok (), after)) :
    m.Generated runs tree after := by
  have hreset := hasReset_of_run_clearOutputs hparents hdirectory havoid hclear
  have hrooted : cleared.IsRooted m.base := by
    intro hnone
    rw [base, hreset.base] at hnone
    cases hnone
  obtain ⟨content', hall, hsource⟩ := exists_writesAll_of_run hnames hnodup
    (hreset.isDirectory hdirectory havoid) hrooted
    (fun run hrun => isRooted_of_hasReset (hnames run hrun) hreset) hwrite
  refine hall.generated hnames hnodup hlist havoid hreset ⟨content, hentry, fun hne => ?_⟩ hstore
  -- what has been copied is the template as it was before anything was cleared
  have hbefore := hreset.lookUp_of_file (hsource hne)
  rw [(FileTree.entryAt_eq_file_iff.mp hentry).2.2] at hbefore
  cases hbefore
  rfl

end Generated

end Materializer

end Constellation
