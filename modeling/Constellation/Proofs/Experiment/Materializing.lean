import Constellation.Proofs.Experiment.Places
import Constellation.Proofs.FileTree.Writing
set_option autoImplicit false

/-!
# Writing a single run

The configuration file of a run is written into a directory that is recreated for it.

## Main definitions

* `Materializer.Settled` — a tree has the files of a run.
* `Materializer.Writes` — a tree comes from another one by writing the files of a run.
* `Materializer.IsReady` — nothing is in the way of the files of a run.

## Main results

* `Materializer.exists_writes`, `Materializer.IsReady.exists_writes` — a run is written where its
  directory can be recreated and the template is found then, and so where nothing is in the way.
* `Materializer.writes_of_run` — a run that is written successfully has its files in the end, and
  all else is as before.
* `Materializer.Settled.run_materialize` — a run that has been written can be written again, which
  changes nothing.

## Design

The directory is recreated before anything is read, so it is the tree after that in which the
template is looked up. Where the path of the template goes through the directory of the run, it
leads to the template only if it comes out again.
-/

namespace Constellation

namespace Materializer

variable (m : Materializer) {run : Run}

/-! ## A single run -/

/-- A tree has the files of a run, filled from a template of some content. -/
structure Settled (content : ByteArray) (run : Run) (tree : FileTree) : Prop where
  /-- The path of the configuration file is usable. -/
  usable : (m.configurationPath run).IsUsable
  /-- The directory of the run is there, with all directories on the way. -/
  walk : ∀ l ∈ (m.runDirectory run).walk, tree.lookUp l = some .directory
  /-- The configuration file is the template with its placeholders replaced. -/
  file : ∃ text, String.fromUTF8? content = some text ∧ tree.lookUp (m.file run) =
    some (.file (Files.substituteText run.placeholders text).toUTF8)
  /-- Nothing else is below, but for the walk of the experiment directory. -/
  only : ∀ l, (m.place run).isBelow l = true → l ∉ m.directory.walk → l ≠ m.file run →
    tree.lookUp l = none
  /-- The configuration file is not the template. -/
  apart : m.template.goal ≠ m.file run

/-- A tree comes from another one by writing the configuration file of a run. -/
structure Writes (content : ByteArray) (run : Run) (before after : FileTree) : Prop where
  /-- The files of the run are there. -/
  settled : m.Settled content run after
  /-- All else is as before. -/
  kept : ∀ l, l ∉ (m.runDirectory run).walk → (m.place run).isBelow l = false →
    after.lookUp l = before.lookUp l
  /-- The template had this content. -/
  source : before.lookUp m.template.goal = some (.file content)
  /-- It still has it, and is still found. -/
  template : after.entryAt m.template = .ok (.file content)

/-- Nothing is in the way of the configuration file of a run, nor in that of the template. -/
structure IsReady (run : Run) (tree : FileTree) : Prop where
  /-- Each entry of the tree is in a directory. -/
  parents : tree.HasParents
  /-- The experiment directory is there. -/
  directory : tree.isDirectory m.directory = true
  /-- The directory of all runs is there or can be made. -/
  base : tree.lookUp m.base = some .directory ∨ tree.lookUp m.base = none
  /-- The path of the configuration file is usable. -/
  usable : (m.configurationPath run).IsUsable
  /-- The path of the experiment directory does not go through the configuration file. -/
  free : m.file run ∉ m.directory.walk
  /-- The path of the template does not go through the directory of the run. -/
  outside : ∀ l ∈ m.template.walk, ¬ m.Holds run l

section Single

variable {m} {tree tree' cleared : FileTree} {content : ByteArray} {path : Path}

/-- An operation that succeeds does so at any path. -/
lemma run_atPath {α : Type} {action : Files FileFault α} {a : α}
    (h : action.run tree = (.ok a, tree')) : (atPath path action).run tree = (.ok a, tree') := by
  rw [atPath, Files.run_blame, h]
  rfl

/-- It only succeeds if the operation does. -/
lemma run_of_run_atPath {α : Type} {action : Files FileFault α} {a : α}
    (h : (atPath path action).run tree = (.ok a, tree')) : action.run tree = (.ok a, tree') := by
  rw [atPath, Files.run_blame] at h
  rcases haction : action.run tree with ⟨fault | b, after⟩
  · rw [haction] at h
    cases h
  · rw [haction] at h
    cases h
    rfl

/-- The directory of a run is not below itself, nor is the location of all runs. -/
lemma mem_walk_of_isBelow (hname : FileTree.IsPlain run.name) {l : Location}
    (hbelow : (m.place run).isBelow l = true) (h : l ∈ (m.runDirectory run).walk) :
    l ∈ m.directory.walk := by
  rcases (mem_walk_runDirectory m hname).mp h with hwalk | hbase | hplace
  · exact hwalk
  · exact absurd hbase (m.ne_base_of_holds (Or.inr hbelow))
  · rw [hplace, Location.isBelow_self] at hbelow
    cases hbelow

/-- The configuration file is below the directory of its run. -/
lemma isBelow_file (m : Materializer) (run : Run) : (m.place run).isBelow (m.file run) = true :=
  Location.isBelow_append isPlain_configurationFile _ []

/-- In a recreated directory there is nothing where the configuration file goes. -/
lemma lookUp_file_of_recreated (hname : FileTree.IsPlain run.name)
    (h : tree.HasRecreated cleared (m.runDirectory run)) (hfree : m.file run ∉ m.directory.walk) :
    cleared.lookUp (m.file run) = none := by
  refine h.emptied _ ?_ fun hmem => hfree (mem_walk_of_isBelow hname (isBelow_file m run) hmem)
  rw [goal_runDirectory m hname]
  exact isBelow_file m run

/-- What is a file after a directory has been recreated was one before. -/
lemma lookUp_of_recreated {p : Path} (h : tree.HasRecreated cleared p) {l : Location}
    (hfile : cleared.lookUp l = some (.file content)) :
    l ∉ p.walk ∧ p.goal.isBelow l = false ∧ tree.lookUp l = some (.file content) := by
  have hwalk : l ∉ p.walk := by
    intro hmem
    rw [h.made l hmem] at hfile
    cases hfile
  have hbelow : p.goal.isBelow l = false := by
    by_contra hbelow
    rw [h.emptied l (Bool.of_not_eq_false hbelow) hwalk] at hfile
    cases hfile
  exact ⟨hwalk, hbelow, (h.kept l hwalk hbelow).symm.trans hfile⟩

/-- A file is not where nothing is. -/
lemma goal_ne_of_entryAt {p : Path} (h : cleared.entryAt p = .ok (.file content)) {l : Location}
    (hnone : cleared.lookUp l = none) : p.goal ≠ l := by
  rintro rfl
  rw [(FileTree.entryAt_eq_file_iff.mp h).2.2] at hnone
  cases hnone

/-- A run is written by putting its configuration file into the recreated directory. -/
lemma writes_of_hasPut (hname : FileTree.IsPlain run.name)
    (husable : (m.configurationPath run).IsUsable)
    (hcleared : tree.HasRecreated cleared (m.runDirectory run))
    (hfree : m.file run ∉ m.directory.walk)
    (hentry : cleared.entryAt m.template = .ok (.file content)) {text : String}
    (htext : String.fromUTF8? content = some text)
    (hput : cleared.HasPut tree' (m.configurationPath run)
      (Files.substituteText run.placeholders text).toUTF8) : m.Writes content run tree tree' := by
  have hgoal := goal_configurationPath m hname
  have hplace := goal_runDirectory m hname
  have hnone := lookUp_file_of_recreated hname hcleared hfree
  obtain ⟨hresolve, hmay, hlookUp⟩ := FileTree.entryAt_eq_file_iff.mp hentry
  have hapart : m.template.goal ≠ (m.configurationPath run).goal :=
    goal_ne_of_entryAt hentry (hgoal ▸ hnone)
  obtain ⟨-, -, hsource⟩ := lookUp_of_recreated hcleared hlookUp
  refine ⟨⟨husable, ?_, ⟨text, htext, ?_⟩, ?_, hgoal ▸ hapart⟩, ?_, hsource, ?_⟩
  · intro l hl
    have hdirectory := hcleared.made l hl
    have hne : l ≠ (m.configurationPath run).goal := by
      intro heq
      rw [heq, hgoal, hnone] at hdirectory
      cases hdirectory
    rw [hput.kept l hne, hdirectory]
  · rw [← hgoal, hput.put]
  · intro l hbelow hwalk hne
    rw [← hgoal] at hne
    rw [hput.kept l hne]
    refine hcleared.emptied l ?_ fun hmem => hwalk (mem_walk_of_isBelow hname hbelow hmem)
    rw [hplace, hbelow]
  · intro l hwalk hbelow
    have hne : l ≠ (m.configurationPath run).goal := by
      intro heq
      rw [heq, hgoal, isBelow_file] at hbelow
      cases hbelow
    rw [hput.kept l hne]
    refine hcleared.kept l hwalk ?_
    rw [hplace, hbelow]
  · refine FileTree.entryAt_eq_file_iff.mpr ⟨hput.resolve ?_ hresolve, hmay, ?_⟩
    · rw [hgoal, hnone]
      simp
    · rw [hput.kept _ hapart, hlookUp]

/-- **A run is written** where its directory can be recreated and the template is found then. -/
lemma exists_writes (hname : FileTree.IsPlain run.name)
    (husable : (m.configurationPath run).IsUsable)
    (hrecreate : (Files.recreate (m.runDirectory run)).run tree = (.ok (), cleared))
    (hcleared : tree.HasRecreated cleared (m.runDirectory run))
    (hfree : m.file run ∉ m.directory.walk)
    (hentry : cleared.entryAt m.template = .ok (.file content)) {text : String}
    (htext : String.fromUTF8? content = some text) :
    ∃ tree', (m.materialize run).run tree = (.ok (m.configurationPath run), tree') ∧
      m.Writes content run tree tree' := by
  have hgoal := goal_configurationPath m hname
  have hnone := lookUp_file_of_recreated hname hcleared hfree
  have hmay : FileTree.demandsDirectory (m.configurationPath run) = false :=
    Path.demandsDirectory_join isPlain_configurationFile
  have hresolve : cleared.resolve (m.configurationPath run) =
      .ok (m.configurationPath run).goal := by
    refine FileTree.resolve_eq_ok_iff.mpr ⟨husable, fun l hl => ?_, rfl⟩
    rw [through_configurationPath] at hl
    exact hcleared.made l hl
  have hplain : cleared.lookUp (m.configurationPath run).goal ≠ some .directory := by
    rw [hgoal, hnone]
    simp
  have hapart : m.template.goal ≠ (m.configurationPath run).goal :=
    goal_ne_of_entryAt hentry (hgoal ▸ hnone)
  obtain ⟨copied, hcopy, hput⟩ := Files.run_copy hentry hresolve hmay hplain
  rw [if_neg hapart] at hput
  have hcopied := hput.entryAt hplain hresolve hmay
  obtain ⟨after, hsubstitute, hput'⟩ := Files.run_substitute hcopied htext run.placeholders
  refine ⟨after, ?_, writes_of_hasPut hname husable hcleared hfree hentry htext (hput.trans hput')⟩
  exact (Files.run_bind_ok (run_atPath hrecreate)).trans
    ((Files.run_bind_ok (run_atPath hcopy)).trans (Files.run_bind_ok (run_atPath hsubstitute)))

/-- The location of all runs is no file if the directory of a run has been recreated. -/
lemma lookUp_base_of_run_recreate (hname : FileTree.IsPlain run.name)
    (husable : (m.runDirectory run).IsUsable) (hdirectory : tree.isDirectory m.directory = true)
    (h : (Files.recreate (m.runDirectory run)).run tree = (.ok (), cleared)) :
    tree.lookUp m.base = some .directory ∨ tree.lookUp m.base = none := by
  cases hbase : tree.lookUp m.base with
  | none => exact Or.inr rfl
  | some entry =>
    cases entry with
    | directory => exact Or.inl rfl
    | file content =>
      have hresolve := FileTree.resolve_of_file husable (through_runDirectory m hname)
        (FileTree.isDirectory_iff.mp hdirectory).2 hbase
      obtain ⟨_, _, hremove, -⟩ := Files.run_bind_eq_ok h
      exact absurd hresolve (Files.resolve_ne_error_of_run_removeAll hremove (by decide))

/-- The directory of a run can be recreated where nothing hangs in the air. -/
lemma isClearable_runDirectory (hname : FileTree.IsPlain run.name)
    (husable : (m.runDirectory run).IsUsable) (hdirectory : tree.isDirectory m.directory = true)
    (hbase : tree.lookUp m.base = some .directory ∨ tree.lookUp m.base = none)
    (hrooted : tree.IsRooted m.base) (hrooted' : tree.IsRooted (m.place run)) :
    tree.IsClearable (m.runDirectory run) where
  usable := husable
  nonempty := by
    rw [runDirectory_eq m hname]
    exact Path.names_join_ne_nil hname
  free := by
    rw [runDirectory_eq m hname]
    exact Path.demandsDirectory_join hname
  way := by
    intro l hl
    rw [through_runDirectory m hname, List.mem_append, List.mem_singleton] at hl
    rcases hl with hl | rfl
    · exact Or.inl ((FileTree.isDirectory_iff.mp hdirectory).2 l hl)
    · exact hbase
  missing := by
    rintro ⟨l, hl, hnone⟩
    rw [through_runDirectory m hname, List.mem_append, List.mem_singleton] at hl
    rw [goal_runDirectory m hname]
    rcases hl with hl | rfl
    · rw [(FileTree.isDirectory_iff.mp hdirectory).2 l hl] at hnone
      cases hnone
    · exact hrooted hnone _ (Location.isBelow_append hname _ [])
  rooted := by rwa [goal_runDirectory m hname]

/-- **A run that is written successfully** has its files in the end, and all else is as before. -/
lemma writes_of_run (hname : FileTree.IsPlain run.name)
    (hdirectory : tree.isDirectory m.directory = true) (hrooted : tree.IsRooted m.base)
    (hrooted' : tree.IsRooted (m.place run))
    (h : (m.materialize run).run tree = (.ok path, tree')) :
    path = m.configurationPath run ∧ ∃ content, m.Writes content run tree tree' := by
  obtain ⟨_, cleared, hrecreate, hrest⟩ := Files.run_bind_eq_ok h
  obtain ⟨_, copied, hcopy, hrest⟩ := Files.run_bind_eq_ok hrest
  obtain ⟨_, filled, hsubstitute, -⟩ := Files.run_bind_eq_ok hrest
  have hrecreate := run_of_run_atPath hrecreate
  have hcopy := run_of_run_atPath hcopy
  obtain ⟨⟨content, hentry⟩, hresolve, hmay, hplain⟩ := Files.exists_of_run_copy hcopy
  obtain ⟨filling, text, hfilling, htext⟩ :=
    Files.exists_of_run_substitute (run_of_run_atPath hsubstitute)
  have husable := (FileTree.resolve_eq_ok_iff.mp hresolve).1
  have husable' := isUsable_runDirectory m hname husable
  have hclear := isClearable_runDirectory hname husable' hdirectory
    (lookUp_base_of_run_recreate hname husable' hdirectory hrecreate) hrooted hrooted'
  obtain ⟨again, hagain, hcleared⟩ := Files.run_recreate hclear
  obtain rfl : again = cleared := (Prod.mk.inj (hagain.symm.trans hrecreate)).2
  have hgoal := goal_configurationPath m hname
  have hfree : m.file run ∉ m.directory.walk := by
    intro hmem
    apply hplain
    rw [hgoal]
    exact hcleared.made _ ((mem_walk_runDirectory m hname).mpr (Or.inl hmem))
  have hnone := lookUp_file_of_recreated hname hcleared hfree
  obtain ⟨again, hagain, hput⟩ := Files.run_copy hentry hresolve hmay hplain
  rw [if_neg (goal_ne_of_entryAt hentry (hgoal ▸ hnone))] at hput
  obtain rfl : again = copied := (Prod.mk.inj (hagain.symm.trans hcopy)).2
  obtain rfl : filling = content := by
    have hlookUp := (FileTree.entryAt_eq_file_iff.mp hfilling).2.2
    rw [hput.put] at hlookUp
    cases hlookUp
    rfl
  obtain ⟨again, hagain, hwrites⟩ :=
    exists_writes hname husable hrecreate hcleared hfree hentry htext
  rw [h] at hagain
  obtain ⟨hpath, rfl⟩ := Prod.mk.inj hagain
  exact ⟨Except.ok.inj hpath, filling, hwrites⟩

/-- The template is not the configuration file of the run. -/
lemma IsReady.goal_ne_file (h : m.IsReady run tree) : m.template.goal ≠ m.file run := by
  intro heq
  refine h.outside _ (Path.mem_walk_iff.mpr (Or.inr rfl)) (Or.inr ?_)
  rw [heq]
  exact isBelow_file m run

/-- **A run is written** where nothing is in the way. -/
lemma IsReady.exists_writes (hname : FileTree.IsPlain run.name) (h : m.IsReady run tree)
    (hentry : tree.entryAt m.template = .ok (.file content)) {text : String}
    (htext : String.fromUTF8? content = some text) :
    ∃ tree', (m.materialize run).run tree = (.ok (m.configurationPath run), tree') ∧
      m.Writes content run tree tree' := by
  obtain ⟨cleared, hrecreate, hcleared⟩ := Files.run_recreate (isClearable_runDirectory hname
    (isUsable_runDirectory m hname h.usable) h.directory h.base (h.parents.isRooted _)
    (h.parents.isRooted _))
  obtain ⟨hresolve, hmay, hlookUp⟩ := FileTree.entryAt_eq_file_iff.mp hentry
  have hkept : ∀ l ∈ m.template.walk, l ∉ (m.runDirectory run).walk →
      cleared.lookUp l = tree.lookUp l := by
    intro l hl hwalk
    refine hcleared.kept l hwalk ?_
    rw [goal_runDirectory m hname]
    exact Bool.eq_false_iff.mpr fun hbelow => h.outside l hl (Or.inr hbelow)
  refine Materializer.exists_writes hname h.usable hrecreate hcleared h.free
    (FileTree.entryAt_eq_file_iff.mpr ⟨FileTree.resolve_of_forall hresolve ?_, hmay, ?_⟩) htext
  · intro l hl hdir
    by_cases hwalk : l ∈ (m.runDirectory run).walk
    · exact hcleared.made l hwalk
    · rw [hkept l (Path.mem_walk_iff.mpr (Or.inl hl)) hwalk, hdir]
  · have hgoal := Path.mem_walk_iff.mpr (Or.inr (rfl : m.template.goal = m.template.goal))
    rw [hkept _ hgoal, hlookUp]
    intro hwalk
    rcases (mem_walk_runDirectory m hname).mp hwalk with hmem | heq | heq
    · rw [(FileTree.isDirectory_iff.mp h.directory).2 _ hmem] at hlookUp
      cases hlookUp
    · rw [heq] at hlookUp
      rcases h.base with hdir | hnone
      · rw [hdir] at hlookUp
        cases hlookUp
      · rw [hnone] at hlookUp
        cases hlookUp
    · exact h.outside _ hgoal (Or.inl heq)

/-- **Writing a run again** changes nothing that another one has not changed. -/
lemma Settled.lookUp_eq (hname : FileTree.IsPlain run.name) (h : m.Settled content run tree)
    (h' : m.Settled content run tree') (hkept : ∀ l, l ∉ (m.runDirectory run).walk →
      (m.place run).isBelow l = false → tree'.lookUp l = tree.lookUp l) (l : Location) :
    tree'.lookUp l = tree.lookUp l := by
  by_cases hwalk : l ∈ (m.runDirectory run).walk
  · rw [h'.walk l hwalk, h.walk l hwalk]
  · cases hbelow : (m.place run).isBelow l with
    | false => exact hkept l hwalk hbelow
    | true =>
      have hout : l ∉ m.directory.walk := fun hmem =>
        hwalk ((mem_walk_runDirectory m hname).mpr (Or.inl hmem))
      by_cases hfile : l = m.file run
      · obtain ⟨text, htext, hlookUp⟩ := h.file
        obtain ⟨text', htext', hlookUp'⟩ := h'.file
        obtain rfl : text = text' := Option.some.inj (htext.symm.trans htext')
        rw [hfile, hlookUp, hlookUp']
      · rw [h.only l hbelow hout hfile, h'.only l hbelow hout hfile]

/-- The template is found where a run that has been written is recreated. -/
lemma Settled.entryAt_recreated (hname : FileTree.IsPlain run.name)
    (h : m.Settled content run tree) (hentry : tree.entryAt m.template = .ok (.file content))
    (hcleared : tree.HasRecreated cleared (m.runDirectory run)) :
    cleared.entryAt m.template = .ok (.file content) := by
  have hplace := goal_runDirectory m hname
  obtain ⟨hresolve, hmay, hlookUp⟩ := FileTree.entryAt_eq_file_iff.mp hentry
  -- what is not the configuration file is not lost
  have hstays : ∀ l, l ≠ m.file run → tree.lookUp l ≠ none →
      l ∉ (m.runDirectory run).walk → cleared.lookUp l = tree.lookUp l := by
    intro l hfile hsome hwalk
    refine hcleared.kept l hwalk ?_
    rw [hplace]
    by_contra hbelow
    exact hsome (h.only l (Bool.of_not_eq_false hbelow)
      (fun hmem => hwalk ((mem_walk_runDirectory m hname).mpr (Or.inl hmem))) hfile)
  refine FileTree.entryAt_eq_file_iff.mpr ⟨FileTree.resolve_of_forall hresolve ?_, hmay, ?_⟩
  · intro l _ hdirectory
    by_cases hwalk : l ∈ (m.runDirectory run).walk
    · exact hcleared.made l hwalk
    · have hfile : l ≠ m.file run := by
        rintro rfl
        obtain ⟨text, -, hlookUp⟩ := h.file
        rw [hdirectory] at hlookUp
        cases hlookUp
      rw [hstays l hfile (by rw [hdirectory]; simp) hwalk, hdirectory]
  · have hwalk : m.template.goal ∉ (m.runDirectory run).walk := by
      intro hmem
      rw [h.walk _ hmem] at hlookUp
      cases hlookUp
    rw [hstays _ h.apart (by rw [hlookUp]; simp) hwalk, hlookUp]

/-- **A run that has been written can be written again**, which changes nothing. -/
lemma Settled.run_materialize (hname : FileTree.IsPlain run.name)
    (hdirectory : tree.isDirectory m.directory = true) (h : m.Settled content run tree)
    (hentry : tree.entryAt m.template = .ok (.file content)) :
    ∃ tree', (m.materialize run).run tree = (.ok (m.configurationPath run), tree') ∧
      ∀ l, tree'.lookUp l = tree.lookUp l := by
  have hmem : ∀ l, l = m.base ∨ l = m.place run → tree.lookUp l = some .directory := fun l hl =>
    h.walk l ((mem_walk_runDirectory m hname).mpr (Or.inr hl))
  have hclear := isClearable_runDirectory hname (isUsable_runDirectory m hname h.usable) hdirectory
    (Or.inl (hmem _ (Or.inl rfl)))
    (fun hnone => by rw [hmem _ (Or.inl rfl)] at hnone; cases hnone)
    (fun hnone => by rw [hmem _ (Or.inr rfl)] at hnone; cases hnone)
  obtain ⟨cleared, hrecreate, hcleared⟩ := Files.run_recreate hclear
  obtain ⟨text, htext, hfile⟩ := h.file
  have hfree : m.file run ∉ m.directory.walk := by
    intro hmem
    rw [h.walk _ ((mem_walk_runDirectory m hname).mpr (Or.inl hmem))] at hfile
    cases hfile
  obtain ⟨after, hrun, hwrites⟩ := exists_writes hname h.usable hrecreate hcleared hfree
    (h.entryAt_recreated hname hentry hcleared) htext
  exact ⟨after, hrun, h.lookUp_eq hname hwrites.settled hwrites.kept⟩

end Single

end Materializer

end Constellation
