import Constellation.Proofs.Experiment.Materializing
set_option autoImplicit false

/-!
# Removing the outputs of an experiment

The directories for outputs are single names below the experiment directory. They are removed with
everything in them, whatever that is, unless the path of the experiment directory goes through them.

## Main definitions

* `FileTree.HasLost` — some names have been removed from a directory, and nothing else.
* `IsOutput` — a location belongs to the outputs of an experiment.
* `AvoidsOutputs` — the path of an experiment directory does not go through its outputs.
* `HasReset` — the outputs have been removed, and the directory for runs is empty.

## Main results

* `avoidsOutputs_of_forall_ne` — a path that does not go up avoids what is below it.
* `hasLost_of_run_removeBelow` — names that are removed successfully are gone.
* `hasReset_of_run_clearOutputs` — outputs that are cleared successfully are gone.

## Design

Where a path goes through what is removed it leads nowhere afterwards, which counts as removed, so
the names after it are not even looked for. Hence the condition.
-/

namespace Constellation

/-! ## Single names -/

/-- A plain name that no path refuses. -/
structure FileTree.IsFitting (name : String) : Prop extends FileTree.IsPlain name where
  /-- It is not too long for a name. -/
  short : name.utf8ByteSize ≤ FileTree.nameLimit
  /-- It does not hold the character that ends a name. -/
  nul : '\x00' ∉ name.toList

namespace FileTree

variable {tree tree' middle after : FileTree} {p : Path} {name : String} {names : List String}

/-- A fitting name can only make a path too long. -/
lemma resolve_join_of_not_isUsable (hp : p.IsUsable) (hname : IsFitting name)
    (h : ¬ (p.join ⟨name⟩).IsUsable) (tree : FileTree) :
    tree.resolve (p.join ⟨name⟩) = .error .nameTooLong := by
  have hchars := Path.chars_join p (Path.isAbsolute_piece hname.slash)
  have hnul : '\x00' ∉ (p.join ⟨name⟩).chars := by
    rw [hchars, List.mem_append, List.mem_append, not_or, not_or]
    refine ⟨⟨hp.nul, ?_⟩, hname.nul⟩
    split <;> decide
  have hnonempty := Path.text_join_ne_empty (p := p) hname.toIsPlain
  have hparts : ∀ part ∈ (p.join ⟨name⟩).parts, IsShort part := by
    rw [Path.parts_join hname.toIsPlain]
    intro part hpart
    rcases List.mem_append.mp hpart with hpart | hpart
    · exact hp.parts part hpart
    · obtain rfl := List.mem_singleton.mp hpart
      exact Or.inr hname.short
  have hlong : pathLimit ≤ (p.join ⟨name⟩).text.utf8ByteSize := by
    by_contra hshort
    exact h ⟨hnul, hnonempty, Nat.not_le.mp hshort, hparts⟩
  rw [resolve, if_neg (by simpa using hnul), if_neg (by simpa using hnonempty), if_pos hlong]

/-- A name can be removed from a directory where nothing hangs in the air. -/
lemma isClearable_join (hp : tree.isDirectory p = true) (hname : IsPlain name)
    (husable : (p.join ⟨name⟩).IsUsable) (hrooted : tree.IsRooted (p.goal ++ [name])) :
    tree.IsClearable (p.join ⟨name⟩) where
  usable := husable
  nonempty := Path.names_join_ne_nil hname
  free := Path.demandsDirectory_join hname
  way := by
    rw [Path.through_join hname]
    exact fun l hl => Or.inl ((isDirectory_iff.mp hp).2 l hl)
  missing := by
    rw [Path.through_join hname]
    rintro ⟨l, hl, hnone⟩
    rw [(isDirectory_iff.mp hp).2 l hl] at hnone
    cases hnone
  rooted := by rwa [Path.goal_join hname]

/-- Some names have been removed from a directory, and nothing else. -/
structure HasLost (p : Path) (names : List String) (before after : FileTree) : Prop where
  /-- Nothing is at and below them. -/
  gone : ∀ name ∈ names, ∀ l, Location.Covers (p.goal ++ [name]) l → after.lookUp l = none
  /-- All else is as before. -/
  kept : ∀ l, (∀ name ∈ names, ¬ Location.Covers (p.goal ++ [name]) l) →
    after.lookUp l = before.lookUp l

/-- A directory whose path does not go through names that are removed from it stays. -/
lemma HasLost.isDirectory (h : HasLost p names tree after) (hp : tree.isDirectory p = true)
    (havoid : ∀ name ∈ names, ∀ l ∈ p.walk, ¬ Location.Covers (p.goal ++ [name]) l) :
    after.isDirectory p = true := by
  obtain ⟨husable, hwalk⟩ := isDirectory_iff.mp hp
  exact isDirectory_iff.mpr ⟨husable, fun l hl =>
    (h.kept l fun name hmem => havoid name hmem l hl).trans (hwalk l hl)⟩

/-- Nothing hangs in the air after names have been removed. -/
lemma HasLost.isRooted (h : HasLost p [name] tree middle) {other : String}
    (hrooted : tree.IsRooted (p.goal ++ [other])) : middle.IsRooted (p.goal ++ [other]) := by
  intro hnone l hbelow
  by_cases hother : other = name
  · exact h.gone name List.mem_cons_self l (Or.inr (hother ▸ hbelow))
  · -- what is at and below another name has not been touched
    have hkept : ∀ m, Location.Covers (p.goal ++ [other]) m →
        middle.lookUp m = tree.lookUp m := by
      refine fun m hm => h.kept m fun removed hmem hremoved => hother ?_
      rw [List.mem_singleton.mp hmem] at hremoved
      exact hm.name_eq hremoved
    rw [hkept _ (Or.inl rfl)] at hnone
    rw [hkept l (Or.inr hbelow)]
    exact hrooted hnone l hbelow

/-- Names are removed one after the other. -/
lemma HasLost.cons (h : HasLost p [name] tree middle) (hrest : HasLost p names middle after) :
    HasLost p (name :: names) tree after where
  gone := by
    intro other hother l hl
    by_cases hlater : ∃ later ∈ names, Location.Covers (p.goal ++ [later]) l
    · obtain ⟨later, hmem, hcovers⟩ := hlater
      exact hrest.gone later hmem l hcovers
    · rw [hrest.kept l fun later hmem hcovers => hlater ⟨later, hmem, hcovers⟩]
      rcases List.mem_cons.mp hother with rfl | hmem
      · exact h.gone other List.mem_cons_self l hl
      · exact absurd ⟨other, hmem, hl⟩ hlater
  kept := by
    intro l hout
    rw [List.forall_mem_cons] at hout
    rw [hrest.kept l hout.2, h.kept l fun other hother => List.mem_singleton.mp hother ▸ hout.1]

/-- **A name that is removed is gone**, unless the path of the directory goes through it. -/
lemma HasCleared.hasLost (hname : IsPlain name) (h : HasCleared tree after (p.join ⟨name⟩))
    (havoid : ∀ l ∈ p.walk, ¬ Location.Covers (p.goal ++ [name]) l) :
    HasLost p [name] tree after where
  gone := by
    intro other hother l hl
    obtain rfl := List.mem_singleton.mp hother
    rw [← Path.goal_join hname] at hl
    rcases hl with rfl | hbelow
    · refine h.goal.resolve_left fun hdirectory => ?_
      obtain ⟨m, hm, hbelow⟩ := h.stays hdirectory
      rw [Path.through_join hname] at hm
      rw [Path.goal_join hname] at hbelow
      exact havoid m hm (Or.inr hbelow)
    · exact h.below l hbelow
  kept := by
    intro l hout
    have hout := hout name List.mem_cons_self
    rw [Location.Covers, not_or, Bool.not_eq_true, ← Path.goal_join hname] at hout
    exact h.kept l hout.1 hout.2

end FileTree

/-! ## Removing names -/

section Removing

open FileTree

variable {tree tree' : FileTree} {p : Path} {name : String} {names : List String}

/-- **Names that are removed successfully are gone.** -/
lemma hasLost_of_run_removeBelow (hnames : ∀ name ∈ names, IsFitting name)
    (hp : tree.isDirectory p = true) (hrooted : ∀ name ∈ names, tree.IsRooted (p.goal ++ [name]))
    (havoid : ∀ name ∈ names, ∀ l ∈ p.walk, ¬ Location.Covers (p.goal ++ [name]) l)
    (h : (removeBelow p (names.map Path.mk)).run tree = (.ok (), tree')) :
    HasLost p names tree tree' ∧ ∀ name ∈ names, (p.join ⟨name⟩).IsUsable := by
  induction names generalizing tree with
  | nil =>
    cases h
    exact ⟨⟨by simp, fun _ _ => rfl⟩, by simp⟩
  | cons name names ih =>
    rw [List.forall_mem_cons] at hnames hrooted havoid
    obtain ⟨_, middle, hremove, hrest⟩ := Files.run_bind_eq_ok h
    have hremove := Materializer.run_of_run_atPath hremove
    have husable : (p.join ⟨name⟩).IsUsable := by
      by_contra hnot
      exact Files.resolve_ne_error_of_run_removeAll hremove (by decide)
        (resolve_join_of_not_isUsable (isDirectory_iff.mp hp).1 hnames.1 hnot tree)
    obtain ⟨again, hagain, hcleared⟩ :=
      Files.run_removeAll (isClearable_join hp hnames.1.toIsPlain husable hrooted.1)
    obtain rfl : again = middle := (Prod.mk.inj (hagain.symm.trans hremove)).2
    have hlost := hcleared.hasLost hnames.1.toIsPlain havoid.1
    have hp' := hlost.isDirectory hp fun other hother =>
      List.mem_singleton.mp hother ▸ havoid.1
    obtain ⟨hlater, husables⟩ := ih hnames.2 hp'
      (fun other hother => hlost.isRooted (hrooted.2 other hother)) havoid.2 hrest
    exact ⟨hlost.cons hlater, List.forall_mem_cons.mpr ⟨husable, husables⟩⟩

end Removing

/-! ## Outputs -/

/-- The names of the directories for outputs. -/
def outputNames : List String := ["runs", "pdf", "data"]

/-- They are single names below the experiment directory. -/
lemma outputDirectories_eq : outputDirectories = outputNames.map Path.mk := rfl

/-- They can be put after any path. -/
lemma isFitting_outputNames : ∀ name ∈ outputNames, FileTree.IsFitting name := by
  simp only [outputNames, List.forall_mem_cons]
  exact ⟨⟨⟨by decide, by decide, by decide⟩, by decide, by decide⟩,
    ⟨⟨by decide, by decide, by decide⟩, by decide, by decide⟩,
    ⟨⟨by decide, by decide, by decide⟩, by decide, by decide⟩, by simp⟩

/-- A location belongs to the outputs of an experiment in some directory. -/
def IsOutput (directory : Path) (l : Location) : Prop :=
  ∃ name ∈ outputNames, Location.Covers (directory.goal ++ [name]) l

/-- The path of an experiment directory does not go through its outputs. -/
def AvoidsOutputs (directory : Path) : Prop := ∀ l ∈ directory.walk, ¬ IsOutput directory l

/-- **A path that does not go up** avoids what is below it. -/
lemma avoidsOutputs_of_forall_ne {directory : Path} (h : ∀ name ∈ directory.parts, name ≠ "..") :
    AvoidsOutputs directory := by
  rintro l hl ⟨name, -, hcovers⟩
  have hlength : l.length ≤ directory.goal.length := Location.length_le_of_mem_walk _ h hl
  obtain ⟨rest, rfl⟩ := hcovers.exists_eq
  simp at hlength

/-- The outputs have been removed, and the directory for runs is empty. -/
structure HasReset (directory : Path) (before after : FileTree) : Prop where
  /-- The directory for runs is there. -/
  base : after.lookUp (directory.goal ++ ["runs"]) = some .directory
  /-- There are no other outputs. -/
  gone : ∀ l, IsOutput directory l → l ≠ directory.goal ++ ["runs"] → after.lookUp l = none
  /-- All else is as before. -/
  kept : ∀ l, ¬ IsOutput directory l → after.lookUp l = before.lookUp l

section Reset

open FileTree

variable {tree tree' : FileTree} {directory : Path}

/-- The experiment directory stays. -/
lemma HasReset.isDirectory (h : HasReset directory tree tree')
    (hdirectory : tree.isDirectory directory = true) (havoid : AvoidsOutputs directory) :
    tree'.isDirectory directory = true := by
  obtain ⟨husable, hwalk⟩ := isDirectory_iff.mp hdirectory
  exact isDirectory_iff.mpr ⟨husable, fun l hl => (h.kept l (havoid l hl)).trans (hwalk l hl)⟩

/-- The files that are left are as before. -/
lemma HasReset.lookUp_of_file (h : HasReset directory tree tree') {l : Location}
    {content : ByteArray} (hfile : tree'.lookUp l = some (.file content)) :
    tree.lookUp l = some (.file content) := by
  have hout : ¬ IsOutput directory l := by
    intro houtput
    by_cases hbase : l = directory.goal ++ ["runs"]
    · rw [hbase, h.base] at hfile
      cases hfile
    · rw [h.gone l houtput hbase] at hfile
      cases hfile
  rw [← h.kept l hout, hfile]

/-- **Outputs that are cleared successfully are gone**, whatever they were. -/
lemma hasReset_of_run_clearOutputs (hparents : tree.HasParents)
    (hdirectory : tree.isDirectory directory = true) (havoid : AvoidsOutputs directory)
    (h : (clearOutputs directory).run tree = (.ok (), tree')) : HasReset directory tree tree' := by
  obtain ⟨_, middle, hremove, hmake⟩ := Files.run_bind_eq_ok h
  rw [outputDirectories_eq] at hremove
  have hout : ∀ name ∈ outputNames, ∀ l ∈ directory.walk,
      ¬ Location.Covers (directory.goal ++ [name]) l :=
    fun name hname l hl hcovers => havoid l hl ⟨name, hname, hcovers⟩
  obtain ⟨hlost, husable⟩ := hasLost_of_run_removeBelow isFitting_outputNames hdirectory
    (fun name _ => hparents.isRooted _) hout hremove
  have hruns : IsPlain "runs" := Materializer.isPlain_runs
  have hgoal := Path.goal_join (p := directory) hruns
  have hwalk := Path.walk_join (p := directory) hruns
  have hmiddle := (isDirectory_iff.mp (hlost.isDirectory hdirectory hout)).2
  have hfree : middle.IsFree (directory.join Run.runsDirectory) := by
    intro l hl
    rw [Run.runsDirectory, hwalk, List.mem_append, List.mem_singleton] at hl
    rcases hl with hl | rfl
    · exact Or.inl (hmiddle l hl)
    · exact Or.inr (hlost.gone "runs" List.mem_cons_self _ (Or.inl rfl))
  obtain ⟨again, hagain, hmade⟩ := Files.run_makeAll (husable "runs" List.mem_cons_self)
    (Path.getLast?_ne_dot (Path.demandsDirectory_join hruns)) hfree
  obtain rfl : again = tree' :=
    (Prod.mk.inj (hagain.symm.trans (Materializer.run_of_run_atPath hmake))).2
  have hkept : ∀ l, l ≠ directory.goal ++ ["runs"] → again.lookUp l = middle.lookUp l := by
    intro l hl
    by_cases hmem : l ∈ directory.walk
    · rw [hmiddle l hmem]
      refine hmade.made l ?_
      rw [hwalk]
      exact List.mem_append_left _ hmem
    · refine hmade.kept l ?_
      rw [hwalk, List.mem_append, List.mem_singleton, not_or]
      exact ⟨hmem, hl⟩
  refine ⟨hmade.made _ ?_, ?_, ?_⟩
  · rw [hwalk]
    exact List.mem_append_right _ List.mem_cons_self
  · rintro l ⟨name, hname, hcovers⟩ hl
    rw [hkept l hl, hlost.gone name hname l hcovers]
  · intro l hout
    have hl : l ≠ directory.goal ++ ["runs"] := by
      rintro rfl
      exact hout ⟨"runs", List.mem_cons_self, Or.inl rfl⟩
    rw [hkept l hl, hlost.kept l fun name hname hcovers => hout ⟨name, hname, hcovers⟩]

end Reset

end Constellation
