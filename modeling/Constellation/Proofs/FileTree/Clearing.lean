import Constellation.Proofs.FileTree.Making
set_option autoImplicit false

/-!
# Removing and recreating directories

A directory that is recreated is removed first. Where its own path goes through something in it, the
path leads nowhere after the content has been removed. The directory then stays, and what the path
goes through is made again with it.

## Main definitions

* `Location.Covers` — a location is at or below another one.
* `FileTree.HasParents` — whatever is somewhere is in a directory.
* `FileTree.IsRooted` — nothing is below a location if nothing is at it.
* `FileTree.IsClearable` — nothing is lost or kept by accident when a path is cleared.
* `FileTree.HasCleared` — what a path leads to has been removed, or is an empty directory.
* `FileTree.HasRecreated` — what a path leads to is an empty directory, but for its own walk.

## Main results

* `Path.exists_goal_eq` — a path that does not demand a directory leads to a location below.
* `Files.run_removeAll` — what is at and below a location is removed.
* `Files.run_recreate` — a directory is empty after it has been recreated, but for its own walk.
-/

namespace Constellation

/-! ## Locations below others -/

namespace Location

variable {l m : Location}

/-- Nothing is below itself. -/
lemma isBelow_self (l : Location) : l.isBelow l = false := by
  simp [isBelow]

/-- What is below a location has it as a prefix. -/
lemma exists_of_isBelow (h : l.isBelow m = true) : ∃ name rest, m = l ++ name :: rest := by
  rw [isBelow, Bool.and_eq_true, Bool.and_eq_true, decide_eq_true_eq] at h
  obtain ⟨⟨hstart, hlength⟩, -⟩ := h
  obtain ⟨rest, rfl⟩ := List.isPrefixOf_iff_prefix.mp hstart
  cases rest with
  | nil => simp at hlength
  | cons name rest => exact ⟨name, rest, rfl⟩

/-- What has a plain name in a location is below it. -/
lemma isBelow_append {name : String} (hname : FileTree.IsPlain name) (l rest : Location) :
    l.isBelow (l ++ name :: rest) = true := by
  have houtside := hname.isOutside
  rw [isOutside, List.head?_cons] at houtside
  rw [isBelow, List.drop_left, isOutside, List.head?_cons, houtside]
  simp

/-- What is in something below a location is below it as well. -/
lemma isBelow_concat (h : l.isBelow m = true) (name : String) :
    l.isBelow (m ++ [name]) = true := by
  rw [isBelow, Bool.and_eq_true, Bool.and_eq_true, decide_eq_true_eq] at h
  obtain ⟨⟨hstart, hlength⟩, hinside⟩ := h
  obtain ⟨rest, rfl⟩ := List.isPrefixOf_iff_prefix.mp hstart
  cases rest with
  | nil => simp at hlength
  | cons next rest =>
    rw [List.drop_left] at hinside
    rw [isBelow, List.append_assoc, List.drop_left]
    simpa [isOutside] using hinside

/-- The location that holds a given one is given. -/
lemma isGiven_of_append {name : String} (h : isGiven (l ++ [name]) = true) : l.isGiven = true := by
  rw [isGiven, Bool.or_eq_true, List.all_append, Bool.and_eq_true, beq_iff_eq] at h
  rcases h with ⟨hup, -⟩ | hroot
  · rw [isGiven, hup, Bool.true_or]
  · have hnil : l = [] := by
      have hlength := congrArg List.length hroot
      simpa [fileSystemRoot] using hlength
    rw [hnil]
    rfl

/-- A location is at or below another one. -/
def Covers (base l : Location) : Prop := l = base ∨ base.isBelow l = true

/-- What is at or below a name has this name in it. -/
lemma Covers.exists_eq {base l : Location} {name : String} (h : (base ++ [name]).Covers l) :
    ∃ rest, l = base ++ name :: rest := by
  rcases h with rfl | hbelow
  · exact ⟨[], rfl⟩
  · obtain ⟨next, rest, rfl⟩ := exists_of_isBelow hbelow
    exact ⟨next :: rest, List.append_assoc _ _ _⟩

/-- Nothing is at or below two names of the same directory. -/
lemma Covers.name_eq {base l : Location} {name other : String} (h : (base ++ [name]).Covers l)
    (h' : (base ++ [other]).Covers l) : name = other := by
  obtain ⟨rest, rfl⟩ := h.exists_eq
  obtain ⟨rest', heq⟩ := h'.exists_eq
  exact (List.cons.inj (List.append_cancel_left heq)).1

end Location

/-! ## Paths that do not demand a directory -/

namespace Path

variable {p : Path}

/-- Such a path does not end in a lone dot. -/
lemma getLast?_ne_dot (h : FileTree.demandsDirectory p = false) :
    p.names.getLast? ≠ some ['.'] := by
  rw [FileTree.demandsDirectory, Bool.or_eq_false_iff, Bool.or_eq_false_iff] at h
  exact beq_eq_false_iff_ne.mp h.1.2

/-- **Such a path leads to a location below** that has a plain name. -/
lemma exists_goal_eq (h : FileTree.demandsDirectory p = false) (hne : p.names ≠ []) :
    ∃ l name, p.goal = l ++ [name] ∧ FileTree.IsPlain name := by
  simp only [FileTree.demandsDirectory, Bool.or_eq_false_iff, beq_eq_false_iff_ne] at h
  obtain ⟨⟨-, hdot⟩, hup⟩ := h
  obtain ⟨names, last, hnames⟩ : ∃ names last, p.names = names ++ [last] :=
    ⟨_, _, (List.dropLast_append_getLast hne).symm⟩
  have hmem : last ∈ p.names := by simp [hnames]
  rw [hnames, List.getLast?_concat] at hdot hup
  have hdots : FileTree.isDots (String.ofList last) = false := by
    simp only [FileTree.isDots, Bool.or_eq_false_iff, beq_eq_false_iff_ne]
    exact ⟨fun heq => hdot (congrArg some (String.ofList_injective heq)),
      fun heq => hup (congrArg some (String.ofList_injective heq))⟩
  refine ⟨(names.map String.ofList).foldl Location.step (FileTree.origin p), String.ofList last,
    ?_, ?_, ?_, hdots⟩
  · rw [FileTree.isDots, Bool.or_eq_false_iff] at hdots
    rw [goal, parts, hnames, List.map_append, List.foldl_append, List.map_singleton,
      List.foldl_cons, List.foldl_nil, Location.step, hdots.1, hdots.2,
      if_neg Bool.false_ne_true, if_neg Bool.false_ne_true]
  · rw [String.toList_ofList]
    exact slash_notMem_of_mem_names hmem
  · intro hempty
    exact ne_nil_of_mem_names hmem (String.ofList_injective hempty)

end Path

/-! ## Trees in which nothing hangs in the air -/

namespace FileTree

variable {tree before after : FileTree} {p : Path} {l : Location}

/-- Given locations are directories. -/
lemma lookUp_of_isGiven (h : l.isGiven = true) (tree : FileTree) :
    tree.lookUp l = some .directory := by
  rw [lookUp, if_pos h]

/-- Whatever is somewhere is in a directory. -/
def HasParents (tree : FileTree) : Prop :=
  ∀ l name, tree.lookUp (l ++ [name]) ≠ none → tree.lookUp l = some .directory

/-- Nothing is below a location if nothing is at it. -/
def IsRooted (tree : FileTree) (l : Location) : Prop :=
  tree.lookUp l = none → ∀ m, l.isBelow m = true → tree.lookUp m = none

/-- In a tree of parents every location that something is below holds something. -/
lemma HasParents.lookUp_ne_none (h : tree.HasParents) {rest : Location}
    (hrest : tree.lookUp (l ++ rest) ≠ none) : tree.lookUp l ≠ none := by
  induction rest generalizing l with
  | nil => rwa [List.append_nil] at hrest
  | cons name rest ih =>
    rw [← List.singleton_append, ← List.append_assoc] at hrest
    rw [h l name (ih hrest)]
    exact Option.some_ne_none _

/-- **In a tree of parents nothing hangs in the air.** -/
lemma HasParents.isRooted (h : tree.HasParents) (l : Location) : tree.IsRooted l := by
  intro hnone m hbelow
  obtain ⟨name, rest, rfl⟩ := Location.exists_of_isBelow hbelow
  by_contra hsome
  exact h.lookUp_ne_none hsome hnone

/-- A tree has parents if each of its entries has one. -/
lemma hasParents_of_entries (h : ∀ e ∈ tree.entries,
    e.1.2 = [] ∨ tree.lookUp e.1.2.dropLast = some .directory) : tree.HasParents := by
  intro l name hsome
  cases hl : Location.isGiven (l ++ [name]) with
  | true =>
    exact lookUp_of_isGiven (Location.isGiven_of_append hl) tree
  | false =>
    rw [lookUp, hl, if_neg Bool.false_ne_true] at hsome
    obtain ⟨entry, hentry⟩ := Option.ne_none_iff_exists'.mp hsome
    obtain ⟨before, after, hentries, -⟩ := List.lookup_eq_some_iff.mp hentry
    have hmem : (Location.key (l ++ [name]), entry) ∈ tree.entries := by
      rw [hentries]
      exact List.mem_append_right _ List.mem_cons_self
    simpa [Location.key] using h _ hmem

/-! ## Trees without what a path leads to -/

/-- Nothing is lost or kept by accident when a path is cleared. -/
structure IsClearable (tree : FileTree) (p : Path) : Prop where
  /-- The path is usable. -/
  usable : p.IsUsable
  /-- It is not empty. -/
  nonempty : p.names ≠ []
  /-- It can mean a file. -/
  free : demandsDirectory p = false
  /-- It goes through nothing but directories. -/
  way : ∀ m ∈ p.through, tree.lookUp m = some .directory ∨ tree.lookUp m = none
  /-- If one of them is missing, nothing is at its end. -/
  missing : (∃ m ∈ p.through, tree.lookUp m = none) → tree.lookUp p.goal = none
  /-- Nothing hangs in the air below its end. -/
  rooted : tree.IsRooted p.goal

/-- What a path leads to has been removed, or is an empty directory. -/
structure HasCleared (before after : FileTree) (p : Path) : Prop where
  /-- At the end of the path there is nothing but a directory. -/
  goal : after.lookUp p.goal = some .directory ∨ after.lookUp p.goal = none
  /-- The directory only stays if the path goes through something below it. -/
  stays : after.lookUp p.goal = some .directory → ∃ m ∈ p.through, p.goal.isBelow m = true
  /-- Nothing is below. -/
  below : ∀ m, p.goal.isBelow m = true → after.lookUp m = none
  /-- All else is as before. -/
  kept : ∀ m, m ≠ p.goal → p.goal.isBelow m = false → after.lookUp m = before.lookUp m

/-- What a path leads to is an empty directory, but for the walk of the path. -/
structure HasRecreated (before after : FileTree) (p : Path) : Prop where
  /-- There are directories on the walk. -/
  made : ∀ m ∈ p.walk, after.lookUp m = some .directory
  /-- Nothing else is below. -/
  emptied : ∀ m, p.goal.isBelow m = true → m ∉ p.walk → after.lookUp m = none
  /-- All else is as before. -/
  kept : ∀ m, m ∉ p.walk → p.goal.isBelow m = false → after.lookUp m = before.lookUp m

namespace IsClearable

variable (h : tree.IsClearable p)

include h

/-- The end of the path is not given. -/
lemma isGiven_goal : p.goal.isGiven = false := by
  obtain ⟨l, name, hgoal, hname⟩ := Path.exists_goal_eq h.free h.nonempty
  rw [hgoal]
  exact hname.isGiven l

/-- Nothing below is given. -/
lemma isGiven_of_isBelow {m : Location} (hm : p.goal.isBelow m = true) : m.isGiven = false := by
  obtain ⟨l, name, hgoal, hname⟩ := Path.exists_goal_eq h.free h.nonempty
  obtain ⟨next, rest, rfl⟩ := Location.exists_of_isBelow hm
  rw [hgoal, List.append_assoc]
  exact hname.isGiven_append l _

/-- If nothing is at the end of the path, there is nothing to remove. -/
lemma hasCleared_of_none (hnone : tree.lookUp p.goal = none) : HasCleared tree tree p :=
  ⟨Or.inr hnone, fun hsome => absurd (hnone.symm.trans hsome) (Option.some_ne_none _).symm,
    h.rooted hnone, fun _ _ _ => rfl⟩

/-- Emptying a directory clears it, if the path goes through something below. -/
lemma hasCleared_clear (hdirectory : tree.lookUp p.goal = some .directory)
    (hbelow : ∃ m ∈ p.through, p.goal.isBelow m = true) :
    HasCleared tree (tree.clear p.goal) p where
  goal := by
    rw [lookUp_clear, Location.isBelow_self]
    exact Or.inl hdirectory
  stays := fun _ => hbelow
  below := by
    intro m hm
    rw [lookUp_clear, hm, h.isGiven_of_isBelow hm]
    rfl
  kept := by
    intro m _ hm
    rw [lookUp_clear, hm]
    rfl

/-- So does removing it. -/
lemma hasCleared_remove {middle : FileTree} (hkept : ∀ m, m ≠ p.goal → p.goal.isBelow m = false →
    middle.lookUp m = tree.lookUp m) : HasCleared tree (middle.remove p.goal) p where
  goal := by
    rw [lookUp_remove, h.isGiven_goal]
    simp
  stays := by
    rw [lookUp_remove, h.isGiven_goal]
    simp
  below := by
    intro m hm
    rw [lookUp_remove, hm, h.isGiven_of_isBelow hm]
    simp
  kept := by
    intro m hne hm
    rw [lookUp_remove, hm, beq_eq_false_iff_ne.mpr hne]
    exact hkept m hne hm

end IsClearable

/-- After a path has been cleared, there is nothing but directories on its walk. -/
lemma HasCleared.isFree (h : tree.IsClearable p) (hafter : HasCleared tree after p) :
    after.IsFree p := by
  intro m hm
  by_cases hgoal : m = p.goal
  · rw [hgoal]
    exact hafter.goal
  · cases hbelow : p.goal.isBelow m with
    | true => exact Or.inr (hafter.below m hbelow)
    | false =>
      rw [hafter.kept m hgoal hbelow]
      exact h.way m ((Path.mem_walk_iff.mp hm).resolve_right hgoal)

end FileTree

/-! ## Removing and recreating -/

namespace Files

open FileTree

variable {tree : FileTree} {p : Path}

/-- What has been removed stays removed even if the removal fails. -/
lemma run_removeAll_eq (tree : FileTree) (p : Path) : (removeAll p).run tree =
    (match (if tree.isDirectory p then removeDirectory p else removeFile p).run tree with
      | (.ok (), after) => set after
      | (.error .notFound, after) => set after
      | (.error fault, after) => do
        set after
        throw fault : Files FileFault Unit).run tree := rfl

/-- A removal that succeeds, or finds nothing, is done. -/
lemma run_removeAll_of_run {result : Except FileFault Unit} {after : FileTree}
    (h : (if tree.isDirectory p then removeDirectory p else removeFile p).run tree =
      (result, after)) (hresult : result = .ok () ∨ result = .error .notFound) :
    (removeAll p).run tree = (.ok (), after) := by
  rw [run_removeAll_eq, h]
  rcases hresult with rfl | rfl <;> rfl

/-- An empty directory is removed, unless the way to it has gone. -/
lemma run_removeEmpty (hp : p.IsUsable) (hlast : p.names.getLast? ≠ some ['.'])
    (hway : ∀ m ∈ p.through, tree.lookUp m = some .directory ∨ tree.lookUp m = none) :
    (removeEmpty p).run tree = (.ok (), tree.remove p.goal) ∨
      (removeEmpty p).run tree = (.error .notFound, tree) ∧
        ∃ m ∈ p.through, tree.lookUp m = none := by
  by_cases hmissing : ∃ m ∈ p.through, tree.lookUp m = none
  · right
    rw [removeEmpty, run_ask_error (resolve_of_missing hp hway hmissing)]
    exact ⟨rfl, hmissing⟩
  · left
    have hthrough : ∀ m ∈ p.through, tree.lookUp m = some .directory := by
      intro m hm
      exact (hway m hm).resolve_right fun hnone => hmissing ⟨m, hm, hnone⟩
    have hdot : endsInDot p = false := beq_eq_false_iff_ne.mpr hlast
    rw [removeEmpty, run_ask_ok (resolve_eq_ok_iff.mpr ⟨hp, hthrough, rfl⟩), hdot]
    rfl

/-- A directory is emptied, and removed unless the way to it has gone with its content. -/
lemma run_removeDirectory (h : tree.IsClearable p) (hat : tree.isDirectory p = true) :
    ∃ result after, (removeDirectory p).run tree = (result, after) ∧
      (result = .ok () ∨ result = .error .notFound) ∧ HasCleared tree after p := by
  obtain ⟨hp, hwalk⟩ := isDirectory_iff.mp hat
  have hresolve : tree.resolve p = .ok p.goal := resolve_eq_ok_iff.mpr
    ⟨hp, fun m hm => hwalk m (Path.mem_walk_iff.mpr (Or.inl hm)), rfl⟩
  have hrun : (removeDirectory p).run tree = (removeEmpty p).run (tree.clear p.goal) := by
    rw [removeDirectory, run_ask_ok hresolve]
    rfl
  -- the path is followed again, and leads nowhere by then if it goes through what has been removed
  have hthrough : ∀ m ∈ p.through, (tree.clear p.goal).lookUp m =
      if p.goal.isBelow m then none else some .directory := by
    intro m hm
    rw [lookUp_clear, hwalk m (Path.mem_walk_iff.mpr (Or.inl hm))]
    cases hbelow : p.goal.isBelow m with
    | false => rfl
    | true => rw [h.isGiven_of_isBelow hbelow]; rfl
  have hway : ∀ m ∈ p.through, (tree.clear p.goal).lookUp m = some .directory ∨
      (tree.clear p.goal).lookUp m = none := by
    intro m hm
    rw [hthrough m hm]
    split
    · exact Or.inr rfl
    · exact Or.inl rfl
  rcases run_removeEmpty hp (Path.getLast?_ne_dot h.free) hway with hok | ⟨hgone, m, hm, hnone⟩
  · refine ⟨_, _, hrun.trans hok, Or.inl rfl, h.hasCleared_remove fun m _ hm => ?_⟩
    rw [lookUp_clear, hm]
    rfl
  · refine ⟨_, _, hrun.trans hgone, Or.inr rfl, h.hasCleared_clear
      (hwalk p.goal (Path.mem_walk_iff.mpr (Or.inr rfl))) ⟨m, hm, ?_⟩⟩
    by_contra hbelow
    rw [hthrough m hm, if_neg hbelow] at hnone
    cases hnone

/-- A file is removed, unless there is nothing. -/
lemma run_removeFile (h : tree.IsClearable p) (hat : tree.isDirectory p = false) :
    ∃ result after, (removeFile p).run tree = (result, after) ∧
      (result = .ok () ∨ result = .error .notFound) ∧ HasCleared tree after p := by
  by_cases hmissing : ∃ m ∈ p.through, tree.lookUp m = none
  · refine ⟨.error .notFound, tree, ?_, Or.inr rfl, h.hasCleared_of_none (h.missing hmissing)⟩
    rw [removeFile, run_ask_error (resolve_of_missing h.usable h.way hmissing)]
  · have hthrough : ∀ m ∈ p.through, tree.lookUp m = some .directory := by
      intro m hm
      exact (h.way m hm).resolve_right fun hnone => hmissing ⟨m, hm, hnone⟩
    have hresolve : tree.resolve p = .ok p.goal :=
      resolve_eq_ok_iff.mpr ⟨h.usable, hthrough, rfl⟩
    cases hentry : tree.lookUp p.goal with
    | none =>
      have hnone : tree.entryAt p = .error .notFound := by simp [entryAt, hresolve, hentry]
      refine ⟨.error .notFound, tree, ?_, Or.inr rfl, h.hasCleared_of_none hentry⟩
      rw [removeFile, run_ask_ok hresolve, run_ask_error hnone]
    | some entry =>
      cases entry with
      | file content =>
        have hfile : tree.entryAt p = .ok (.file content) := by
          simp [entryAt, hresolve, hentry, h.free]
        refine ⟨.ok (), tree.remove p.goal, ?_, Or.inl rfl, h.hasCleared_remove fun _ _ _ => rfl⟩
        rw [removeFile, run_ask_ok hresolve, run_ask_ok hfile]
        rfl
      | directory =>
        simp [FileTree.isDirectory, entryAt, hresolve, hentry, Entry.isDirectory] at hat

/-- **What is at and below a location is removed.** -/
lemma run_removeAll (h : tree.IsClearable p) :
    ∃ tree', (removeAll p).run tree = (.ok (), tree') ∧ HasCleared tree tree' p := by
  cases hat : tree.isDirectory p with
  | true =>
    obtain ⟨result, after, hrun, hresult, hcleared⟩ := run_removeDirectory h hat
    exact ⟨after, run_removeAll_of_run (by rw [hat, if_pos rfl, hrun]) hresult, hcleared⟩
  | false =>
    obtain ⟨result, after, hrun, hresult, hcleared⟩ := run_removeFile h hat
    refine ⟨after, run_removeAll_of_run ?_ hresult, hcleared⟩
    rw [hat, if_neg Bool.false_ne_true, hrun]

/-- What cannot be reached, and not only because nothing is there, is not removed. -/
lemma run_removeAll_of_error {fault : FileFault} (h : tree.resolve p = .error fault)
    (hfault : fault ≠ .notFound) : (removeAll p).run tree = (.error fault, tree) := by
  have hat : tree.isDirectory p = false := by simp [FileTree.isDirectory, entryAt, h]
  rw [run_removeAll_eq, hat, if_neg Bool.false_ne_true, removeFile, run_ask_error h]
  cases fault <;> first | exact absurd rfl hfault | rfl

/-- So what is removed successfully can be reached, unless nothing is there. -/
lemma resolve_ne_error_of_run_removeAll {fault : FileFault} {tree' : FileTree}
    (h : (removeAll p).run tree = (.ok (), tree')) (hfault : fault ≠ .notFound) :
    tree.resolve p ≠ .error fault := by
  intro herror
  rw [run_removeAll_of_error herror hfault] at h
  cases h

/-- **A directory is empty after it has been recreated**, but for the walk of its own path. -/
lemma run_recreate (h : tree.IsClearable p) :
    ∃ tree', (recreate p).run tree = (.ok (), tree') ∧ HasRecreated tree tree' p := by
  obtain ⟨middle, hremove, hcleared⟩ := run_removeAll h
  obtain ⟨after, hmake, hmade⟩ :=
    run_makeAll h.usable (Path.getLast?_ne_dot h.free) (hcleared.isFree h)
  refine ⟨after, ?_, hmade.made, ?_, ?_⟩
  · rw [recreate, run_bind_ok hremove, hmake]
  · intro m hbelow hm
    rw [hmade.kept m hm, hcleared.below m hbelow]
  · intro m hm hbelow
    have hgoal : m ≠ p.goal := fun heq => hm (Path.mem_walk_iff.mpr (Or.inr heq))
    rw [hmade.kept m hm, hcleared.kept m hgoal hbelow]

end Files

end Constellation
