import Constellation.Proofs.FileTree.Descending
import Constellation.Proofs.FileTree.Relating
set_option autoImplicit false

/-!
# Resetting a directory

A directory that is recreated is removed first and made again with everything above it. Under a path
of nothing but names this is all or nothing as far as the old content is concerned: either there is
an empty directory in the end and nothing outside of it has changed, or nothing has been lost.

## Main definitions

* `Path.IsNormal` — a relative path of one or more names.
* `FileTree.IsReset` — there is an empty directory, and nothing outside of it has changed.
* `FileTree.HasKept` — everything that was there is still there.
* `FileTree.IsAvailable` — a path leads to something, or to nothing yet.

## Main results

* `Path.IsNormal.mem_through_iff` — such a path goes through the locations above its own.
* `Files.run_removeAll_of_entryAt_ok`, `Files.run_removeAll_of_entryAt_error` — what a removal does
  depends on what the path leads to.
* `Files.run_recreate_of_isAvailable`, `Files.isAvailable_of_run_recreate` — where a directory is
  reset, and that it is recreated nowhere else.
* `Files.hasKept_of_run_recreate_error` — nothing is lost where it is not.
* `Files.recreate_resets` — all of this, and that recreating once more changes nothing.

## Design

A removal that finds nothing is no fault, so that a path may be refused only when the directories on
its way are made, and some of them may have been made by then. But then nothing was there to be
removed. If something was there, the path got to its end, and so it does again.
-/

namespace Constellation

/-! ## Paths of names -/

namespace Location

variable {names : List String}

/-- Names lead to the location that they are appended to. -/
lemma foldl_step_of_names (h : ∀ name ∈ names, FileTree.isDots name = false) (l : Location) :
    names.foldl step l = l ++ names := by
  induction names generalizing l with
  | nil => exact (List.append_nil l).symm
  | cons name names ih =>
    rw [List.forall_mem_cons, FileTree.isDots, Bool.or_eq_false_iff] at h
    obtain ⟨⟨hdot, hup⟩, hnames⟩ := h
    rw [List.foldl_cons, step, hdot, hup, if_neg Bool.false_ne_true, if_neg Bool.false_ne_true,
      ih hnames, List.append_assoc, List.singleton_append]

/-- On the way they lead through all locations above it. -/
lemma mem_through_of_names (h : ∀ name ∈ names, FileTree.isDots name = false) {l m : Location} :
    m ∈ through l names ↔ ∃ front, front <+: names ∧ front ≠ names ∧ m = l ++ front := by
  induction names generalizing l with
  | nil => simp [through]
  | cons name names ih =>
    have hstep : [name].foldl step l = l ++ [name] :=
      foldl_step_of_names (List.forall_mem_singleton.mpr (h name List.mem_cons_self)) l
    rw [List.foldl_cons, List.foldl_nil] at hstep
    rw [through, hstep, List.mem_cons,
      ih fun other hother => h other (List.mem_cons_of_mem _ hother)]
    constructor
    · rintro (rfl | ⟨front, hfront, hne, rfl⟩)
      · exact ⟨[], List.nil_prefix, by simp, (List.append_nil _).symm⟩
      · exact ⟨name :: front, List.cons_prefix_cons.mpr ⟨rfl, hfront⟩, by simpa using hne,
          List.append_assoc _ _ _⟩
    · rintro ⟨front, hfront, hne, rfl⟩
      rcases List.prefix_cons_iff.mp hfront with rfl | ⟨front, rfl, -⟩
      · exact Or.inl (List.append_nil _)
      · exact Or.inr ⟨front, (List.cons_prefix_cons.mp hfront).2, by simpa using hne, by simp⟩

/-- Nothing below a location is above it. -/
lemma not_prefix_of_isBelow {l m : Location} (h : l.isBelow m = true) : ¬ m <+: l := by
  obtain ⟨name, rest, rfl⟩ := exists_of_isBelow h
  intro habove
  have hlength := habove.length_le
  rw [List.length_append, List.length_cons] at hlength
  omega

end Location

namespace Path

/-- A relative path that consists of one or more names, none of which is made of dots. -/
structure IsNormal (p : Path) : Prop where
  /-- It is relative. -/
  relative : p.isAbsolute = false
  /-- It has a name. -/
  nonempty : p.names ≠ []
  /-- None of its names is made of dots. -/
  dots : ∀ name ∈ p.parts, FileTree.isDots name = false

namespace IsNormal

variable {p : Path} (hp : p.IsNormal)

include hp

/-- Such a path leads to the location that has its names. -/
lemma goal_eq : p.goal = p.parts := by
  have horigin : FileTree.origin p = [] := by
    rw [FileTree.origin, hp.relative, if_neg Bool.false_ne_true]
  rw [goal, horigin, Location.foldl_step_of_names hp.dots, List.nil_append]

/-- **It goes through the locations above this one**, and through no others. -/
lemma mem_through_iff {m : Location} : m ∈ p.through ↔ m <+: p.parts ∧ m ≠ p.parts := by
  have horigin : FileTree.origin p = [] := by
    rw [FileTree.origin, hp.relative, if_neg Bool.false_ne_true]
  rw [through, horigin, Location.mem_through_of_names hp.dots]
  simp

/-- Its walk is all of them. -/
lemma mem_walk_iff {m : Location} : m ∈ p.walk ↔ m <+: p.parts := by
  rw [Path.mem_walk_iff, hp.mem_through_iff, hp.goal_eq]
  constructor
  · rintro (⟨habove, -⟩ | rfl)
    · exact habove
    · exact List.prefix_rfl
  · intro habove
    by_cases heq : m = p.parts
    · exact Or.inr heq
    · exact Or.inl ⟨habove, heq⟩

/-- Its last name is plain. -/
lemma exists_parts_eq : ∃ l name, p.parts = l ++ [name] ∧ FileTree.IsPlain name := by
  have hne : p.parts ≠ [] := fun hnil => hp.nonempty (List.map_eq_nil_iff.mp hnil)
  have hlast : p.parts.getLast hne ∈ p.parts := List.getLast_mem hne
  refine ⟨_, _, (List.dropLast_append_getLast hne).symm, ?_, ?_, hp.dots _ hlast⟩
  · obtain ⟨name, hname, heq⟩ := List.mem_map.mp hlast
    rw [← heq, String.toList_ofList]
    exact slash_notMem_of_mem_names hname
  · obtain ⟨name, hname, heq⟩ := List.mem_map.mp hlast
    rw [← heq]
    exact fun hempty => ne_nil_of_mem_names hname (String.ofList_injective hempty)

/-- Neither its location nor anything below is given. -/
lemma isGiven_of_covers {m : Location} (hm : p.goal.Covers m) : m.isGiven = false := by
  obtain ⟨l, name, hparts, hname⟩ := hp.exists_parts_eq
  rw [hp.goal_eq, hparts] at hm
  obtain ⟨rest, rfl⟩ := hm.exists_eq
  exact hname.isGiven_append l rest

/-- What it goes through is not below its location. -/
lemma isBelow_of_mem_through {m : Location} (hm : m ∈ p.through) :
    m ≠ p.goal ∧ p.goal.isBelow m = false := by
  rw [hp.mem_through_iff] at hm
  rw [hp.goal_eq]
  exact ⟨hm.2, Bool.eq_false_iff.mpr fun hbelow => Location.not_prefix_of_isBelow hbelow hm.1⟩

/-- It does not go up. -/
lemma isDirect : p.IsDirect := fun hmem =>
  absurd (hp.dots ".." ((List.dropWhile_sublist _).mem hmem)) (by decide)

/-- It is not empty. -/
lemma text_ne_empty : p.text ≠ "" := by
  intro hempty
  apply hp.nonempty
  rw [names, chars, hempty]
  rfl

/-- It does not end in a lone dot. -/
lemma getLast?_ne_dot : p.names.getLast? ≠ some ['.'] := fun hlast =>
  absurd (hp.dots "." (List.mem_map.mpr ⟨['.'], List.mem_of_getLast? hlast, rfl⟩)) (by decide)

end IsNormal

end Path

/-! ## Trees that have been reset -/

namespace FileTree

/-- There is an empty directory at a location, everything above it is a directory, and nothing else
has changed. -/
structure IsReset (before after : FileTree) (l : Location) : Prop where
  /-- At the location and above it there are directories. -/
  made : ∀ m, m <+: l → after.lookUp m = some .directory
  /-- Nothing is below. -/
  empty : ∀ m, l.isBelow m = true → after.lookUp m = none
  /-- All else is as before. -/
  kept : ∀ m, ¬ m <+: l → l.isBelow m = false → after.lookUp m = before.lookUp m

/-- Everything that was there is still there, with the same content. -/
def HasKept (before after : FileTree) : Prop :=
  ∀ l entry, before.lookUp l = some entry → after.lookUp l = some entry

/-- A path leads to something, or it is usable and leads to nothing yet. -/
def IsAvailable (tree : FileTree) (p : Path) : Prop :=
  (∃ entry, tree.entryAt p = .ok entry) ∨ tree.entryAt p = .error .notFound ∧ p.IsUsable

instance : Std.Refl HasKept := ⟨fun _ _ _ h => h⟩

instance : IsTrans FileTree HasKept :=
  ⟨fun _ _ _ h h' l entry hentry => h' l entry (h l entry hentry)⟩

variable {tree before middle after again : FileTree} {p : Path} {l : Location}

/-- Resetting a directory that has been reset changes nothing. -/
lemma IsReset.lookUp_eq (h : IsReset before after l) (hagain : IsReset after again l)
    (m : Location) : again.lookUp m = after.lookUp m := by
  by_cases habove : m <+: l
  · rw [hagain.made m habove, h.made m habove]
  · cases hbelow : l.isBelow m with
    | true => rw [hagain.empty m hbelow, h.empty m hbelow]
    | false => exact hagain.kept m habove hbelow

/-- Making a directory where nothing is keeps everything. -/
lemma hasKept_put (tree : FileTree) (l : Location) (hnone : tree.lookUp l = none) :
    HasKept tree (tree.put l .directory) := by
  intro m entry hentry
  have hm : m ≠ l := by
    rintro rfl
    rw [hnone] at hentry
    cases hentry
  rwa [lookUp_put_of_ne tree _ hm]

/-- A directory is reset when it is made after everything at and below it has gone. -/
lemma HasMade.isReset (hp : p.IsNormal) (h : HasMade middle after p)
    (hgone : ∀ m, p.goal.isBelow m = true → middle.lookUp m = none)
    (hkept : ∀ m, m ≠ p.goal → p.goal.isBelow m = false → middle.lookUp m = tree.lookUp m) :
    IsReset tree after p.parts := by
  rw [hp.goal_eq] at hgone hkept
  constructor
  · exact fun m hm => h.made m (hp.mem_walk_iff.mpr hm)
  · intro m hbelow
    have hwalk : m ∉ p.walk := fun hm =>
      Location.not_prefix_of_isBelow hbelow (hp.mem_walk_iff.mp hm)
    rw [h.kept m hwalk, hgone m hbelow]
  · intro m hm hbelow
    have hne : m ≠ p.parts := by
      rintro rfl
      exact hm List.prefix_rfl
    rw [h.kept m fun hwalk => hm (hp.mem_walk_iff.mp hwalk), hkept m hne hbelow]

/-- A path that finds something gets to its end. -/
lemma resolve_of_entryAt_ok {entry : Entry} (h : tree.entryAt p = .ok entry) :
    tree.resolve p = .ok p.goal ∧ tree.lookUp p.goal = some entry := by
  cases hresolve : tree.resolve p with
  | error fault =>
    rw [entryAt, hresolve] at h
    cases h
  | ok l =>
    have hfound := lookUp_of_entryAt h (follow_of_resolve hresolve)
    obtain ⟨-, -, rfl⟩ := resolve_eq_ok_iff.mp hresolve
    exact ⟨rfl, hfound⟩

/-- If a usable path of names finds nothing, there are only directories on its way, and nothing is
at its end. -/
lemma HasParents.lookUp_of_entryAt_notFound (htree : tree.HasParents) (hp : p.IsNormal)
    (husable : p.IsUsable) (h : tree.entryAt p = .error .notFound) :
    (∀ m ∈ p.through, tree.lookUp m = some .directory ∨ tree.lookUp m = none) ∧
      tree.lookUp p.goal = none := by
  have hdescends := hp.isDirect.descends tree
  have hresolve : tree.resolve p ≠ .error .notADirectory := by
    intro herror
    rw [entryAt, herror] at h
    cases h
  have hway : ∀ m ∈ p.through, tree.lookUp m = some .directory ∨ tree.lookUp m = none :=
    fun _ => htree.lookUp_of_mem_through hdescends husable hresolve
  refine ⟨hway, ?_⟩
  by_cases hmissing : ∃ m ∈ p.through, tree.lookUp m = none
  · exact htree.lookUp_goal_of_missing hdescends hmissing
  · have hthrough : ∀ m ∈ p.through, tree.lookUp m = some .directory :=
      fun m hm => (hway m hm).resolve_right fun hnone => hmissing ⟨m, hm, hnone⟩
    rw [entryAt, resolve_eq_ok_iff.mpr ⟨husable, hthrough, rfl⟩] at h
    dsimp only at h
    split at h
    · next hnone => exact hnone
    · cases h
    · split at h <;> cases h

end FileTree

/-! ## Removing and recreating -/

namespace Files

open FileTree

variable {tree after : FileTree} {p : Path}

/-- **Making directories keeps everything**, even if it fails half way. -/
lemma hasKept_makeAll (p : Path) : Relates HasKept (makeAll p) := relates_makeAll hasKept_put p

/-- Nothing is removed under a path that leads to nothing, and it is a fault unless it is for want
of anything there. -/
lemma run_removeAll_of_entryAt_error {fault : FileFault} (h : tree.entryAt p = .error fault) :
    (removeAll p).run tree = (if fault = .notFound then .ok () else .error fault, tree) := by
  have hat : tree.isDirectory p = false := by rw [FileTree.isDirectory, h]
  have hfile : (removeFile p).run tree = (.error fault, tree) := by
    cases hresolve : tree.resolve p with
    | error fault' =>
      rw [entryAt, hresolve] at h
      cases h
      rw [removeFile, run_ask_error hresolve]
    | ok l => rw [removeFile, run_ask_ok hresolve, run_ask_error h]
  rw [run_removeAll_eq, hat, if_neg Bool.false_ne_true, hfile]
  cases fault <;> rfl

/-- **What a path of names leads to is removed** with everything below it, and nothing else. -/
lemma run_removeAll_of_entryAt_ok (hp : p.IsNormal) {entry : Entry}
    (h : tree.entryAt p = .ok entry) : ∃ middle, (removeAll p).run tree = (.ok (), middle) ∧
      (∀ m, p.goal.Covers m → middle.lookUp m = none) ∧
      ∀ m, m ≠ p.goal → p.goal.isBelow m = false → middle.lookUp m = tree.lookUp m := by
  obtain ⟨hresolve, hfound⟩ := resolve_of_entryAt_ok h
  obtain ⟨husable, hthrough, -⟩ := resolve_eq_ok_iff.mp hresolve
  have hgone : ∀ (cleared : FileTree) (m : Location), p.goal.Covers m →
      (cleared.remove p.goal).lookUp m = none := by
    intro cleared m hm
    rw [lookUp_remove, hp.isGiven_of_covers hm]
    rcases hm with rfl | hbelow
    · simp
    · simp [hbelow]
  have hkept : ∀ (cleared : FileTree) (m : Location), m ≠ p.goal → p.goal.isBelow m = false →
      (cleared.remove p.goal).lookUp m = cleared.lookUp m := by
    intro cleared m hne hbelow
    rw [lookUp_remove, hbelow, beq_eq_false_iff_ne.mpr hne]
    rfl
  cases entry with
  | file content =>
    have hat : tree.isDirectory p = false := by rw [FileTree.isDirectory, h]; rfl
    refine ⟨tree.remove p.goal, run_removeAll_of_run ?_ (Or.inl rfl), hgone tree, hkept tree⟩
    rw [hat, if_neg Bool.false_ne_true, removeFile, run_ask_ok hresolve, run_ask_ok h]
    rfl
  | directory =>
    have hat : tree.isDirectory p = true := by rw [FileTree.isDirectory, h]; rfl
    -- the way to the directory is still there after it has been emptied
    have hway : ∀ m ∈ p.through, (tree.clear p.goal).lookUp m = some .directory := by
      intro m hm
      rw [lookUp_clear, (hp.isBelow_of_mem_through hm).2]
      exact hthrough m hm
    have hagain : (tree.clear p.goal).resolve p = .ok p.goal :=
      resolve_eq_ok_iff.mpr ⟨husable, hway, rfl⟩
    have hdot : endsInDot p = false := beq_eq_false_iff_ne.mpr hp.getLast?_ne_dot
    refine ⟨(tree.clear p.goal).remove p.goal, run_removeAll_of_run ?_ (Or.inl rfl),
      hgone _, fun m hne hbelow => ?_⟩
    · rw [hat, if_pos rfl, removeDirectory, run_ask_ok hresolve]
      show (removeEmpty p).run (tree.clear p.goal) = _
      rw [removeEmpty, run_ask_ok hagain, hdot]
      rfl
    · rw [hkept _ m hne hbelow, lookUp_clear, hbelow]
      rfl

/-- **A directory is reset** under a path of names that leads to something. -/
lemma run_recreate_of_entryAt_ok (hp : p.IsNormal) {entry : Entry}
    (h : tree.entryAt p = .ok entry) :
    ∃ after, (recreate p).run tree = (.ok (), after) ∧ IsReset tree after p.parts := by
  obtain ⟨hresolve, -⟩ := resolve_of_entryAt_ok h
  obtain ⟨husable, hthrough, -⟩ := resolve_eq_ok_iff.mp hresolve
  obtain ⟨middle, hremove, hgone, hkept⟩ := run_removeAll_of_entryAt_ok hp h
  have hfree : middle.IsFree p := by
    intro m hm
    rcases Path.mem_walk_iff.mp hm with hm | rfl
    · obtain ⟨hne, hbelow⟩ := hp.isBelow_of_mem_through hm
      rw [hkept m hne hbelow]
      exact Or.inl (hthrough m hm)
    · exact Or.inr (hgone _ (Or.inl rfl))
  obtain ⟨after, hmake, hmade⟩ := run_makeAll husable hp.getLast?_ne_dot hfree
  exact ⟨after, by rw [recreate, run_bind_ok hremove, hmake],
    hmade.isReset hp (fun m hm => hgone m (Or.inr hm)) hkept⟩

/-- So it is under a usable one that leads to nothing. -/
lemma run_recreate_of_entryAt_notFound (htree : tree.HasParents) (hp : p.IsNormal)
    (husable : p.IsUsable) (h : tree.entryAt p = .error .notFound) :
    ∃ after, (recreate p).run tree = (.ok (), after) ∧ IsReset tree after p.parts := by
  obtain ⟨hway, hnone⟩ := htree.lookUp_of_entryAt_notFound hp husable h
  have hfree : tree.IsFree p := by
    intro m hm
    rcases Path.mem_walk_iff.mp hm with hm | rfl
    · exact hway m hm
    · exact Or.inr hnone
  obtain ⟨after, hmake, hmade⟩ := run_makeAll husable hp.getLast?_ne_dot hfree
  exact ⟨after, by rw [recreate, run_bind_ok (run_removeAll_of_entryAt_error h), hmake],
    hmade.isReset hp (htree.isRooted p.goal hnone) fun _ _ _ => rfl⟩

/-- Where a directory can be reset, it is recreated. -/
lemma run_recreate_of_isAvailable (htree : tree.HasParents) (hp : p.IsNormal)
    (h : tree.IsAvailable p) :
    ∃ after, (recreate p).run tree = (.ok (), after) ∧ IsReset tree after p.parts := by
  rcases h with ⟨entry, hentry⟩ | ⟨hentry, husable⟩
  · exact run_recreate_of_entryAt_ok hp hentry
  · exact run_recreate_of_entryAt_notFound htree hp husable hentry

/-- Elsewhere it is not. -/
lemma isAvailable_of_run_recreate (hp : p.IsNormal)
    (h : (recreate p).run tree = (.ok (), after)) : tree.IsAvailable p := by
  cases hentry : tree.entryAt p with
  | ok entry => exact Or.inl ⟨entry, hentry⟩
  | error fault =>
    by_cases hfault : fault = .notFound
    · exact Or.inr ⟨hfault ▸ hentry,
        (isDirectory_iff.mp (isDirectory_of_run_recreate hp.text_ne_empty h)).1⟩
    · have hremove := run_removeAll_of_entryAt_error hentry
      rw [if_neg hfault] at hremove
      rw [recreate, run_bind_error hremove] at h
      cases h

/-- If it is not recreated, nothing is lost. -/
lemma hasKept_of_run_recreate_error (hp : p.IsNormal) {fault : FileFault}
    (h : (recreate p).run tree = (.error fault, after)) : HasKept tree after := by
  cases hentry : tree.entryAt p with
  | ok entry =>
    obtain ⟨after', hrun, -⟩ := run_recreate_of_entryAt_ok hp hentry
    rw [h] at hrun
    cases hrun
  | error fault' =>
    have hremove := run_removeAll_of_entryAt_error hentry
    by_cases hfault : fault' = .notFound
    · -- nothing has been removed, and what has been made is new
      rw [if_pos hfault] at hremove
      rw [recreate, run_bind_ok hremove] at h
      have hkept := hasKept_makeAll p tree
      rwa [h] at hkept
    · rw [if_neg hfault] at hremove
      rw [recreate, run_bind_error hremove] at h
      cases h
      exact Std.Refl.refl _

/-- **Recreating resets exactly one directory.** A path of names can be recreated if and only if it
leads to something, whatever that is, or is usable and leads to nothing. In the end it leads to an
empty directory, all locations above are directories, and what is neither above nor below is as it
was. Recreating it once more changes nothing. If it cannot be recreated, everything that was there
is still there.

**Proof sketch.** If the path leads to something, it got to its end, and what is removed there is
not on its way (`Path.IsNormal.isBelow_of_mem_through`), so the directory is made at once. If it
leads to nothing, nothing is removed. Making directories only adds to the tree (`hasKept_makeAll`),
and it stops half way only if a name on the way is refused. -/
theorem recreate_resets (htree : tree.HasParents) (hp : p.IsNormal) :
    ((∃ after, (recreate p).run tree = (.ok (), after)) ↔ tree.IsAvailable p) ∧
    (∀ after, (recreate p).run tree = (.ok (), after) →
      after.isDirectory p = true ∧ IsReset tree after p.parts ∧
      ∃ again, (recreate p).run after = (.ok (), again) ∧
        ∀ l, again.lookUp l = after.lookUp l) ∧
    ∀ fault after, (recreate p).run tree = (.error fault, after) → HasKept tree after := by
  refine ⟨⟨fun ⟨after, h⟩ => isAvailable_of_run_recreate hp h, fun h => ?_⟩, fun after h => ?_,
    fun fault after => hasKept_of_run_recreate_error hp⟩
  · obtain ⟨after, hrun, -⟩ := run_recreate_of_isAvailable htree hp h
    exact ⟨after, hrun⟩
  · obtain ⟨after', hrun, hreset⟩ :=
      run_recreate_of_isAvailable htree hp (isAvailable_of_run_recreate hp h)
    rw [h] at hrun
    obtain rfl := (Prod.mk.inj hrun).2
    have hdirectory := isDirectory_of_run_recreate hp.text_ne_empty h
    obtain ⟨again, hagain, hreset'⟩ :=
      run_recreate_of_entryAt_ok hp (entryAt_of_isDirectory hdirectory)
    exact ⟨hdirectory, hreset, again, hagain, hreset.lookUp_eq hreset'⟩

/-- A directory of runs with old logs, and a file beside it. -/
def runsTree : FileTree :=
  .ofList [(["runs"], .directory), (["runs", "a"], .directory), (["runs", "a", "logs"], .directory),
    (["runs", "a", "logs", "old.txt"], .file "x".toUTF8), (["notes.txt"], .file "y".toUTF8)]

/-- The directory of a run is reset, even if separators are repeated. Nothing can be recreated below
a file, which is kept. -/
theorem recreate_resets_runs : runsTree.HasParents ∧
    Path.IsNormal ⟨"runs//a/"⟩ ∧ (∃ after, (recreate ⟨"runs//a/"⟩).run runsTree = (.ok (), after) ∧
      after.lookUp ["runs", "a"] = some .directory ∧
      after.lookUp ["runs", "a", "logs", "old.txt"] = none ∧
      after.lookUp ["notes.txt"] = some (.file "y".toUTF8)) ∧
    Path.IsNormal ⟨"notes.txt/a"⟩ ∧ ∃ fault after,
      (recreate ⟨"notes.txt/a"⟩).run runsTree = (.error fault, after) ∧
      after.lookUp ["notes.txt"] = some (.file "y".toUTF8) := by
  have htree : runsTree.HasParents := by
    apply hasParents_of_entries
    rw [runsTree, FileTree.ofList]
    simp only [List.map_cons, List.map_nil, List.forall_mem_cons]
    exact ⟨Or.inr rfl, Or.inr rfl, Or.inr rfl, Or.inr rfl, Or.inr rfl, by simp⟩
  have hruns : Path.IsNormal ⟨"runs//a/"⟩ := ⟨by decide, by decide, by decide⟩
  have hnotes : Path.IsNormal ⟨"notes.txt/a"⟩ := ⟨by decide, by decide, by decide⟩
  obtain ⟨havailable, hdone, -⟩ := recreate_resets htree hruns
  obtain ⟨hblocked, -, hfailed⟩ := recreate_resets htree hnotes
  refine ⟨htree, hruns, ?_, hnotes, ?_⟩
  · have hentry : runsTree.entryAt ⟨"runs//a/"⟩ = .ok .directory := by rfl
    obtain ⟨after, hrun⟩ := havailable.mpr (Or.inl ⟨_, hentry⟩)
    obtain ⟨-, hreset, -⟩ := hdone after hrun
    have hparts : Path.parts ⟨"runs//a/"⟩ = ["runs", "a"] := by decide
    rw [hparts] at hreset
    exact ⟨after, hrun, hreset.made _ (by decide), hreset.empty _ (by decide),
      hreset.kept _ (by decide) (by decide)⟩
  · have hentry : runsTree.entryAt ⟨"notes.txt/a"⟩ = .error .notADirectory := by rfl
    rcases hrun : (recreate ⟨"notes.txt/a"⟩).run runsTree with ⟨fault | _, after⟩
    · exact ⟨fault, after, rfl, hfailed fault after hrun _ _ (by rfl)⟩
    · rcases hblocked.mp ⟨after, hrun⟩ with ⟨entry, hok⟩ | ⟨hnotFound, -⟩
      · rw [hentry] at hok
        cases hok
      · rw [hentry] at hnotFound
        cases hnotFound

end Files

end Constellation
