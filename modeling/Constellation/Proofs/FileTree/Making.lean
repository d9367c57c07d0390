import Constellation.FileTree.Files
import Constellation.Proofs.FileTree.Walking
set_option autoImplicit false

/-!
# Making directories

A directory is made together with all directories on its way. A path may go back and forth between
locations, so it is its walk that is there in the end, and nothing else has changed.

## Main definitions

* `FileTree.IsFree` — nothing but directories is on the walk of a path.
* `FileTree.HasMade` — the walk of a path has been made, and nothing else.

## Main results

* `Files.run_bind_ok`, `Files.run_bind_eq_ok` — file operations in sequence.
* `FileTree.isDirectory_iff` — a path leads to a directory if it walks through directories only.
* `Files.run_makeIfMissing` — a single directory is made unless it is there.
* `Files.isDirectory_of_run_makeAll` — directories that are made successfully are there.
* `Files.run_makeAll` — after all directories have been made, the walk of the path is there.
-/

namespace Constellation

/-! ## Operations in sequence -/

namespace Files

variable {ε α β : Type} {tree tree' : FileTree}

/-- **After an operation that succeeds the next one goes on** with its result. -/
lemma run_bind_ok {x : Files ε α} {f : α → Files ε β} {a : α} (h : x.run tree = (.ok a, tree')) :
    (x >>= f).run tree = (f a).run tree' := by
  show ExceptT.bindCont f (x.run tree).1 (x.run tree).2 = _
  rw [h]
  rfl

/-- With an operation that is refused all is refused. -/
lemma run_bind_error {x : Files ε α} {f : α → Files ε β} {fault : ε}
    (h : x.run tree = (.error fault, tree')) : (x >>= f).run tree = (.error fault, tree') := by
  show ExceptT.bindCont f (x.run tree).1 (x.run tree).2 = _
  rw [h]
  rfl

/-- **Operations in sequence succeed** only if each of them does. -/
lemma run_bind_eq_ok {x : Files ε α} {f : α → Files ε β} {b : β}
    (h : (x >>= f).run tree = (.ok b, tree')) :
    ∃ a middle, x.run tree = (.ok a, middle) ∧ (f a).run middle = (.ok b, tree') := by
  rcases hx : x.run tree with ⟨fault | a, middle⟩
  · rw [run_bind_error hx] at h
    cases h
  · rw [run_bind_ok hx] at h
    exact ⟨a, middle, rfl, h⟩

/-- A result comes with a tree. -/
lemma exists_run_of_fst {x : Files ε α} {outcome : Except ε α} (h : (x.run tree).1 = outcome) :
    ∃ tree', x.run tree = (outcome, tree') :=
  ⟨(x.run tree).2, Prod.ext h rfl⟩

/-- Looking at the tree does not change it. -/
lemma run_get : (get : Files ε FileTree).run tree = (.ok tree, tree) := rfl

/-- Asking for something does not change the tree. -/
lemma run_ask (f : FileTree → Except ε α) : (ask f).run tree = (f tree, tree) := by
  rw [ask, run_bind_ok run_get]
  cases f tree <;> rfl

/-- What is answered is gone on with. -/
lemma run_ask_ok {f : FileTree → Except ε α} {g : α → Files ε β} {a : α} (h : f tree = .ok a) :
    (ask f >>= g).run tree = (g a).run tree :=
  run_bind_ok (by rw [run_ask, h])

/-- A question without an answer is refused. -/
lemma run_ask_error {f : FileTree → Except ε α} {g : α → Files ε β} {fault : ε}
    (h : f tree = .error fault) : (ask f >>= g).run tree = (.error fault, tree) :=
  run_bind_error (by rw [run_ask, h])

/-- The same is done in whatever context the faults are put. -/
lemma run_blame {δ : Type} (context : δ → ε) (action : Files δ α) :
    (blame context action).run tree =
      ((action.run tree).1.mapError context, (action.run tree).2) := by
  rcases haction : action tree with ⟨fault | a, after⟩ <;>
  · simp only [blame, ExceptT.run, ExceptT.mk, bind, StateT.bind, haction]
    rfl

end Files

/-! ## Trees with more directories -/

namespace FileTree

/-- Nothing but directories is on the walk of a path. -/
def IsFree (tree : FileTree) (p : Path) : Prop :=
  ∀ m ∈ p.walk, tree.lookUp m = some .directory ∨ tree.lookUp m = none

/-- The walk of a path has been made, and nothing else. -/
structure HasMade (before after : FileTree) (p : Path) : Prop where
  /-- There are directories on the walk. -/
  made : ∀ m ∈ p.walk, after.lookUp m = some .directory
  /-- All else is as before. -/
  kept : ∀ m, m ∉ p.walk → after.lookUp m = before.lookUp m

variable {tree before after : FileTree} {p q : Path} {l : Location}

/-- A location that holds nothing is not given. -/
lemma isGiven_of_lookUp_eq_none (h : tree.lookUp l = none) : l.isGiven = false := by
  by_contra hgiven
  rw [lookUp, if_pos (Bool.of_not_eq_false hgiven)] at h
  cases h

/-- **A path leads to a directory** if and only if it walks through directories only. -/
lemma isDirectory_iff : tree.isDirectory p = true ↔
    p.IsUsable ∧ ∀ m ∈ p.walk, tree.lookUp m = some .directory := by
  constructor
  · intro h
    have hentry := entryAt_of_isDirectory h
    cases hresolve : tree.resolve p with
    | error fault => simp [entryAt, hresolve] at hentry
    | ok l =>
      have hl := lookUp_of_entryAt hentry (follow_of_resolve hresolve)
      obtain ⟨hp, hthrough, rfl⟩ := resolve_eq_ok_iff.mp hresolve
      refine ⟨hp, fun m hm => ?_⟩
      rcases Path.mem_walk_iff.mp hm with hm | rfl
      · exact hthrough m hm
      · exact hl
  · rintro ⟨hp, hwalk⟩
    have hresolve : tree.resolve p = .ok p.goal := resolve_eq_ok_iff.mpr
      ⟨hp, fun m hm => hwalk m (Path.mem_walk_iff.mpr (Or.inl hm)), rfl⟩
    have hgoal := hwalk p.goal (Path.mem_walk_iff.mpr (Or.inr rfl))
    simp [isDirectory, entryAt, hresolve, hgoal, Entry.isDirectory]

/-- Where the whole walk is there, it has been made. -/
lemma hasMade_self (h : ∀ m ∈ p.walk, tree.lookUp m = some .directory) : HasMade tree tree p :=
  ⟨h, fun _ _ => rfl⟩

/-- After the way of a path has been made, the location at its end is made. -/
lemma HasMade.put (hmade : ∀ m ∈ p.through, after.lookUp m = some .directory)
    (hkept : ∀ m, m ∉ p.walk → after.lookUp m = before.lookUp m)
    (hnone : after.lookUp p.goal = none) : HasMade before (after.put p.goal .directory) p where
  made := by
    intro m hm
    by_cases hgoal : m = p.goal
    · rw [hgoal]
      exact lookUp_put_self after .directory (isGiven_of_lookUp_eq_none hnone)
    · rw [lookUp_put_of_ne after .directory hgoal]
      exact hmade m ((Path.mem_walk_iff.mp hm).resolve_right hgoal)
  kept := by
    intro m hm
    have hgoal : m ≠ p.goal := fun heq => hm (Path.mem_walk_iff.mpr (Or.inr heq))
    rw [lookUp_put_of_ne after .directory hgoal, hkept m hm]

end FileTree

/-! ## Directories -/

namespace Files

open FileTree

variable {tree tree' : FileTree} {p : Path}

/-- No directory is made under a path that leads nowhere. -/
lemma run_make_of_error {fault : FileFault} (h : tree.resolve p = .error fault) :
    (make p).run tree = (.error fault, tree) :=
  run_ask_error h

/-- A directory is made where nothing is, and nowhere else. -/
lemma run_make_of_ok {l : Location} (h : tree.resolve p = .ok l) : (make p).run tree =
    if tree.lookUp l = none then (.ok (), tree.put l .directory)
    else (.error .alreadyExists, tree) := by
  rw [make, run_ask_ok h, run_bind_ok run_get]
  cases tree.lookUp l <;> rfl

/-- If a directory cannot be made, one that is there will do. -/
lemma run_makeIfMissing_eq (tree : FileTree) (p : Path) : (makeIfMissing p).run tree =
    (match (make p).run tree with
      | (.ok (), after) => set after
      | (.error fault, _) => if tree.isDirectory p then pure () else throw fault :
        Files FileFault Unit).run tree := rfl

/-- The parent is made only after the directory itself could not be made for want of it. -/
lemma run_makeAllWithin_succ (tree : FileTree) (fuel : ℕ) (hp : p.text ≠ "") :
    (makeAllWithin (fuel + 1) p).run tree = (match (make p).run tree with
      | (.ok (), after) => set after
      | (.error .notFound, _) =>
        match p.parent? with
        | none => throw .noParent
        | some parent => do
          makeAllWithin fuel parent
          makeIfMissing p
      | (.error fault, _) => if tree.isDirectory p then pure () else throw fault :
        Files FileFault Unit).run tree := by
  rw [makeAllWithin, if_neg (by simpa using hp)]
  rfl

/-- **A directory is made unless it is there.** -/
lemma run_makeIfMissing (hp : p.IsUsable)
    (hthrough : ∀ m ∈ p.through, tree.lookUp m = some .directory)
    (hgoal : tree.lookUp p.goal = some .directory ∨ tree.lookUp p.goal = none) :
    ∃ tree', (makeIfMissing p).run tree = (.ok (), tree') ∧ HasMade tree tree' p := by
  have hresolve : tree.resolve p = .ok p.goal := resolve_eq_ok_iff.mpr ⟨hp, hthrough, rfl⟩
  rw [run_makeIfMissing_eq, run_make_of_ok hresolve]
  rcases hgoal with hdirectory | hnone
  · have hwalk : ∀ m ∈ p.walk, tree.lookUp m = some .directory := by
      intro m hm
      rcases Path.mem_walk_iff.mp hm with hm | rfl
      · exact hthrough m hm
      · exact hdirectory
    rw [if_neg (by simp [hdirectory])]
    dsimp only
    rw [if_pos (isDirectory_iff.mpr ⟨hp, hwalk⟩)]
    exact ⟨tree, rfl, hasMade_self hwalk⟩
  · rw [if_pos hnone]
    exact ⟨tree.put p.goal .directory, rfl, HasMade.put hthrough (fun _ _ => rfl) hnone⟩

/-- A directory that is made is there. -/
lemma isDirectory_of_run_make (h : (make p).run tree = (.ok (), tree')) :
    tree'.isDirectory p = true := by
  cases hresolve : tree.resolve p with
  | error fault =>
    rw [run_make_of_error hresolve] at h
    cases h
  | ok l =>
    obtain ⟨hp, hthrough, rfl⟩ := resolve_eq_ok_iff.mp hresolve
    rw [run_make_of_ok hresolve] at h
    split at h
    · next hnone =>
      cases h
      exact isDirectory_iff.mpr ⟨hp, (HasMade.put hthrough (fun _ _ => rfl) hnone).made⟩
    · cases h

/-- So is one that is made if it is missing. -/
lemma isDirectory_of_run_makeIfMissing (h : (makeIfMissing p).run tree = (.ok (), tree')) :
    tree'.isDirectory p = true := by
  rw [run_makeIfMissing_eq] at h
  rcases hmake : (make p).run tree with ⟨fault | _, after⟩
  · rw [hmake] at h
    dsimp only at h
    split at h
    · next hat =>
      cases h
      exact hat
    · cases h
  · rw [hmake] at h
    cases h
    exact isDirectory_of_run_make hmake

/-- **After all directories have been made successfully**, the path leads to a directory. -/
lemma isDirectory_of_run_makeAll (hp : p.text ≠ "") (h : (makeAll p).run tree = (.ok (), tree')) :
    tree'.isDirectory p = true := by
  have hrun := run_makeAllWithin_succ tree p.chars.length hp
  rw [makeAll, hrun] at h
  rcases hmake : (make p).run tree with ⟨fault | _, after⟩
  · rw [hmake] at h
    split at h
    · next heq => cases heq
    · split at h
      · cases h
      · obtain ⟨_, middle, -, hlast⟩ := run_bind_eq_ok h
        exact isDirectory_of_run_makeIfMissing hlast
    · split at h
      · next hat =>
        cases h
        exact hat
      · cases h
  · rw [hmake] at h
    cases h
    exact isDirectory_of_run_make hmake

/-- Directories on the way are made as long as the fuel lasts. -/
lemma run_makeAllWithin {fuel : Nat} (hp : p.IsUsable) (hlast : p.names.getLast? ≠ some ['.'])
    (hfree : tree.IsFree p) (hfuel : p.names.length < fuel) :
    ∃ tree', (makeAllWithin fuel p).run tree = (.ok (), tree') ∧ HasMade tree tree' p := by
  induction fuel generalizing p with
  | zero => omega
  | succ fuel ih =>
    have hrun := run_makeAllWithin_succ tree fuel hp.nonempty
    by_cases hmissing : ∃ m ∈ p.through, tree.lookUp m = none
    · -- the way is made first, and it is the walk of the parent
      have hway : ∀ m ∈ p.through, tree.lookUp m = some .directory ∨ tree.lookUp m = none :=
        fun m hm => hfree m (Path.mem_walk_iff.mpr (Or.inl hm))
      obtain ⟨q, hparent, hq, hqlast, hshorter, hwalk⟩ :=
        Path.exists_parent_of_leaves hp hlast (by
          obtain ⟨m, hm, hnone⟩ := hmissing
          refine ⟨m, hm, ?_⟩
          rintro rfl
          rw [lookUp_origin] at hnone
          cases hnone)
      have hqfree : tree.IsFree q := fun m hm => hway m ((hwalk m).mpr hm)
      obtain ⟨middle, hmiddle, hmade⟩ := ih hq hqlast hqfree (by omega)
      have hgoal : middle.lookUp p.goal = some .directory ∨ middle.lookUp p.goal = none := by
        by_cases hgoal : p.goal ∈ q.walk
        · exact Or.inl (hmade.made _ hgoal)
        · rw [hmade.kept _ hgoal]
          exact hfree _ (Path.mem_walk_iff.mpr (Or.inr rfl))
      obtain ⟨after, hafter, hlatter⟩ := run_makeIfMissing hp
        (fun m hm => hmade.made m ((hwalk m).mp hm)) hgoal
      refine ⟨after, ?_, hlatter.made, ?_⟩
      · rw [hrun, run_make_of_error (resolve_of_missing hp hway hmissing), hparent]
        exact (run_bind_ok hmiddle).trans hafter
      · intro m hm
        rw [hlatter.kept m hm, hmade.kept m fun hmq =>
          hm (Path.mem_walk_iff.mpr (Or.inl ((hwalk m).mpr hmq)))]
    · have hthrough : ∀ m ∈ p.through, tree.lookUp m = some .directory := by
        intro m hm
        exact (hfree m (Path.mem_walk_iff.mpr (Or.inl hm))).resolve_right
          fun hnone => hmissing ⟨m, hm, hnone⟩
      have hgoal := hfree p.goal (Path.mem_walk_iff.mpr (Or.inr rfl))
      have hresolve : tree.resolve p = .ok p.goal := resolve_eq_ok_iff.mpr ⟨hp, hthrough, rfl⟩
      have hsame : (makeAllWithin (fuel + 1) p).run tree = (makeIfMissing p).run tree := by
        rw [hrun, run_makeIfMissing_eq, run_make_of_ok hresolve]
        split_ifs <;> rfl
      rw [hsame]
      exact run_makeIfMissing hp hthrough hgoal

/-- Names with separators between them are made of as many characters at least. -/
lemma length_le_intercalate {names : List (List Char)} (h : ∀ name ∈ names, name ≠ []) :
    names.length ≤ (['/'].intercalate names).length := by
  induction names with
  | nil => exact Nat.zero_le _
  | cons name names ih =>
    have hname := List.length_pos_iff.mpr (h name List.mem_cons_self)
    have hnames := ih fun other hother => h other (List.mem_cons_of_mem name hother)
    cases names with
    | nil => simpa using Nat.succ_le_of_lt hname
    | cons next rest =>
      simp only [List.intercalate_cons_cons, List.length_append, List.length_cons] at hnames ⊢
      omega

/-- A path has no more names than characters. -/
lemma length_names_le (p : Path) : p.names.length ≤ p.chars.length := by
  have hsublist := Path.intercalate_sublist ['/']
    (List.filter_sublist (p := fun name : List Char => !name.isEmpty) (l := p.chars.splitOn '/'))
  rw [List.intercalate_splitOn] at hsublist
  exact Nat.le_trans (length_le_intercalate fun name hname => Path.ne_nil_of_mem_names hname)
    hsublist.length_le

/-- **A directory is made with all directories on the way to it**, and nothing else is. -/
lemma run_makeAll (hp : p.IsUsable) (hlast : p.names.getLast? ≠ some ['.'])
    (hfree : tree.IsFree p) :
    ∃ tree', (makeAll p).run tree = (.ok (), tree') ∧ HasMade tree tree' p :=
  run_makeAllWithin hp hlast hfree (Nat.lt_succ_of_le (length_names_le p))

end Files

end Constellation
