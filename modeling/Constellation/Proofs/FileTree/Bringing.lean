import Constellation.Proofs.FileTree.Relating
set_option autoImplicit false

/-!
# Operations that bring or lose no file

Directories are made and things are removed before a file is written. None of this brings a file, so
a file that is found afterwards has been there all the time, and none of it loses a file but those
at and below what is removed. Both hold however the paths run and whether the operations succeed or
not.

## Main definitions

* `Files.BringsNoFile` — each file that is there after an operation was there before.
* `FileTree.KeepsFiles` — each file of a tree is still there, apart from some locations.

## Main results

* `Files.bringsNoFile_recreate` — recreating a directory brings no file.
* `Files.keepsFiles_recreate` — it loses no file outside of the directory.
* `Files.keepsFiles_makeAll` — making directories loses no file at all.
-/

namespace Constellation

namespace FileTree

variable {gone : Location → Prop} {before middle after : FileTree}

/-- Each file of the later tree is in the earlier one. -/
def BringsNone (before after : FileTree) : Prop :=
  ∀ l content, after.lookUp l = some (.file content) → before.lookUp l = some (.file content)

instance : Std.Refl BringsNone := ⟨fun _ _ _ h => h⟩

instance : IsTrans FileTree BringsNone :=
  ⟨fun _ _ _ h h' l content hfile => h l content (h' l content hfile)⟩

/-- Each file of the earlier tree is in the later one with the same content, apart from those at
some locations. -/
def KeepsFiles (gone : Location → Prop) (before after : FileTree) : Prop :=
  ∀ l content, ¬ gone l → before.lookUp l = some (.file content) →
    after.lookUp l = some (.file content)

instance : Std.Refl (KeepsFiles gone) := ⟨fun _ _ _ _ h => h⟩

instance : IsTrans FileTree (KeepsFiles gone) :=
  ⟨fun _ _ _ h h' l content hl hfile => h' l content hl (h l content hl hfile)⟩

variable (tree : FileTree) (l : Location)

/-- Removing something brings no file. -/
lemma bringsNone_remove : BringsNone tree (tree.remove l) := by
  intro m content h
  rw [lookUp_remove] at h
  split at h
  · cases h
  · exact h

/-- Removing all that is below something brings no file. -/
lemma bringsNone_clear : BringsNone tree (tree.clear l) := by
  intro m content h
  rw [lookUp_clear] at h
  split at h
  · cases h
  · exact h

/-- Making a directory brings no file. -/
lemma bringsNone_put (hnone : tree.lookUp l = none) : BringsNone tree (tree.put l .directory) := by
  intro m content h
  by_cases hm : m = l
  · rw [hm, lookUp_put_self tree _ (isGiven_of_lookUp_eq_none hnone)] at h
    cases h
  · rwa [lookUp_put_of_ne tree _ hm] at h

/-- Making a directory where nothing is loses no file. -/
lemma keepsFiles_put (hnone : tree.lookUp l = none) :
    KeepsFiles gone tree (tree.put l .directory) := by
  intro m content _ h
  have hm : m ≠ l := by
    rintro rfl
    rw [hnone] at h
    cases h
  rwa [lookUp_put_of_ne tree _ hm]

/-- Removing something loses no file but those at and below it. -/
lemma keepsFiles_remove (hgone : ∀ m, l.Covers m → gone m) :
    KeepsFiles gone tree (tree.remove l) := by
  intro m content hm h
  have hout : m ≠ l ∧ l.isBelow m = false := by
    rw [ne_eq, ← Bool.not_eq_true, ← not_or]
    exact fun hin => hm (hgone m hin)
  rw [lookUp_remove, hout.2, beq_eq_false_iff_ne.mpr hout.1]
  exact h

/-- Removing all that is below something loses no other file. -/
lemma keepsFiles_clear (hgone : ∀ m, l.isBelow m = true → gone m) :
    KeepsFiles gone tree (tree.clear l) := by
  intro m content hm h
  have hout : l.isBelow m = false := Bool.eq_false_iff.mpr fun hin => hm (hgone m hin)
  rw [lookUp_clear, hout]
  exact h

end FileTree

namespace Files

open FileTree

variable {ε α : Type} {gone : Location → Prop}

/-- Each file that is there after an operation was there before, with the same content. -/
def BringsNoFile (action : Files ε α) : Prop :=
  ∀ tree l content, (action.run tree).2.lookUp l = some (.file content) →
    tree.lookUp l = some (.file content)

/-- **Recreating a directory brings no file.** -/
lemma bringsNoFile_recreate (p : Path) : BringsNoFile (recreate p) :=
  relates_recreate (R := BringsNone) (fun tree => bringsNone_clear tree p.goal)
    (fun tree => bringsNone_remove tree p.goal) bringsNone_put

/-- **Making directories loses no file.** -/
lemma keepsFiles_makeAll (p : Path) : Relates (KeepsFiles gone) (makeAll p) :=
  relates_makeAll keepsFiles_put p

/-- **Recreating a directory loses no file** but those at and below the end of its path. -/
lemma keepsFiles_recreate (p : Path) (hgone : ∀ l, p.goal.Covers l → gone l) :
    Relates (KeepsFiles gone) (recreate p) :=
  relates_recreate (fun tree => keepsFiles_clear tree p.goal fun l hl => hgone l (Or.inr hl))
    (fun tree => keepsFiles_remove tree p.goal hgone) keepsFiles_put

end Files

end Constellation
