import Constellation.Proofs.FileTree.Clearing
set_option autoImplicit false

/-!
# What operations on files preserve

A sequence of operations may fail half way. What it preserves nevertheless is a relation between the
tree before and the tree after it, and it is enough to know this relation for the single changes
that the operations are made of.

## Main definitions

* `Files.Relates` — the tree before an operation is related to the tree after it.

## Main results

* `Files.Relates.bind` — a relation goes on through operations in sequence.
* `Files.relates_readText` — reading changes nothing.
* `Files.relates_makeAll` — making directories is a sequence of single directories.
* `Files.relates_removeAll`, `Files.relates_recreate` — removing is done at the end of the path or
  below.
-/

namespace Constellation

namespace Files

open FileTree

variable {ε α β : Type} {R : FileTree → FileTree → Prop}

/-- The tree before an operation is related to the tree after it, however the operation ends. -/
def Relates (R : FileTree → FileTree → Prop) (action : Files ε α) : Prop :=
  ∀ tree, R tree (action.run tree).2

/-! ## Operations in sequence -/

/-- **A relation goes on through operations in sequence.** -/
lemma Relates.bind [IsTrans FileTree R] {x : Files ε α} {f : α → Files ε β} (hx : Relates R x)
    (hf : ∀ a, Relates R (f a)) : Relates R (x >>= f) := by
  intro tree
  have hfirst := hx tree
  rcases hrun : x.run tree with ⟨fault | a, middle⟩
  · rw [hrun] at hfirst
    rwa [run_bind_error hrun]
  · rw [hrun] at hfirst
    rw [run_bind_ok hrun]
    exact IsTrans.trans _ _ _ hfirst (hf a middle)

/-- Putting faults into context does not matter. -/
lemma Relates.blame {δ : Type} {context : δ → ε} {action : Files δ α} (h : Relates R action) :
    Relates R (blame context action) := by
  intro tree
  rw [run_blame]
  exact h tree

variable [Std.Refl R]

/-- Asking for something changes nothing. -/
lemma relates_ask (f : FileTree → Except ε α) : Relates R (ask f) := by
  intro tree
  rw [run_ask]
  exact Std.Refl.refl _

/-- Neither does refusing. -/
lemma relates_throw (fault : ε) : Relates R (throw fault : Files ε α) :=
  fun _ => Std.Refl.refl _

/-- Nor does giving a result. -/
lemma relates_pure (a : α) : Relates R (pure a : Files ε α) := fun _ => Std.Refl.refl _

/-- Nor does reading a file. -/
lemma relates_readBytes [IsTrans FileTree R] (p : Path) : Relates R (readBytes p) :=
  (relates_ask _).bind fun entry => by
    cases entry with
    | file content => exact relates_pure content
    | directory => exact relates_throw _

/-- Nor does reading a text. -/
lemma relates_readText [IsTrans FileTree R] (p : Path) : Relates R (readText p) := by
  refine (relates_readBytes p).bind fun content => ?_
  split
  · exact relates_pure _
  · exact relates_throw _

/-! ## Making directories -/

/-- A directory is made where nothing is. -/
lemma relates_make (hput : ∀ tree l, tree.lookUp l = none → R tree (tree.put l .directory))
    (p : Path) : Relates R (make p) := by
  intro tree
  cases hresolve : tree.resolve p with
  | error fault =>
    rw [run_make_of_error hresolve]
    exact Std.Refl.refl _
  | ok l =>
    rw [run_make_of_ok hresolve]
    split
    · next hnone => exact hput tree l hnone
    · exact Std.Refl.refl _

/-- So it is if it may be there. -/
lemma relates_makeIfMissing (hput : ∀ tree l, tree.lookUp l = none → R tree (tree.put l .directory))
    (p : Path) : Relates R (makeIfMissing p) := by
  intro tree
  have hmake := relates_make hput p tree
  rw [run_makeIfMissing_eq]
  rcases hresult : (make p).run tree with ⟨fault | _, after⟩
  · dsimp only
    split <;> exact Std.Refl.refl _
  · rw [hresult] at hmake
    exact hmake

/-- So are the directories on the way, of which each is made after those before it. -/
lemma relates_makeAllWithin [IsTrans FileTree R]
    (hput : ∀ tree l, tree.lookUp l = none → R tree (tree.put l .directory)) (fuel : ℕ) (p : Path) :
    Relates R (makeAllWithin fuel p) := by
  induction fuel generalizing p with
  | zero => exact relates_throw _
  | succ fuel ih =>
    intro tree
    by_cases hp : p.text = ""
    · rw [makeAllWithin, if_pos (by simpa using hp)]
      exact Std.Refl.refl _
    · have hmake := relates_make hput p tree
      rw [run_makeAllWithin_succ tree fuel hp]
      rcases hresult : (make p).run tree with ⟨fault | _, after⟩
      · split
        · next heq => cases heq
        · split
          · exact Std.Refl.refl _
          · next parent _ =>
            exact (ih parent).bind (fun _ => relates_makeIfMissing hput p) tree
        · split <;> exact Std.Refl.refl _
      · rw [hresult] at hmake
        exact hmake

/-- **Making a directory with all directories on the way** is making single directories. -/
lemma relates_makeAll [IsTrans FileTree R]
    (hput : ∀ tree l, tree.lookUp l = none → R tree (tree.put l .directory))
    (p : Path) : Relates R (makeAll p) :=
  relates_makeAllWithin hput _ p

/-! ## Removing -/

section Removing

variable {p : Path} (hclear : ∀ tree, R tree (FileTree.clear tree p.goal))
  (hremove : ∀ tree, R tree (FileTree.remove tree p.goal))

include hremove

/-- An empty directory is removed at the end of its path. -/
lemma relates_removeEmpty : Relates R (removeEmpty p) := by
  intro tree
  cases hresolve : tree.resolve p with
  | error fault =>
    rw [removeEmpty, run_ask_error hresolve]
    exact Std.Refl.refl _
  | ok l =>
    obtain ⟨-, -, rfl⟩ := resolve_eq_ok_iff.mp hresolve
    rw [removeEmpty, run_ask_ok hresolve]
    dsimp only
    split
    · exact Std.Refl.refl _
    · exact hremove tree

/-- So is a file. -/
lemma relates_removeFile [IsTrans FileTree R] : Relates R (removeFile p) := by
  intro tree
  cases hresolve : tree.resolve p with
  | error fault =>
    rw [removeFile, run_ask_error hresolve]
    exact Std.Refl.refl _
  | ok l =>
    obtain ⟨-, -, rfl⟩ := resolve_eq_ok_iff.mp hresolve
    rw [removeFile, run_ask_ok hresolve]
    refine (relates_ask _).bind (fun entry => ?_) tree
    cases entry with
    | file content => exact hremove
    | directory => exact relates_throw _

include hclear

/-- A directory is emptied before it is removed. -/
lemma relates_removeDirectory [IsTrans FileTree R] : Relates R (removeDirectory p) := by
  intro tree
  cases hresolve : tree.resolve p with
  | error fault =>
    rw [removeDirectory, run_ask_error hresolve]
    exact Std.Refl.refl _
  | ok l =>
    obtain ⟨-, -, rfl⟩ := resolve_eq_ok_iff.mp hresolve
    rw [removeDirectory, run_ask_ok hresolve]
    have hmodify : Relates R (modify fun tree => tree.clear p.goal : Files FileFault Unit) := hclear
    exact hmodify.bind (fun _ => relates_removeEmpty hremove) tree

/-- **Removing is done at the end of the path or below**, even if it fails half way. -/
lemma relates_removeAll [IsTrans FileTree R] : Relates R (removeAll p) := by
  intro tree
  have hremoval : Relates R (if tree.isDirectory p then removeDirectory p else removeFile p) := by
    split
    · exact relates_removeDirectory hclear hremove
    · exact relates_removeFile hremove
  have hrelated := hremoval tree
  rw [run_removeAll_eq]
  split
  all_goals
    next hresult =>
      rw [hresult] at hrelated
      exact hrelated

/-- **Recreating a directory** is removing it and making directories. -/
lemma relates_recreate [IsTrans FileTree R]
    (hput : ∀ tree l, tree.lookUp l = none → R tree (tree.put l .directory)) :
    Relates R (recreate p) :=
  (relates_removeAll hclear hremove).bind fun _ => relates_makeAll hput p

end Removing

end Files

end Constellation
