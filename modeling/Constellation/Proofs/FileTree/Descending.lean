import Mathlib.Data.List.Induction
import Constellation.Proofs.FileTree.Clearing
set_option autoImplicit false

/-!
# Paths that go down

What is removed under a path may be missed if the path gets stuck before its end although something
is there. This cannot happen to a path that only goes down from where it may get stuck. A directory
that is recreated under such a path is empty, but for its own walk, whenever this succeeds.

## Main definitions

* `Path.IsDirect` — a path does not go up after a name.
* `FileTree.Descends` — a path only goes down from where it may get stuck.

## Main results

* `Location.mem_walk_of_append` — a walk goes through the parents of what it goes through.
* `Path.IsDirect.descends`, `FileTree.descends_of_forall`, `FileTree.HasParents.descends_join` —
  which paths go down.
* `Path.IsDirect.exists_goal_join_eq` — what such a path goes through after another one.
* `FileTree.HasParents.isClearable` — such a path can be cleared unless it goes through a file.
* `FileTree.HasRecreated.hasParents` — recreating leaves nothing hanging in the air.
* `Files.run_recreate_of_missing` — nothing is removed where the way to it is missing.
* `Files.hasRecreated_of_run` — a directory that is recreated successfully is empty, but for its
  own walk.
-/

namespace Constellation

namespace Location

variable {l m : Location} {names : List String}

/-! ## Walks that go down -/

/-- Names that do not go up lead to locations below. -/
lemma exists_append_of_mem_walk (h : ".." ∉ names) (hm : m ∈ walk l names) :
    ∃ rest, m = l ++ rest := by
  induction names generalizing l with
  | nil => exact ⟨[], by simpa [walk, through] using hm⟩
  | cons name names ih =>
    rw [List.mem_cons, not_or] at h
    rw [walk_cons, List.mem_cons] at hm
    rcases hm with rfl | hm
    · exact ⟨[], (List.append_nil m).symm⟩
    · obtain ⟨rest, rfl⟩ := ih h.2 hm
      rw [step, beq_eq_false_iff_ne.mpr (Ne.symm h.1)]
      split
      · exact ⟨rest, rfl⟩
      · exact ⟨name :: rest, List.append_assoc _ _ _⟩

/-- Each location on their walk is below those before it. -/
lemma pairwise_walk (h : ".." ∉ names) (l : Location) :
    (walk l names).Pairwise fun n m => ∃ rest, m = n ++ rest := by
  induction names generalizing l with
  | nil => exact List.pairwise_singleton _ _
  | cons name names ih =>
    have hnames : ".." ∉ names := fun hmem => h (List.mem_cons_of_mem name hmem)
    rw [walk_cons, List.pairwise_cons]
    refine ⟨fun m hm => exists_append_of_mem_walk h ?_, ih hnames _⟩
    rw [walk_cons]
    exact List.mem_cons_of_mem l hm

/-- Dots lead from a given location to a given one. -/
lemma isGiven_step {name : String} (hl : l.isGiven = true) (h : FileTree.isDots name = true) :
    (l.step name).isGiven = true := by
  rw [FileTree.isDots, Bool.or_eq_true] at h
  rw [step]
  cases hdot : name == "." with
  | true => exact hl
  | false =>
    rw [hdot, or_iff_right Bool.false_ne_true] at h
    rw [h, if_neg Bool.false_ne_true, if_pos rfl, parent]
    rw [isGiven, Bool.or_eq_true] at hl
    split
    · next hroot => rw [isGiven, hroot, Bool.or_true]
    · next hroot =>
      have hup := hl.resolve_right hroot
      rw [if_pos hup, isGiven, List.all_append, hup]
      rfl

/-- A location that is not given is in the one that two dots lead to. -/
lemma exists_eq_step_append (h : l.isGiven = false) : ∃ name, l = l.step ".." ++ [name] := by
  rw [isGiven, Bool.or_eq_false_iff] at h
  have hstep : l.step ".." = l.dropLast := by
    have hparent : l.step ".." = l.parent := rfl
    rw [hparent, parent, h.1, h.2]
    rfl
  have hne : l ≠ [] := by
    rintro rfl
    cases h.1
  exact ⟨l.getLast hne, by rw [hstep, List.dropLast_concat_getLast]⟩

/-- If all given locations have a property, and each location whose entries have it, then dots keep
it. -/
lemma step_of_isDots {D : Location → Prop} (hgiven : ∀ m, m.isGiven = true → D m)
    (hparent : ∀ m name, D (m ++ [name]) → D m) {name : String} (hl : D l)
    (h : FileTree.isDots name = true) : D (l.step name) := by
  cases hl' : l.isGiven with
  | true => exact hgiven _ (isGiven_step hl' h)
  | false =>
    rw [FileTree.isDots, Bool.or_eq_true, beq_iff_eq, beq_iff_eq] at h
    rcases h with rfl | rfl
    · exact hl
    · obtain ⟨next, heq⟩ := exists_eq_step_append hl'
      rw [heq] at hl
      exact hparent _ next hl

/-- If names go up at their beginning only, each location on their walk has such a property or is
above those after it. -/
lemma pairwise_walk_of_dots {D : Location → Prop} (hgiven : ∀ m, m.isGiven = true → D m)
    (hparent : ∀ m name, D (m ++ [name]) → D m) (h : ".." ∉ names.dropWhile FileTree.isDots)
    (hl : D l) : (walk l names).Pairwise fun n m => D n ∨ ∃ rest, m = n ++ rest := by
  induction names generalizing l with
  | nil => exact List.pairwise_singleton _ _
  | cons name names ih =>
    cases hname : FileTree.isDots name with
    | true =>
      rw [List.dropWhile_cons_of_pos hname] at h
      rw [walk_cons, List.pairwise_cons]
      exact ⟨fun _ _ => Or.inl hl, ih h (step_of_isDots hgiven hparent hl hname)⟩
    | false =>
      rw [List.dropWhile_cons_of_neg (by simpa using hname)] at h
      exact (pairwise_walk h l).imp Or.inr

/-! ## Parents on a walk -/

/-- **A walk that starts at a given location goes through the parents** of the locations that it
goes through, unless they are given.

**Proof sketch.** Induction from the end of the names. The last one leads down from a location on
the walk, or up from one below, and then the parent of that one is on the walk. -/
lemma mem_walk_of_append (hl : l.isGiven = true) {name : String}
    (h : m ++ [name] ∈ walk l names) : m ∈ walk l names ∨ m.isGiven = true := by
  induction names using List.reverseRecOn generalizing m name with
  | nil =>
    obtain rfl : m ++ [name] = l := List.mem_singleton.mp h
    exact Or.inr (isGiven_of_append hl)
  | append_singleton names last ih =>
    have hwalk : walk l (names ++ [last]) = walk l names ++ [(names.foldl step l).step last] := by
      rw [walk, through_concat, List.foldl_append]
      rfl
    have hend : names.foldl step l ∈ walk l names := List.mem_append_right _ List.mem_cons_self
    rw [hwalk, List.mem_append, List.mem_singleton] at h ⊢
    have hbefore : m ∈ walk l names ∨ m.isGiven = true := by
      rcases h with h | h
      · exact ih h
      · rw [step] at h
        split at h
        · exact ih (h ▸ hend)
        · split at h
          · cases hgiven : (names.foldl step l).isGiven with
            | true =>
              have hup : (names.foldl step l).parent.isGiven = true :=
                isGiven_step hgiven (by decide : FileTree.isDots ".." = true)
              exact Or.inr (isGiven_of_append (h ▸ hup))
            | false =>
              -- what the names led to before is two names below
              obtain ⟨next, heq⟩ := exists_eq_step_append hgiven
              have hparent : (names.foldl step l).step ".." = m ++ [name] := h.symm
              rw [heq, hparent] at hend
              rcases ih hend with hmem | hgiven
              · exact ih hmem
              · exact Or.inr (isGiven_of_append hgiven)
          · exact Or.inl ((List.append_inj' h rfl).1 ▸ hend)
    exact hbefore.imp_left Or.inl

end Location

/-! ## Paths -/

/-- A path does not go up after a name. -/
def Path.IsDirect (p : Path) : Prop := ".." ∉ p.parts.dropWhile FileTree.isDots

instance : DecidablePred Path.IsDirect := fun p =>
  inferInstanceAs (Decidable (".." ∉ p.parts.dropWhile FileTree.isDots))

/-- A path only goes down from where it may get stuck. -/
def FileTree.Descends (tree : FileTree) (p : Path) : Prop :=
  p.walk.Pairwise fun n m => tree.lookUp n = some .directory ∨ ∃ rest, m = n ++ rest

/-- A path starts at a given location. -/
lemma FileTree.isGiven_origin (p : Path) : (origin p).isGiven = true := by
  rw [origin]
  split <;> decide

/-- What a path that does not go up after a name goes through is given or above what comes after
it. -/
lemma Path.IsDirect.pairwise_walk {p : Path} (h : p.IsDirect) :
    p.walk.Pairwise fun n m => n.isGiven = true ∨ ∃ rest, m = n ++ rest :=
  Location.pairwise_walk_of_dots (fun _ => id) (fun _ _ => Location.isGiven_of_append) h
    (FileTree.isGiven_origin p)

/-- So it only goes down from where it may get stuck. -/
lemma Path.IsDirect.descends {p : Path} (h : p.IsDirect) (tree : FileTree) : tree.Descends p :=
  h.pairwise_walk.imp (Or.imp_left fun hgiven => FileTree.lookUp_of_isGiven hgiven tree)

/-- And all else that it goes through is above its end. -/
lemma Path.IsDirect.exists_goal_eq {p : Path} (h : p.IsDirect) {l : Location} (hl : l ∈ p.walk) :
    l.isGiven = true ∨ ∃ rest, p.goal = l ++ rest := by
  rcases Path.mem_walk_iff.mp hl with hl | rfl
  · exact (List.pairwise_append.mp h.pairwise_walk).2.2 l hl p.goal List.mem_cons_self
  · exact Or.inr ⟨[], (List.append_nil _).symm⟩

/-- A name may be put after such a path. -/
lemma Path.IsDirect.join {p : Path} (h : p.IsDirect) {name : String}
    (hname : FileTree.IsPlain name) : (p.join ⟨name⟩).IsDirect := by
  have hup : ".." ≠ name := by
    rintro rfl
    exact absurd hname.dots (by decide)
  rw [IsDirect] at h ⊢
  rw [parts_join hname, List.dropWhile_append]
  split
  · rw [List.dropWhile_cons_of_neg (by rw [hname.dots]; exact Bool.false_ne_true)]
    simpa using hup
  · simpa [hup] using h

namespace Path

variable {p q : Path}

/-- A joined path goes on from the end of its first part. -/
lemma goal_walk_join (hq : q.isAbsolute = false) :
    (p.join q).goal = q.parts.foldl Location.step p.goal ∧
      (p.join q).walk = p.through ++ Location.walk p.goal q.parts := by
  have hparts : (p.join q).parts = p.parts ++ q.parts := by
    rw [parts, names_join p hq, List.map_append]
    rfl
  have horigin : FileTree.origin (p.join q) = FileTree.origin p := by
    rw [FileTree.origin, isAbsolute_join p hq]
    rfl
  have hgoal : (p.join q).goal = q.parts.foldl Location.step p.goal := by
    rw [goal, hparts, horigin, List.foldl_append]
    rfl
  refine ⟨hgoal, ?_⟩
  rw [walk, Location.walk, ← goal, hgoal, hparts, horigin, Location.through_append,
    List.append_assoc]
  rfl

/-- If its second part does not go up after a name, it only goes through what its first part goes
through, what is given, and what is above its end. -/
lemma IsDirect.exists_goal_join_eq (hq : q.IsDirect) {l : Location} (hl : l ∈ (p.join q).walk) :
    l ∈ p.walk ∨ l.isGiven = true ∨ ∃ rest, (p.join q).goal = l ++ rest := by
  cases habsolute : q.isAbsolute with
  | true =>
    rw [join_absolute p habsolute] at hl ⊢
    exact Or.inr (hq.exists_goal_eq hl)
  | false =>
    obtain ⟨hgoal, hwalk⟩ := goal_walk_join (p := p) habsolute
    have hend : p.goal ∈ p.walk := mem_walk_iff.mpr (Or.inr rfl)
    have hpairwise := Location.pairwise_walk_of_dots (D := fun m => m ∈ p.walk ∨ m.isGiven = true)
      (fun _ => Or.inr) (fun m name hm => hm.elim
        (Location.mem_walk_of_append (FileTree.isGiven_origin p))
        (fun h => Or.inr (Location.isGiven_of_append h))) hq (Or.inl hend)
    rw [hwalk, List.mem_append, Location.walk, List.mem_append, List.mem_singleton] at hl
    rcases hl with hl | hl | rfl
    · exact Or.inl (mem_walk_iff.mpr (Or.inl hl))
    · rw [hgoal, ← or_assoc]
      exact (List.pairwise_append.mp hpairwise).2.2 l hl _ List.mem_cons_self
    · exact Or.inr (Or.inr ⟨[], by rw [hgoal, List.append_nil]⟩)

end Path

namespace FileTree

variable {tree before after : FileTree} {p : Path} {name : String}

/-- A path that goes through directories does not get stuck. -/
lemma descends_of_forall (h : ∀ l ∈ p.walk, tree.lookUp l = some .directory) : tree.Descends p :=
  List.pairwise_of_forall_mem_list fun n hn _ _ => Or.inl (h n hn)

/-- A path that goes on from a directory that is there, and does not go up after a name from there,
only goes down from where it may get stuck. -/
lemma HasParents.descends_join (h : tree.HasParents) (hp : tree.isDirectory p = true) {q : Path}
    (hq : q.IsDirect) : tree.Descends (p.join q) := by
  have hwalk := (isDirectory_iff.mp hp).2
  cases habsolute : q.isAbsolute with
  | true =>
    rw [Path.join_absolute p habsolute]
    exact hq.descends tree
  | false =>
    have hthrough : ∀ n ∈ p.through, tree.lookUp n = some .directory := fun n hn =>
      hwalk n (Path.mem_walk_iff.mpr (Or.inl hn))
    rw [Descends, (Path.goal_walk_join habsolute).2, List.pairwise_append]
    refine ⟨List.pairwise_of_forall_mem_list fun n hn _ _ => Or.inl (hthrough n hn), ?_,
      fun n hn _ _ => Or.inl (hthrough n hn)⟩
    refine Location.pairwise_walk_of_dots (fun m hm => lookUp_of_isGiven hm tree)
      (fun m name hm => h m name ?_) hq (hwalk _ (Path.mem_walk_iff.mpr (Or.inr rfl)))
    rw [hm]
    exact Option.some_ne_none _

namespace Descends

/-- The end of the path is below all that it may get stuck in. -/
lemma exists_goal_eq (h : tree.Descends p) {n : Location} (hn : n ∈ p.through) :
    tree.lookUp n = some .directory ∨ ∃ rest, p.goal = n ++ rest :=
  (List.pairwise_append.mp h).2.2 n hn p.goal List.mem_cons_self

/-- A name may be put after such a path. -/
lemma join (h : tree.Descends p) (hname : IsPlain name) : tree.Descends (p.join ⟨name⟩) := by
  rw [Descends, Path.walk_join hname, List.pairwise_append]
  refine ⟨h, List.pairwise_singleton _ _, fun n hn m hm => ?_⟩
  obtain rfl := List.mem_singleton.mp hm
  rcases Path.mem_walk_iff.mp hn with hn | rfl
  · refine (h.exists_goal_eq hn).imp_right ?_
    rintro ⟨rest, hrest⟩
    exact ⟨rest ++ [name], by rw [hrest, List.append_assoc]⟩
  · exact Or.inr ⟨[name], rfl⟩

end Descends

/-! ## Trees of parents -/

/-- A location that something is below is a directory. -/
lemma HasParents.lookUp_of_append (h : tree.HasParents) {l rest : Location} (hrest : rest ≠ [])
    (hsome : tree.lookUp (l ++ rest) ≠ none) : tree.lookUp l = some .directory := by
  obtain ⟨next, rest, rfl⟩ := List.exists_cons_of_ne_nil hrest
  have hnext : tree.lookUp (l ++ [next] ++ rest) ≠ none := by rwa [List.append_assoc]
  exact h l next (h.lookUp_ne_none hnext)

/-- Such a path goes through no file unless it is refused for that. -/
lemma HasParents.lookUp_of_mem_through (h : tree.HasParents) (hdescends : tree.Descends p)
    (hp : p.IsUsable) (hresolve : tree.resolve p ≠ .error .notADirectory) {m : Location}
    (hm : m ∈ p.through) : tree.lookUp m = some .directory ∨ tree.lookUp m = none := by
  cases hentry : tree.lookUp m with
  | none => exact Or.inr rfl
  | some entry =>
    cases entry with
    | directory => exact Or.inl rfl
    | file content =>
      -- what the path goes through before the file is above it
      obtain ⟨front, back, hsplit, hfirst⟩ := List.eq_append_cons_of_mem hm
      refine absurd (resolve_of_file hp hsplit (fun n hn => ?_) hentry) hresolve
      have hbefore : p.walk = front ++ m :: (back ++ [p.goal]) := by
        rw [← List.cons_append, ← List.append_assoc, ← hsplit]
        rfl
      rw [Descends, hbefore] at hdescends
      rcases (List.pairwise_append.mp hdescends).2.2 n hn m List.mem_cons_self with
        hdirectory | ⟨rest, rfl⟩
      · exact hdirectory
      · refine h.lookUp_of_append ?_ (by rw [hentry]; exact Option.some_ne_none _)
        rintro rfl
        exact hfirst (by rwa [List.append_nil])

/-- Nothing is at the end of such a path if something on the way to it is missing. -/
lemma HasParents.lookUp_goal_of_missing (h : tree.HasParents) (hdescends : tree.Descends p)
    (hmissing : ∃ m ∈ p.through, tree.lookUp m = none) : tree.lookUp p.goal = none := by
  obtain ⟨m, hm, hnone⟩ := hmissing
  rcases hdescends.exists_goal_eq hm with hdirectory | ⟨rest, hrest⟩
  · rw [hnone] at hdirectory
    cases hdirectory
  · by_contra hsome
    rw [hrest] at hsome
    exact h.lookUp_ne_none hsome hnone

/-- **Such a path can be cleared** unless it goes through a file. -/
lemma HasParents.isClearable (h : tree.HasParents) (hdescends : tree.Descends p) (hp : p.IsUsable)
    (hnonempty : p.names ≠ []) (hfree : demandsDirectory p = false)
    (hresolve : tree.resolve p ≠ .error .notADirectory) : tree.IsClearable p where
  usable := hp
  nonempty := hnonempty
  free := hfree
  way := fun _ => h.lookUp_of_mem_through hdescends hp hresolve
  missing := h.lookUp_goal_of_missing hdescends
  rooted := h.isRooted p.goal

/-- **Recreating leaves nothing hanging in the air.** -/
lemma HasRecreated.hasParents (h : HasRecreated before after p) (hbefore : before.HasParents) :
    after.HasParents := by
  intro l name hsome
  by_cases hwalk : l ++ [name] ∈ p.walk
  · rcases Location.mem_walk_of_append (isGiven_origin p) hwalk with hmem | hgiven
    · exact h.made l hmem
    · exact lookUp_of_isGiven hgiven after
  · by_cases hl : l ∈ p.walk
    · exact h.made l hl
    · have hout : p.goal.isBelow (l ++ [name]) = false := by
        by_contra hbelow
        exact hsome (h.emptied _ (Bool.of_not_eq_false hbelow) hwalk)
      have hout' : p.goal.isBelow l = false := by
        by_contra hbelow
        rw [Location.isBelow_concat (Bool.of_not_eq_false hbelow) name] at hout
        cases hout
      rw [h.kept _ hwalk hout] at hsome
      rw [h.kept l hl hout']
      exact hbefore l name hsome

end FileTree

namespace Files

open FileTree

variable {tree tree' : FileTree} {p : Path} {name : String}

/-- **Nothing is removed where the way to it is missing**, but the way is made. -/
lemma run_recreate_of_missing (hp : p.IsUsable) (hfree : demandsDirectory p = false)
    (hway : tree.IsFree p) (hmissing : ∃ n ∈ p.through, tree.lookUp n = none) :
    ∃ after, (recreate p).run tree = (.ok (), after) ∧ HasMade tree after p := by
  have hresolve := resolve_of_missing hp (fun n hn => hway n (Path.mem_walk_iff.mpr (Or.inl hn)))
    hmissing
  have hat : tree.isDirectory p = false := by simp [FileTree.isDirectory, entryAt, hresolve]
  have hfile : (if tree.isDirectory p then removeDirectory p else removeFile p).run tree =
      (.error .notFound, tree) := by
    rw [hat, if_neg Bool.false_ne_true, removeFile, run_ask_error hresolve]
  have hremove : (removeAll p).run tree = (.ok (), tree) :=
    run_removeAll_of_run hfile (Or.inr rfl)
  obtain ⟨after, hmake, hmade⟩ := run_makeAll hp (Path.getLast?_ne_dot hfree) hway
  exact ⟨after, by rw [recreate, run_bind_ok hremove, hmake], hmade⟩

/-- A directory that is recreated successfully is there. -/
lemma isDirectory_of_run_recreate (hp : p.text ≠ "")
    (h : (recreate p).run tree = (.ok (), tree')) : tree'.isDirectory p = true := by
  obtain ⟨_, _, -, hmake⟩ := run_bind_eq_ok h
  exact isDirectory_of_run_makeAll hp hmake

/-- **A directory that is recreated successfully is empty**, but for its own walk. -/
lemma hasRecreated_of_run (hparents : tree.HasParents) (hdescends : tree.Descends p)
    (hname : IsPlain name) (h : (recreate (p.join ⟨name⟩)).run tree = (.ok (), tree')) :
    HasRecreated tree tree' (p.join ⟨name⟩) := by
  have husable :=
    (isDirectory_iff.mp (isDirectory_of_run_recreate (Path.text_join_ne_empty hname) h)).1
  obtain ⟨_, _, hremove, -⟩ := run_bind_eq_ok h
  have hresolve : tree.resolve (p.join ⟨name⟩) ≠ .error .notADirectory :=
    resolve_ne_error_of_run_removeAll hremove (by decide)
  obtain ⟨again, hagain, hrecreated⟩ := run_recreate (hparents.isClearable (hdescends.join hname)
    husable (Path.names_join_ne_nil hname) (Path.demandsDirectory_join hname) hresolve)
  rw [h] at hagain
  exact (Prod.mk.inj hagain).2 ▸ hrecreated

end Files

end Constellation
