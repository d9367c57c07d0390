import Constellation.Proofs.FileTree.Making
set_option autoImplicit false

/-!
# Writing files

What a file operation writes depends on what it reads, and it changes a single location.

## Main definitions

* `FileTree.HasPut` — a file has been put at the end of a path, and nothing else has changed.

## Main results

* `FileTree.entryAt_eq_file_iff` — a path leads to a file if it goes through directories to it.
* `Files.run_copy`, `Files.exists_of_run_copy` — a copy of a file has the content of the file.
* `Files.run_substitute`, `Files.exists_of_run_substitute` — patterns are replaced in a text.
-/

namespace Constellation

namespace FileTree

variable {tree before middle after : FileTree} {p : Path} {content : ByteArray}

/-- A file has been put at the end of a path, and nothing else has changed. -/
structure HasPut (before after : FileTree) (p : Path) (content : ByteArray) : Prop where
  /-- The file is there. -/
  put : after.lookUp p.goal = some (.file content)
  /-- All else is as before. -/
  kept : ∀ m, m ≠ p.goal → after.lookUp m = before.lookUp m

/-- A file at a location that does not hold a directory is there. -/
lemma hasPut_put (h : tree.lookUp p.goal ≠ some .directory) (content : ByteArray) :
    HasPut tree (tree.put p.goal (.file content)) p content where
  put := by
    refine lookUp_put_self tree _ ?_
    by_contra hgiven
    rw [lookUp, if_pos (Bool.of_not_eq_false hgiven)] at h
    exact h rfl
  kept := fun m hm => lookUp_put_of_ne tree _ hm

/-- Of two files at the same location the later one is there. -/
lemma HasPut.trans {earlier : ByteArray} (h : HasPut before middle p earlier)
    (h' : HasPut middle after p content) : HasPut before after p content :=
  ⟨h'.put, fun m hm => (h'.kept m hm).trans (h.kept m hm)⟩

/-- **A path leads to a file** if and only if it can mean one and goes through directories to it. -/
lemma entryAt_eq_file_iff : tree.entryAt p = .ok (.file content) ↔
    tree.resolve p = .ok p.goal ∧ demandsDirectory p = false ∧
      tree.lookUp p.goal = some (.file content) := by
  rw [entryAt]
  cases hresolve : tree.resolve p with
  | error fault => simp
  | ok l =>
    obtain ⟨-, -, rfl⟩ := resolve_eq_ok_iff.mp hresolve
    dsimp only
    cases tree.lookUp p.goal with
    | none => simp
    | some entry => cases entry <;> cases demandsDirectory p <;> simp

/-- A path leads where it led if directories have stayed. -/
lemma resolve_of_forall (h : before.resolve p = .ok p.goal)
    (hkept : ∀ m ∈ p.through,
      before.lookUp m = some .directory → after.lookUp m = some .directory) :
    after.resolve p = .ok p.goal := by
  obtain ⟨hp, hthrough, -⟩ := resolve_eq_ok_iff.mp h
  exact resolve_eq_ok_iff.mpr ⟨hp, fun m hm => hkept m hm (hthrough m hm), rfl⟩

/-- A path leads where it led if only a file has been put in a place without a directory. -/
lemma HasPut.resolve {q : Path} (h : HasPut before after q content)
    (hgoal : before.lookUp q.goal ≠ some .directory) (hp : before.resolve p = .ok p.goal) :
    after.resolve p = .ok p.goal := by
  refine resolve_of_forall hp fun m _ hdirectory => ?_
  rw [h.kept m (by rintro rfl; exact hgoal hdirectory), hdirectory]

/-- What has been put is found. -/
lemma HasPut.entryAt (h : HasPut before after p content)
    (hgoal : before.lookUp p.goal ≠ some .directory) (hp : before.resolve p = .ok p.goal)
    (hfree : demandsDirectory p = false) : after.entryAt p = .ok (.file content) :=
  entryAt_eq_file_iff.mpr ⟨h.resolve hgoal hp, hfree, h.put⟩

end FileTree

namespace Files

open FileTree

variable {tree tree' : FileTree} {p source : Path} {content : ByteArray}

/-- A file can be written at the end of a path that leads to no directory. -/
lemma target_eq_ok_iff {l : Location} : target tree p = .ok l ↔
    tree.resolve p = .ok p.goal ∧ demandsDirectory p = false ∧
      tree.lookUp p.goal ≠ some .directory ∧ l = p.goal := by
  rw [target]
  cases hresolve : tree.resolve p with
  | error fault => simp
  | ok m =>
    obtain ⟨-, -, rfl⟩ := resolve_eq_ok_iff.mp hresolve
    dsimp only
    cases tree.lookUp p.goal with
    | none => cases demandsDirectory p <;> simp [eq_comm]
    | some entry => cases entry <;> cases demandsDirectory p <;> simp [eq_comm]

/-- A file is written. -/
lemma run_writeBytes (h : tree.resolve p = .ok p.goal) (hfree : demandsDirectory p = false)
    (hgoal : tree.lookUp p.goal ≠ some .directory) (content : ByteArray) :
    ∃ tree', (writeBytes p content).run tree = (.ok (), tree') ∧ HasPut tree tree' p content := by
  refine ⟨tree.put p.goal (.file content), ?_, hasPut_put hgoal content⟩
  rw [writeBytes, run_ask_ok (target_eq_ok_iff.mpr ⟨h, hfree, hgoal, rfl⟩)]
  rfl

/-- No file is written where there is no place for it. -/
lemma run_writeBytes_of_error {fault : FileFault} (h : target tree p = .error fault) :
    (writeBytes p content).run tree = (.error fault, tree) :=
  run_ask_error h

/-- Whatever file has been written is there. -/
lemma exists_of_run_writeBytes (h : (writeBytes p content).run tree = (.ok (), tree')) :
    tree.resolve p = .ok p.goal ∧ demandsDirectory p = false ∧
      tree.lookUp p.goal ≠ some .directory ∧ HasPut tree tree' p content := by
  cases htarget : target tree p with
  | error fault =>
    rw [run_writeBytes_of_error htarget] at h
    cases h
  | ok l =>
    obtain ⟨hresolve, hfree, hgoal, -⟩ := target_eq_ok_iff.mp htarget
    obtain ⟨after, hafter, hput⟩ := run_writeBytes hresolve hfree hgoal content
    rw [hafter] at h
    cases h
    exact ⟨hresolve, hfree, hgoal, hput⟩

/-- A file is read. -/
lemma run_readBytes (h : tree.entryAt p = .ok (.file content)) :
    (readBytes p).run tree = (.ok content, tree) := by
  rw [readBytes, run_ask_ok h]
  rfl

/-- Only files are read. -/
lemma entryAt_of_run_readBytes (h : (readBytes p).run tree = (.ok content, tree')) :
    tree.entryAt p = .ok (.file content) ∧ tree' = tree := by
  cases hentry : tree.entryAt p with
  | error fault =>
    rw [readBytes, run_ask_error hentry] at h
    cases h
  | ok entry =>
    rw [readBytes, run_ask_ok hentry] at h
    cases entry <;> cases h
    exact ⟨rfl, rfl⟩

/-- Only a file is copied, and only where a file can be written. -/
lemma exists_of_run_copy (h : (copy source p).run tree = (.ok (), tree')) :
    (∃ content, tree.entryAt source = .ok (.file content)) ∧ tree.resolve p = .ok p.goal ∧
      demandsDirectory p = false ∧ tree.lookUp p.goal ≠ some .directory := by
  cases hentry : tree.entryAt source with
  | error fault =>
    rw [copy, run_ask_error hentry] at h
    cases h
  | ok entry =>
    rw [copy, run_ask_ok hentry] at h
    cases entry with
    | directory => cases h
    | file content =>
      refine ⟨⟨content, rfl⟩, ?_⟩
      have hwrite : (writeBytes p ByteArray.empty >>= fun _ =>
          readBytes source >>= writeBytes p).run tree = (.ok (), tree') := h
      obtain ⟨_, middle, hempty, -⟩ := run_bind_eq_ok hwrite
      obtain ⟨hresolve, hfree, hgoal, -⟩ := exists_of_run_writeBytes hempty
      exact ⟨hresolve, hfree, hgoal⟩

/-- **A copy has the content of its source**, which is none if the copy is put in its place. -/
lemma run_copy (hsource : tree.entryAt source = .ok (.file content))
    (h : tree.resolve p = .ok p.goal) (hfree : demandsDirectory p = false)
    (hgoal : tree.lookUp p.goal ≠ some .directory) :
    ∃ tree', (copy source p).run tree = (.ok (), tree') ∧
      HasPut tree tree' p (if source.goal = p.goal then ByteArray.empty else content) := by
  obtain ⟨empty, hempty, hput⟩ := run_writeBytes h hfree hgoal ByteArray.empty
  obtain ⟨hresolve, hfile, hlookUp⟩ := entryAt_eq_file_iff.mp hsource
  -- the source is read after the copy has been emptied
  have hstill : empty.entryAt source =
      .ok (.file (if source.goal = p.goal then ByteArray.empty else content)) := by
    refine entryAt_eq_file_iff.mpr ⟨hput.resolve hgoal hresolve, hfile, ?_⟩
    split
    · next heq => rw [heq, hput.put]
    · next hne => rw [hput.kept _ hne, hlookUp]
  obtain ⟨after, hafter, hput'⟩ := run_writeBytes (hput.resolve hgoal h) hfree
    (by rw [hput.put]; simp) (if source.goal = p.goal then ByteArray.empty else content)
  refine ⟨after, ?_, hput.trans hput'⟩
  rw [copy, run_ask_ok hsource]
  exact (run_bind_ok hempty).trans ((run_bind_ok (run_readBytes hstill)).trans hafter)

/-- Patterns are replaced in texts only. -/
lemma exists_of_run_substitute {replacements : List (String × String)}
    (h : (substitute p replacements).run tree = (.ok (), tree')) :
    ∃ content text, tree.entryAt p = .ok (.file content) ∧
      String.fromUTF8? content = some text := by
  obtain ⟨text, middle, hread, -⟩ := run_bind_eq_ok h
  obtain ⟨content, middle', hbytes, htext⟩ := run_bind_eq_ok hread
  obtain ⟨hentry, rfl⟩ := entryAt_of_run_readBytes hbytes
  refine ⟨content, ?_⟩
  cases hsome : String.fromUTF8? content with
  | none =>
    rw [hsome] at htext
    cases htext
  | some text' => exact ⟨text', hentry, rfl⟩

/-- **Patterns are replaced in a text**, one after the other. -/
lemma run_substitute (h : tree.entryAt p = .ok (.file content)) {text : String}
    (htext : String.fromUTF8? content = some text) (replacements : List (String × String)) :
    ∃ tree', (substitute p replacements).run tree = (.ok (), tree') ∧
      HasPut tree tree' p (substituteText replacements text).toUTF8 := by
  obtain ⟨hresolve, hfree, hlookUp⟩ := entryAt_eq_file_iff.mp h
  obtain ⟨after, hafter, hput⟩ := run_writeBytes hresolve hfree (by rw [hlookUp]; simp)
    (substituteText replacements text).toUTF8
  refine ⟨after, ?_, hput⟩
  have hread : (readText p).run tree = (.ok text, tree) := by
    rw [readText, run_bind_ok (run_readBytes h), htext]
    rfl
  exact (run_bind_ok hread).trans hafter

end Files

end Constellation
