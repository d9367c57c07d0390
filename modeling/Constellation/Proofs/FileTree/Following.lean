import Mathlib.Data.List.Basic
import Mathlib.Data.Nat.Notation
import Mathlib.Tactic.Lemma
import Constellation.FileTree.Search
set_option autoImplicit false

/-!
# Where paths lead

A path is followed name by name. This module says where a path leads that is joined to another one,
and which names there are below a location.

## Main definitions

* `FileTree.follow` — the location that the names in a path lead to.
* `FileTree.IsKeyed` — entries are kept under the keys of their locations.
* `FileTree.IsPlain` — a name can be the last one of a path and is not made of dots.

## Main results

* `Path.names_join` — the names in a joined path are those of both parts.
* `FileTree.follow_join` — a joined path is followed from where its first part leads.
* `FileTree.lookUp_ne_none_of_mem_namesBelow`, `FileTree.mem_namesBelow_of_lookUp` — a location has
  a name below it precisely if something is there.
* `FileTree.resolve_join` — where a name in a directory leads.

## Design

A path of too many bytes leads nowhere, but a search may still get to its end, since it does not
look up the path of each piece. This is why `FileTree.follow` does without the limit.
-/

namespace Constellation

/-! ## Paths -/

namespace Path

/-- A path ends in a separator, or is empty, if none is put after it. -/
lemma chars_of_needsSeparator_eq_false {p : Path} (h : p.needsSeparator = false) :
    p.chars = [] ∨ ∃ front, p.chars = front ++ ['/'] := by
  rcases List.eq_nil_or_concat p.chars with hnil | ⟨front, c, hconcat⟩
  · exact Or.inl hnil
  · rw [List.concat_eq_append] at hconcat
    rw [needsSeparator, hconcat, List.getLast?_concat] at h
    have hc : c = '/' := by simpa using h
    exact Or.inr ⟨front, by rw [hconcat, hc]⟩

/-- The characters of a joined path. -/
lemma chars_join (p : Path) {q : Path} (hq : q.isAbsolute = false) :
    (p.join q).chars = p.chars ++ (if p.needsSeparator then ['/'] else []) ++ q.chars := by
  rw [join, hq]
  split
  · next h => cases h
  · split <;> simp [chars]

/-- A joined path starts at the root if and only if its first part does. -/
lemma isAbsolute_join (p : Path) {q : Path} (hq : q.isAbsolute = false) :
    (p.join q).isAbsolute = p.isAbsolute := by
  rw [isAbsolute, chars_join p hq]
  cases hp : p.chars with
  | nil =>
    have hseparator : p.needsSeparator = false := by rw [needsSeparator, hp]; rfl
    rw [hseparator, isAbsolute, hp]
    exact hq
  | cons c rest => rw [isAbsolute, hp]; rfl

/-- The names in a joined path are those of both parts. -/
lemma names_join (p : Path) {q : Path} (hq : q.isAbsolute = false) :
    (p.join q).names = p.names ++ q.names := by
  rw [names, chars_join p hq]
  cases hseparator : p.needsSeparator with
  | true =>
    have hchars : p.chars ++ ['/'] ++ q.chars = p.chars ++ '/' :: q.chars := by
      rw [List.append_assoc, List.singleton_append]
    rw [if_pos rfl, hchars, List.splitOn_append_cons_self, List.filter_append]
    rfl
  | false =>
    rw [if_neg Bool.false_ne_true, List.append_nil, names, names]
    rcases chars_of_needsSeparator_eq_false hseparator with hnil | ⟨front, hfront⟩
    · rw [hnil]
      rfl
    · rw [hfront, List.append_assoc, List.singleton_append, List.splitOn_append_cons_self,
        List.splitOn_append_cons_self, List.filter_append, List.filter_append]
      simp [List.splitOn_nil]

/-- No piece between separators has a separator. -/
lemma slash_notMem_of_mem_splitOn {cs piece : List Char} (h : piece ∈ cs.splitOn '/') :
    '/' ∉ piece := by
  induction cs generalizing piece with
  | nil =>
    rw [List.splitOn_nil, List.mem_singleton] at h
    rw [h]
    exact List.not_mem_nil
  | cons c rest ih =>
    rw [List.splitOn_cons_eq_if_modifyHead] at h
    split at h
    · rcases List.mem_cons.mp h with rfl | hrest
      · exact List.not_mem_nil
      · exact ih hrest
    · next hc =>
      obtain ⟨first, pieces, hpieces⟩ := List.exists_cons_of_ne_nil (List.splitOn_ne_nil '/' rest)
      rw [hpieces, List.modifyHead_cons] at h
      rw [hpieces] at ih
      rcases List.mem_cons.mp h with rfl | hrest
      · intro hmem
        rcases List.mem_cons.mp hmem with heq | hfirst
        · exact hc (by rw [← heq]; rfl)
        · exact ih (List.mem_cons_self) hfirst
      · exact ih (List.mem_cons_of_mem _ hrest)

/-- A piece without a separator has no other name than itself. -/
lemma names_piece {piece : String} (h : '/' ∉ piece.toList) :
    names ⟨piece⟩ = if piece = "" then [] else [piece.toList] := by
  rw [names, chars, List.splitOn_eq_singleton h]
  split
  · next hempty =>
    rw [hempty]
    rfl
  · next hne =>
    rw [List.filter_cons_of_pos]
    · rfl
    · simpa [String.toList_eq_nil_iff] using hne

/-- Nor does it start at the root. -/
lemma isAbsolute_piece {piece : String} (h : '/' ∉ piece.toList) :
    isAbsolute ⟨piece⟩ = false := by
  rw [isAbsolute, beq_eq_false_iff_ne]
  intro hhead
  exact h (List.mem_of_mem_head? hhead)

end Path

namespace FileTree

variable {tree : FileTree}

/-! ## Following the names in a path -/

/-- The location at which a path starts. -/
def origin (p : Path) : Location := if p.isAbsolute then Location.fileSystemRoot else []

/-- The location that the names in a path lead to. -/
def follow (tree : FileTree) (p : Path) : Except FileFault Location :=
  tree.advanceAll (origin p) (p.names.map String.ofList)

/-- A single name is a step of its own. -/
lemma advanceAll_singleton (tree : FileTree) (l : Location) (name : String) :
    tree.advanceAll l [name] = tree.advance l name := by
  rw [advanceAll]
  cases tree.advance l name with
  | error fault => rfl
  | ok next => rfl

/-- Names that come after others are followed from where those lead. -/
lemma advanceAll_append (tree : FileTree) (l : Location) (before after : List String) :
    tree.advanceAll l (before ++ after) =
      (tree.advanceAll l before).bind fun m => tree.advanceAll m after := by
  induction before generalizing l with
  | nil => rfl
  | cons name names ih =>
    rw [List.cons_append, advanceAll, advanceAll]
    cases tree.advance l name with
    | error fault => rfl
    | ok next => exact ih next

/-- A joined path is followed from where its first part leads. -/
lemma follow_join (tree : FileTree) (p : Path) {q : Path} (hq : q.isAbsolute = false) :
    tree.follow (p.join q) =
      (tree.follow p).bind fun l => tree.advanceAll l (q.names.map String.ofList) := by
  rw [follow, origin, Path.isAbsolute_join p hq, Path.names_join p hq, List.map_append,
    advanceAll_append]
  rfl

/-- A path that leads to a location leads there by its names. -/
lemma follow_of_resolve {p : Path} {l : Location} (h : tree.resolve p = .ok l) :
    tree.follow p = .ok l := by
  rw [resolve] at h
  split at h
  · cases h
  · split at h
    · cases h
    · split at h
      · cases h
      · exact h

/-- What a path leads to is what is at its location. -/
lemma lookUp_of_entryAt {p : Path} {l : Location} {entry : Entry}
    (h : tree.entryAt p = .ok entry) (hl : tree.follow p = .ok l) :
    tree.lookUp l = some entry := by
  rw [entryAt] at h
  cases hp : tree.resolve p with
  | error fault =>
    simp only [hp] at h
    cases h
  | ok m =>
    cases (follow_of_resolve hp).symm.trans hl
    simp only [hp] at h
    split at h
    · cases h
    · next hlookUp =>
      cases h
      exact hlookUp
    · next hlookUp =>
      split at h
      · cases h
      · cases h
        exact hlookUp

/-- Only directories are said to be directories. -/
lemma eq_directory_of_isDirectory {entry : Entry} (h : entry.isDirectory = true) :
    entry = .directory := by
  cases entry with
  | directory => rfl
  | file content => cases h

/-- A path that is said to lead to a directory does so. -/
lemma entryAt_of_isDirectory {p : Path} (h : tree.isDirectory p = true) :
    tree.entryAt p = .ok .directory := by
  rw [isDirectory] at h
  split at h
  · next entry hentry =>
    rw [hentry, eq_directory_of_isDirectory h]
  · cases h

/-- A name other than dots leads to a location below. -/
lemma eq_append_of_advance {l m : Location} {name : String} (h : tree.advance l name = .ok m)
    (hdots : isDots name = false) : m = l ++ [name] := by
  rw [isDots, Bool.or_eq_false_iff] at hdots
  rw [advance] at h
  split at h
  · cases h
  · cases h
  · rw [hdots.1, hdots.2, if_neg Bool.false_ne_true, if_neg Bool.false_ne_true] at h
    split at h
    · cases h
    · cases h
      rfl

/-- A name is followed in a directory unless it is too long. -/
lemma advance_of_directory {l : Location} {name : String} (hl : tree.lookUp l = some .directory)
    (hdots : isDots name = false) :
    tree.advance l name = .ok (l ++ [name]) ∨ tree.advance l name = .error .nameTooLong := by
  rw [isDots, Bool.or_eq_false_iff] at hdots
  rw [advance, hl]
  dsimp only
  rw [hdots.1, hdots.2, if_neg Bool.false_ne_true, if_neg Bool.false_ne_true]
  split
  · exact Or.inr rfl
  · exact Or.inl rfl

/-! ## Names below a location -/

/-- Entries are kept under the keys of their locations. -/
def IsKeyed (tree : FileTree) : Prop := ∀ e ∈ tree.entries, e.1 = e.1.2.key

/-- A tree of given entries is keyed. -/
lemma isKeyed_ofList (entries : List (Location × Entry)) : (ofList entries).IsKeyed := by
  intro e he
  obtain ⟨entry, -, rfl⟩ := List.mem_map.mp he
  rfl

/-- It stays so if an entry is put somewhere. -/
lemma IsKeyed.put (h : tree.IsKeyed) (l : Location) (entry : Entry) :
    (tree.put l entry).IsKeyed := by
  intro e he
  rcases List.mem_cons.mp he with rfl | hrest
  · rfl
  · exact h e (List.mem_of_mem_filter hrest)

/-- It stays so if a location is cleared. -/
lemma IsKeyed.clear (h : tree.IsKeyed) (l : Location) : (tree.clear l).IsKeyed := by
  intro e he
  exact h e (List.mem_of_mem_filter he)

/-- It stays so if a location is removed. -/
lemma IsKeyed.remove (h : tree.IsKeyed) (l : Location) : (tree.remove l).IsKeyed := by
  intro e he
  exact h.clear l e (List.mem_of_mem_filter he)

/-- A name that can be the last one of a path and is not made of dots. -/
structure IsPlain (name : String) : Prop where
  /-- It has no separator. -/
  slash : '/' ∉ name.toList
  /-- It is not empty. -/
  nonempty : name ≠ ""
  /-- It is not made of dots. -/
  dots : isDots name = false

variable {l : Location} {name : String}

/-- A location with a plain name in it is not given. -/
lemma IsPlain.isGiven_append (h : IsPlain name) (l rest : Location) :
    Location.isGiven (l ++ name :: rest) = false := by
  have hup : (name == "..") = false := (Bool.or_eq_false_iff.mp h.dots).2
  rw [Location.isGiven, Bool.or_eq_false_iff]
  constructor
  · rw [List.all_append, List.all_cons, hup, Bool.false_and, Bool.and_false]
  · rw [beq_eq_false_iff_ne, Location.fileSystemRoot]
    intro heq
    have hmem : name ∈ l ++ name :: rest := List.mem_append_right l List.mem_cons_self
    rw [heq, List.mem_singleton] at hmem
    subst hmem
    exact h.slash (by decide)

/-- A location below another one is not given. -/
lemma IsPlain.isGiven (h : IsPlain name) (l : Location) : (l ++ [name]).isGiven = false :=
  h.isGiven_append l []

/-- A plain name does not lead outside. -/
lemma IsPlain.isOutside (h : IsPlain name) : Location.isOutside [name] = false := by
  have hup : (name == "..") = false := (Bool.or_eq_false_iff.mp h.dots).2
  have hroot : name ≠ "/" := by
    rintro rfl
    exact h.slash (by decide)
  rw [Location.isOutside, List.head?_cons, Bool.or_eq_false_iff, beq_eq_false_iff_ne,
    beq_eq_false_iff_ne]
  exact ⟨fun heq => beq_eq_false_iff_ne.mp hup (Option.some.inj heq),
    fun heq => hroot (Option.some.inj heq)⟩

/-- Something is at each name below a location. -/
lemma lookUp_ne_none_of_mem_namesBelow (hkeyed : tree.IsKeyed) (h : name ∈ tree.namesBelow l) :
    tree.lookUp (l ++ [name]) ≠ none := by
  obtain ⟨e, he, hlast⟩ := List.mem_filterMap.mp h
  split at hlast
  · next hbelow =>
    rw [Bool.and_eq_true, beq_iff_eq, Location.isBelow, Bool.and_eq_true,
      Bool.and_eq_true] at hbelow
    obtain ⟨hlength, ⟨hstart, -⟩, -⟩ := hbelow
    obtain ⟨rest, hrest⟩ := List.isPrefixOf_iff_prefix.mp hstart
    -- The key tells how long the location is, so a single name comes after `l`.
    rw [hkeyed e he, Location.key, ← hrest, List.length_append, Nat.add_left_cancel_iff] at hlength
    obtain ⟨last, rfl⟩ := List.length_eq_one_iff.mp hlength
    rw [← hrest, List.getLast?_concat] at hlast
    cases hlast
    rw [lookUp]
    split
    · exact Option.some_ne_none _
    · intro hnone
      have habsent := List.lookup_eq_none_iff.mp hnone e he
      rw [hkeyed e he, hrest] at habsent
      simp at habsent
  · cases hlast

/-- The name of what is right below a location is among the names below it. -/
lemma mem_namesBelow_of_lookUp (hname : IsPlain name) {entry : Entry}
    (h : tree.lookUp (l ++ [name]) = some entry) : name ∈ tree.namesBelow l := by
  rw [lookUp, hname.isGiven, if_neg Bool.false_ne_true] at h
  obtain ⟨before, after, hentries, -⟩ := List.lookup_eq_some_iff.mp h
  refine List.mem_filterMap.mpr ⟨((l ++ [name]).key, entry), ?_, ?_⟩
  · rw [hentries]
    exact List.mem_append_right _ List.mem_cons_self
  · have hbelow : l.isBelow (l ++ [name]) = true := by
      rw [Location.isBelow, List.drop_left, hname.isOutside]
      simp
    simp [Location.key, hbelow]

/-- A joined name is followed to the location below, unless it cannot be followed at all. -/
lemma resolve_join {p : Path} (hl : tree.follow p = .ok l)
    (hdirectory : tree.lookUp l = some .directory) (hname : IsPlain name) :
    tree.resolve (p.join ⟨name⟩) = .ok (l ++ [name]) ∨
      ∃ fault, tree.resolve (p.join ⟨name⟩) = .error fault ∧ fault ≠ .notFound := by
  have hfollow : tree.follow (p.join ⟨name⟩) = tree.advance l name := by
    have hnames : (Path.names ⟨name⟩).map String.ofList = [name] := by
      rw [Path.names_piece hname.slash, if_neg hname.nonempty, List.map_singleton,
        String.ofList_toList]
    rw [follow_join tree p (Path.isAbsolute_piece hname.slash), hl, hnames]
    exact advanceAll_singleton tree l name
  have hempty : (p.join ⟨name⟩).text.isEmpty = false := by
    rw [String.isEmpty_eq_false_iff]
    intro htext
    have hchars : (p.join ⟨name⟩).chars = [] := by rw [Path.chars, htext]; rfl
    rw [Path.chars_join p (Path.isAbsolute_piece hname.slash)] at hchars
    have hnil := List.append_eq_nil_iff.mp hchars
    exact hname.nonempty (String.toList_eq_nil_iff.mp hnil.2)
  rw [resolve, hempty, if_neg Bool.false_ne_true]
  split
  · exact Or.inr ⟨_, rfl, by decide⟩
  · split
    · exact Or.inr ⟨_, rfl, by decide⟩
    · -- Past its checks, a path is resolved by following its names.
      change tree.follow (p.join ⟨name⟩) = _ ∨ ∃ fault, tree.follow (p.join ⟨name⟩) = _ ∧ _
      rw [hfollow]
      rcases advance_of_directory hdirectory hname.dots with hok | herror
      · exact Or.inl hok
      · exact Or.inr ⟨_, herror, by decide⟩

end FileTree

end Constellation
