import Mathlib.Data.List.Flatten
import Constellation.Proofs.FileTree.Following
set_option autoImplicit false

/-!
# Which locations a path goes through

A path goes from location to location. Which ones these are does not depend on the tree; the tree
only decides how far the path gets.

## Main definitions

* `Location.step`, `Location.walk` — where one name leads, and what several names lead through.
* `Path.through`, `Path.goal` — the locations on the way of a path, and the one at its end.
* `Path.walk` — both together.
* `Path.IsUsable` — nothing but the tree can keep a path from getting to its end.

## Main results

* `FileTree.resolve_eq_ok_iff` — a path gets to its end if it goes through directories.
* `FileTree.resolve_of_missing` — it gets nowhere if one of them is missing.
* `Path.mem_through_iff` — a path goes through what its parent goes through or leads to.
* `Path.exists_parent_of_leaves` — a parent is usable where the path is.
* `Path.goal_join`, `Path.through_join` — where a joined name leads, and how.
-/

namespace Constellation

/-! ## Locations -/

namespace Location

/-- Where one name leads from a location. -/
def step (l : Location) (name : String) : Location :=
  if name == "." then l else if name == ".." then l.parent else l ++ [name]

/-- The locations that names are looked up in, one after the other. -/
def through (l : Location) : List String → List Location
  | [] => []
  | name :: names => l :: through (l.step name) names

/-- The locations that names lead through, with the one at their end. -/
def walk (l : Location) (names : List String) : List Location :=
  through l names ++ [names.foldl step l]

variable (l : Location)

/-- Names that come after others go on from where those lead. -/
lemma through_append (before after : List String) :
    through l (before ++ after) = through l before ++ through (before.foldl step l) after := by
  induction before generalizing l with
  | nil => rfl
  | cons name names ih => simp only [List.cons_append, through, ih, List.foldl_cons]

/-- The last name is looked up at the end of the walk of the others. -/
lemma through_concat (names : List String) (last : String) :
    through l (names ++ [last]) = walk l names := by
  rw [through_append, walk]
  rfl

/-- A walk goes on with its first name. -/
lemma walk_cons (name : String) (names : List String) :
    walk l (name :: names) = l :: walk (l.step name) names := rfl

/-- A walk starts where it starts. -/
lemma mem_walk_self (names : List String) : l ∈ walk l names := by
  cases names with
  | nil => exact List.mem_singleton_self l
  | cons name names => exact List.mem_cons_self

/-- A lone dot leads nowhere. -/
lemma step_dot : l.step "." = l := rfl

/-- Without its lone dots a walk goes through the same locations. -/
lemma mem_walk_filter (names : List (List Char)) (m : Location) :
    m ∈ walk l ((names.filter (· != ['.'])).map String.ofList) ↔
      m ∈ walk l (names.map String.ofList) := by
  induction names generalizing l with
  | nil => rfl
  | cons name names ih =>
    rw [List.map_cons, walk_cons, List.mem_cons]
    by_cases hdot : name = ['.']
    · subst hdot
      have hself : m = l → m ∈ walk l (names.map String.ofList) := by
        rintro rfl
        exact mem_walk_self m _
      have hstep : l.step (String.ofList ['.']) = l := step_dot l
      rw [List.filter_cons_of_neg (by simp), ih, hstep]
      exact ⟨Or.inr, fun h => h.elim hself id⟩
    · rw [List.filter_cons_of_pos (by simpa using hdot), List.map_cons, walk_cons, List.mem_cons,
        ih]

/-- Names that do not go up lead through no location longer than the one at their end. -/
lemma length_le_of_mem_walk {names : List String} (h : ∀ name ∈ names, name ≠ "..")
    {m : Location} (hm : m ∈ walk l names) : m.length ≤ (names.foldl step l).length := by
  induction names generalizing l m with
  | nil =>
    obtain rfl := List.mem_singleton.mp hm
    exact Nat.le_refl _
  | cons name names ih =>
    rw [List.forall_mem_cons] at h
    rw [walk_cons, List.mem_cons] at hm
    rw [List.foldl_cons]
    rcases hm with rfl | hm
    · have hend := ih _ h.2 (mem_walk_self (m.step name) names)
      have hstep : m.length ≤ (m.step name).length := by
        rw [step, beq_eq_false_iff_ne.mpr h.1]
        split
        · exact Nat.le_refl _
        · simp
      omega
    · exact ih _ h.2 hm

end Location

/-! ## Paths -/

/-- A name that no directory refuses. -/
def FileTree.IsShort (name : String) : Prop :=
  isDots name = true ∨ name.utf8ByteSize ≤ nameLimit

namespace Path

/-- The names in a path as texts. -/
def parts (p : Path) : List String := p.names.map String.ofList

/-- The locations on the way of a path. -/
def through (p : Path) : List Location := Location.through (FileTree.origin p) p.parts

/-- The location that a path leads to. -/
def goal (p : Path) : Location := p.parts.foldl Location.step (FileTree.origin p)

/-- The locations on the way of a path and the one at its end. -/
def walk (p : Path) : List Location := Location.walk (FileTree.origin p) p.parts

/-- Nothing but the tree can keep a path from getting to its end. -/
structure IsUsable (p : Path) : Prop where
  /-- It does not hold the character that ends a name. -/
  nul : '\x00' ∉ p.chars
  /-- It is not empty. -/
  nonempty : p.text ≠ ""
  /-- It is not too long. -/
  short : p.text.utf8ByteSize < FileTree.pathLimit
  /-- None of its names is too long. -/
  parts : ∀ name ∈ p.parts, FileTree.IsShort name

/-- A walk is the way and its end. -/
lemma mem_walk_iff {p : Path} {l : Location} : l ∈ p.walk ↔ l ∈ p.through ∨ l = p.goal := by
  rw [walk, Location.walk, List.mem_append, List.mem_singleton]
  rfl

end Path

namespace FileTree

variable {tree : FileTree}

/-- A name leads somewhere in a directory that does not refuse it. -/
lemma advance_eq_ok_iff {l m : Location} {name : String} : tree.advance l name = .ok m ↔
    tree.lookUp l = some .directory ∧ IsShort name ∧ m = l.step name := by
  rw [advance, IsShort, isDots, Location.step]
  cases tree.lookUp l with
  | none => simp
  | some entry =>
    cases entry with
    | file content => simp
    | directory =>
      cases hdot : name == "." with
      | true => simp [eq_comm]
      | false =>
        cases hup : name == ".." with
        | true => simp [eq_comm]
        | false =>
          by_cases hlong : nameLimit < name.utf8ByteSize
          · simp [hlong, Nat.not_le.mpr hlong]
          · simp [hlong, Nat.not_lt.mp hlong, eq_comm]

/-- In a missing location no name leads anywhere. -/
lemma advance_of_none {l : Location} (h : tree.lookUp l = none) (name : String) :
    tree.advance l name = .error .notFound := by
  rw [advance, h]

/-- Names lead to their end if they are looked up in directories that do not refuse them. -/
lemma advanceAll_eq_ok_iff {l m : Location} {names : List String} :
    tree.advanceAll l names = .ok m ↔ (∀ n ∈ Location.through l names,
      tree.lookUp n = some .directory) ∧ (∀ name ∈ names, IsShort name) ∧
        m = names.foldl Location.step l := by
  induction names generalizing l with
  | nil => simp [advanceAll, Location.through, eq_comm]
  | cons name names ih =>
    rw [advanceAll, Location.through, List.forall_mem_cons, List.forall_mem_cons, List.foldl_cons]
    cases hadvance : tree.advance l name with
    | ok next =>
      obtain ⟨hdirectory, hshort, rfl⟩ := advance_eq_ok_iff.mp hadvance
      dsimp only
      rw [ih]
      simp [hdirectory, hshort]
    | error fault =>
      refine iff_of_false (by simp) ?_
      rintro ⟨⟨hdirectory, -⟩, ⟨hshort, -⟩, -⟩
      rw [advance_eq_ok_iff.mpr ⟨hdirectory, hshort, rfl⟩] at hadvance
      cases hadvance

/-- Names lead nowhere if one of the directories that they are looked up in is missing. -/
lemma advanceAll_of_missing {l : Location} {names : List String}
    (h : ∀ n ∈ Location.through l names, tree.lookUp n = some .directory ∨ tree.lookUp n = none)
    (hshort : ∀ name ∈ names, IsShort name)
    (hmissing : ∃ n ∈ Location.through l names, tree.lookUp n = none) :
    tree.advanceAll l names = .error .notFound := by
  induction names generalizing l with
  | nil =>
    obtain ⟨n, hn, -⟩ := hmissing
    exact absurd hn List.not_mem_nil
  | cons name names ih =>
    rw [Location.through, List.forall_mem_cons] at h
    rw [List.forall_mem_cons] at hshort
    rw [advanceAll]
    rcases h.1 with hdirectory | hnone
    · rw [advance_eq_ok_iff.mpr ⟨hdirectory, hshort.1, rfl⟩]
      refine ih h.2 hshort.2 ?_
      obtain ⟨n, hn, hnone⟩ := hmissing
      rcases List.mem_cons.mp hn with rfl | hn
      · rw [hdirectory] at hnone
        cases hnone
      · exact ⟨n, hn, hnone⟩
    · rw [advance_of_none hnone]

/-- Names lead nowhere if one of them is looked up in a file. -/
lemma advanceAll_of_file {l n : Location} {names : List String} {front rest : List Location}
    (hthrough : Location.through l names = front ++ n :: rest)
    (hfront : ∀ m ∈ front, tree.lookUp m = some .directory) {content : ByteArray}
    (hfile : tree.lookUp n = some (.file content)) (hshort : ∀ name ∈ names, IsShort name) :
    tree.advanceAll l names = .error .notADirectory := by
  induction names generalizing l front with
  | nil => simp [Location.through] at hthrough
  | cons name names ih =>
    rw [List.forall_mem_cons] at hshort
    rw [Location.through] at hthrough
    rw [advanceAll]
    cases front with
    | nil =>
      obtain ⟨rfl, -⟩ := List.cons.inj hthrough
      rw [advance, hfile]
    | cons m front =>
      rw [List.cons_append, List.cons.injEq] at hthrough
      obtain ⟨rfl, hrest⟩ := hthrough
      rw [List.forall_mem_cons] at hfront
      rw [advance_eq_ok_iff.mpr ⟨hfront.1, hshort.1, rfl⟩]
      exact ih hrest hfront.2 hshort.2

variable {p : Path}

/-- A usable path is resolved by following its names. -/
lemma resolve_of_isUsable (hp : p.IsUsable) (tree : FileTree) :
    tree.resolve p = tree.advanceAll (origin p) p.parts := by
  rw [resolve, if_neg (by simpa using hp.nul), if_neg (by simpa using hp.nonempty),
    if_neg (Nat.not_le.mpr hp.short)]
  rfl

/-- **A path gets to its end** if and only if it is usable and goes through directories. -/
lemma resolve_eq_ok_iff {l : Location} : tree.resolve p = .ok l ↔
    p.IsUsable ∧ (∀ n ∈ p.through, tree.lookUp n = some .directory) ∧ l = p.goal := by
  constructor
  · intro h
    have hfollow : tree.advanceAll (origin p) p.parts = .ok l := follow_of_resolve h
    obtain ⟨hthrough, hshort, hl⟩ := advanceAll_eq_ok_iff.mp hfollow
    rw [resolve] at h
    split at h
    · cases h
    · next hnul =>
      split at h
      · cases h
      · next hempty =>
        split at h
        · cases h
        · next hlong =>
          exact ⟨⟨by simpa using hnul, by simpa using hempty, Nat.not_le.mp hlong, hshort⟩,
            hthrough, hl⟩
  · rintro ⟨hp, hthrough, hl⟩
    rw [resolve_of_isUsable hp]
    exact advanceAll_eq_ok_iff.mpr ⟨hthrough, hp.parts, hl⟩

/-- **A path gets nowhere** if a directory that it goes through is missing. -/
lemma resolve_of_missing (hp : p.IsUsable)
    (h : ∀ n ∈ p.through, tree.lookUp n = some .directory ∨ tree.lookUp n = none)
    (hmissing : ∃ n ∈ p.through, tree.lookUp n = none) : tree.resolve p = .error .notFound := by
  rw [resolve_of_isUsable hp]
  exact advanceAll_of_missing h hp.parts hmissing

/-- It is refused if it goes through a file. -/
lemma resolve_of_file (hp : p.IsUsable) {n : Location} {front rest : List Location}
    (hthrough : p.through = front ++ n :: rest)
    (hfront : ∀ m ∈ front, tree.lookUp m = some .directory) {content : ByteArray}
    (hfile : tree.lookUp n = some (.file content)) : tree.resolve p = .error .notADirectory := by
  rw [resolve_of_isUsable hp]
  exact advanceAll_of_file hthrough hfront hfile hp.parts

/-- A path starts in a directory that is always there. -/
lemma lookUp_origin (tree : FileTree) (p : Path) : tree.lookUp (origin p) = some .directory := by
  rw [lookUp, if_pos]
  rw [origin]
  split <;> decide

end FileTree

/-! ## Parents -/

namespace Path

/-- No name in a path is empty. -/
lemma ne_nil_of_mem_names {p : Path} {name : List Char} (h : name ∈ p.names) : name ≠ [] := by
  simpa using (List.mem_filter.mp h).2

/-- No name in a path has a separator. -/
lemma slash_notMem_of_mem_names {p : Path} {name : List Char} (h : name ∈ p.names) :
    '/' ∉ name :=
  slash_notMem_of_mem_splitOn (List.mem_filter.mp h).1

/-- The steps of a path are some of its names. -/
lemma steps_sublist_names (p : Path) : p.steps.Sublist p.names := by
  rw [steps]
  cases p.names with
  | nil => exact List.Sublist.refl _
  | cons first rest =>
    dsimp only
    split
    · exact (List.filter_sublist).cons first
    · exact (List.filter_sublist).cons_cons first

/-- Fewer pieces make up fewer characters. -/
lemma intercalate_sublist {α : Type} (separator : List α) {pieces others : List (List α)}
    (h : pieces.Sublist others) :
    (separator.intercalate pieces).Sublist (separator.intercalate others) := by
  induction h with
  | slnil => exact List.Sublist.refl _
  | @cons l₁ l₂ piece h ih =>
    cases l₂ with
    | nil =>
      obtain rfl := List.sublist_nil.mp h
      exact List.nil_sublist _
    | cons next rest =>
      rw [List.intercalate_cons_cons]
      exact ih.trans (List.sublist_append_right _ _)
  | @cons_cons l₁ l₂ piece h ih =>
    cases l₁ with
    | nil =>
      cases l₂ with
      | nil => exact List.Sublist.refl _
      | cons next rest =>
        rw [List.intercalate_cons_cons, List.intercalate_singleton, List.append_assoc]
        exact List.sublist_append_left _ _
    | cons first others =>
      cases l₂ with
      | nil => cases h
      | cons next rest =>
        rw [List.intercalate_cons_cons, List.intercalate_cons_cons]
        exact ih.append_left _

/-- The names that separators are put between are found again. -/
lemma names_ofChars_intercalate {pieces : List (List Char)} (hne : ∀ piece ∈ pieces, piece ≠ [])
    (hslash : ∀ piece ∈ pieces, '/' ∉ piece) :
    (ofChars (['/'].intercalate pieces)).names = pieces := by
  have hkept : (pieces.filter fun name => !name.isEmpty) = pieces :=
    List.filter_eq_self.mpr fun piece hpiece => by simpa using hne piece hpiece
  rw [names, ofChars, chars, String.toList_ofList]
  by_cases hnil : pieces = []
  · subst hnil
    rfl
  · rw [List.splitOn_intercalate '/' hslash hnil, hkept]

section Parent

variable {p q : Path}

/-- The parent of a path has its steps without the last one. -/
lemma names_parent (h : p.parent? = some q) : q.names = p.steps.dropLast := by
  have hmem : ∀ piece ∈ p.steps.dropLast, piece ∈ p.names := fun piece hpiece =>
    p.steps_sublist_names.subset (List.dropLast_subset _ hpiece)
  have hnames := names_ofChars_intercalate
    (fun piece hpiece => ne_nil_of_mem_names (hmem piece hpiece))
    (fun piece hpiece => slash_notMem_of_mem_names (hmem piece hpiece))
  rw [parent?] at h
  dsimp only at h
  split at h
  · cases h
  · obtain rfl := Option.some.inj h
    split
    · rw [names, ofChars, chars, String.toList_ofList] at hnames ⊢
      rw [List.splitOn_cons_eq_if_modifyHead, if_pos (by rfl), List.filter_cons_of_neg (by simp)]
      exact hnames
    · exact hnames

/-- The parent of a path starts where the path does. -/
lemma isAbsolute_parent (h : p.parent? = some q) : q.isAbsolute = p.isAbsolute := by
  rw [parent?] at h
  dsimp only at h
  split at h
  · cases h
  · obtain rfl := Option.some.inj h
    split
    · next habsolute => rw [habsolute, isAbsolute, ofChars, chars, String.toList_ofList]; rfl
    · next hrelative =>
      rw [Bool.eq_false_iff.mpr hrelative, isAbsolute, ofChars, chars, String.toList_ofList,
        beq_eq_false_iff_ne]
      intro hhead
      cases hsteps : p.steps.dropLast with
      | nil =>
        rw [hsteps] at hhead
        cases hhead
      | cons first rest =>
        have hmem : first ∈ p.names := p.steps_sublist_names.subset
          (List.dropLast_subset _ (by rw [hsteps]; exact List.mem_cons_self))
        obtain ⟨c, cs, rfl⟩ := List.exists_cons_of_ne_nil (ne_nil_of_mem_names hmem)
        have hc : c = '/' := by
          rw [hsteps] at hhead
          cases rest <;> simpa [List.intercalate_cons_cons] using hhead
        subst hc
        exact slash_notMem_of_mem_names hmem List.mem_cons_self

/-- **A parent has no more characters** than the path. -/
lemma chars_parent_sublist (h : p.parent? = some q) : q.chars.Sublist p.chars := by
  have hsplit : ['/'].intercalate (p.chars.splitOn '/') = p.chars := List.intercalate_splitOn '/'
  have hsteps : p.steps.dropLast.Sublist (p.chars.splitOn '/') :=
    (List.dropLast_sublist _).trans (p.steps_sublist_names.trans List.filter_sublist)
  rw [parent?] at h
  dsimp only at h
  split at h
  · cases h
  · obtain rfl := Option.some.inj h
    rw [ofChars, chars, String.toList_ofList]
    split
    · next habsolute =>
      -- The first piece of an absolute path is empty, so its separator is not among those counted.
      obtain ⟨rest, hrest⟩ : ∃ rest, p.chars = '/' :: rest := by
        rw [isAbsolute, beq_iff_eq] at habsolute
        exact List.head?_eq_some_iff.mp habsolute
      have hpieces : p.steps.dropLast.Sublist (rest.splitOn '/') := by
        have hnames : p.names = (rest.splitOn '/').filter fun name => !name.isEmpty := by
          rw [names, hrest, List.splitOn_cons_eq_if_modifyHead, if_pos (by rfl),
            List.filter_cons_of_neg (by simp)]
        refine (List.dropLast_sublist _).trans (p.steps_sublist_names.trans ?_)
        rw [hnames]
        exact List.filter_sublist
      rw [hrest]
      have hfront := intercalate_sublist ['/'] hpieces
      rw [List.intercalate_splitOn] at hfront
      exact hfront.cons_cons '/'
    · have hfront := intercalate_sublist ['/'] hsteps
      rwa [hsplit] at hfront

/-- Fewer characters need fewer bytes. -/
lemma utf8ByteSize_le_of_sublist {s t : String} (h : s.toList.Sublist t.toList) :
    s.utf8ByteSize ≤ t.utf8ByteSize := by
  have hsize : ∀ u : String,
      u.utf8ByteSize = (u.toList.flatMap String.utf8EncodeChar).length := by
    intro u
    rw [← List.size_toByteArray, ← String.size_toByteArray]
    exact congrArg (fun v : String => v.toByteArray.size) (String.ofList_toList (s := u)).symm
  rw [hsize, hsize]
  exact (h.flatMap _).length_le

/-- The parent of a usable path is usable unless it is empty. -/
lemma IsUsable.parent (hp : p.IsUsable) (h : p.parent? = some q) (hne : q.text ≠ "") :
    q.IsUsable where
  nul := fun hmem => hp.nul ((chars_parent_sublist h).subset hmem)
  nonempty := hne
  short := Nat.lt_of_le_of_lt (utf8ByteSize_le_of_sublist (chars_parent_sublist h)) hp.short
  parts := by
    intro name hname
    rw [Path.parts, names_parent h] at hname
    obtain ⟨piece, hpiece, rfl⟩ := List.mem_map.mp hname
    exact hp.parts _ (List.mem_map_of_mem
      (p.steps_sublist_names.subset (List.dropLast_subset _ hpiece)))

/-- A path of no names, or of a lone dot, does not leave the location that it starts at. -/
lemma eq_origin_of_mem_walk (h : q.names = [] ∨ q.names = [['.']]) {m : Location}
    (hm : m ∈ q.walk) : m = FileTree.origin q := by
  rw [walk, parts] at hm
  rcases h with hnil | hdot
  · rw [hnil] at hm
    simpa [Location.walk, Location.through] using hm
  · have hstep : (FileTree.origin q).step (String.ofList ['.']) = FileTree.origin q :=
      Location.step_dot _
    rw [hdot] at hm
    simpa [Location.walk, Location.through, hstep] using hm

/-- The parent of a path that does not end in a lone dot has all names but the last one, without
the lone dots after the first one. -/
lemma names_parent_of_concat (h : p.parent? = some q) {names : List (List Char)} {last : List Char}
    (hnames : p.names = names ++ [last]) (hlast : last ≠ ['.']) : q.names =
      (if p.isAbsolute && names.head? == some ['.'] then [] else names.take 1) ++
        names.tail.filter (· != ['.']) := by
  rw [names_parent h, steps, hnames]
  cases names with
  | nil =>
    have hfirst : (last == ['.']) = false := beq_eq_false_iff_ne.mpr hlast
    simp [hfirst]
  | cons first rest =>
    have hkept : [last].filter (· != ['.']) = [last] := by simp [hlast]
    have hhead : ((first :: rest).head? == some ['.']) = (first == ['.']) := rfl
    simp only [List.cons_append, List.filter_append, hkept, hhead, List.tail_cons]
    split
    · exact List.dropLast_concat
    · rw [← List.cons_append, List.dropLast_concat]
      rfl

/-- A path that does not end in a lone dot has a parent. -/
lemma exists_parent {names : List (List Char)} {last : List Char}
    (hnames : p.names = names ++ [last]) (hlast : last ≠ ['.']) : ∃ q, p.parent? = some q := by
  have hsteps : p.steps.isEmpty = false := by
    rw [steps, hnames]
    cases names with
    | nil => simp [hlast]
    | cons first rest =>
      simp only [List.cons_append, List.filter_append]
      split <;> simp [hlast]
  exact ⟨_, by rw [parent?, hsteps, if_neg Bool.false_ne_true]⟩

/-- A parent has fewer names. -/
lemma length_names_parent (h : p.parent? = some q) (hne : p.names ≠ []) :
    q.names.length < p.names.length := by
  have hsteps := p.steps_sublist_names.length_le
  have hpos := List.length_pos_iff.mpr hne
  rw [names_parent h, List.length_dropLast]
  omega

/-- Only a parent that is a lone dot ends in one. -/
lemma names_parent_of_getLast? (h : p.parent? = some q) {names : List (List Char)}
    {last : List Char} (hnames : p.names = names ++ [last]) (hlast : last ≠ ['.'])
    (hdot : q.names.getLast? = some ['.']) : q.names = [['.']] := by
  rw [names_parent_of_concat h hnames hlast] at hdot ⊢
  have hkept : names.tail.filter (· != ['.']) = [] := by
    by_contra hne
    rw [List.getLast?_append_of_ne_nil _ hne] at hdot
    have hmem := List.mem_of_getLast? hdot
    simp at hmem
  rw [hkept, List.append_nil] at hdot ⊢
  split
  · next hfirst =>
    rw [if_pos hfirst] at hdot
    cases hdot
  · next hfirst =>
    rw [if_neg hfirst] at hdot
    cases names with
    | nil => cases hdot
    | cons first rest => simpa using hdot

/-- **A path goes through what its parent goes through** or leads to. -/
lemma mem_through_iff (h : p.parent? = some q) {names : List (List Char)} {last : List Char}
    (hnames : p.names = names ++ [last]) (hlast : last ≠ ['.']) (l : Location) :
    l ∈ p.through ↔ l ∈ q.walk := by
  have horigin : FileTree.origin q = FileTree.origin p := by
    rw [FileTree.origin, FileTree.origin, isAbsolute_parent h]
  rw [through, walk, parts, parts, hnames, List.map_append, List.map_singleton,
    Location.through_concat, horigin, names_parent_of_concat h hnames hlast]
  cases names with
  | nil => simp
  | cons first rest =>
    rw [List.map_cons, Location.walk_cons, List.mem_cons, List.tail_cons]
    split
    · next hfirst =>
      obtain ⟨-, hdot⟩ := (Bool.and_eq_true _ _).mp hfirst
      obtain rfl : first = ['.'] := Option.some.inj (beq_iff_eq.mp hdot)
      rw [List.nil_append, Location.mem_walk_filter, Location.step_dot]
      refine ⟨fun hl => hl.elim ?_ id, Or.inr⟩
      rintro rfl
      exact Location.mem_walk_self _ _
    · rw [List.take_succ_cons, List.take_zero, List.singleton_append, List.map_cons,
        Location.walk_cons, List.mem_cons, Location.mem_walk_filter]

/-- A path that leaves the location it starts at has a parent that walks its way. -/
lemma exists_parent_of_leaves (hp : p.IsUsable) (hlast : p.names.getLast? ≠ some ['.'])
    (hleaves : ∃ m ∈ p.through, m ≠ FileTree.origin p) :
    ∃ q, p.parent? = some q ∧ q.IsUsable ∧ q.names.getLast? ≠ some ['.'] ∧
      q.names.length < p.names.length ∧ ∀ m, m ∈ p.through ↔ m ∈ q.walk := by
  have hne : p.names ≠ [] := by
    intro hnil
    obtain ⟨m, hm, -⟩ := hleaves
    rw [through, parts, hnil] at hm
    cases hm
  obtain ⟨names, last, hnames⟩ : ∃ names last, p.names = names ++ [last] :=
    ⟨_, _, (List.dropLast_append_getLast hne).symm⟩
  have hdot : last ≠ ['.'] := by simpa [hnames] using hlast
  obtain ⟨q, hparent⟩ := exists_parent hnames hdot
  have hwalk : ∀ m, m ∈ p.through ↔ m ∈ q.walk := mem_through_iff hparent hnames hdot
  have hq : ¬(q.names = [] ∨ q.names = [['.']]) := by
    intro hstays
    obtain ⟨m, hm, hfar⟩ := hleaves
    apply hfar
    rw [eq_origin_of_mem_walk hstays ((hwalk m).mp hm), FileTree.origin, FileTree.origin,
      isAbsolute_parent hparent]
  have hqtext : q.text ≠ "" := by
    intro htext
    refine hq (Or.inl ?_)
    rw [Path.names, chars, htext]
    rfl
  have hqlast : q.names.getLast? ≠ some ['.'] := fun hqdot =>
    hq (Or.inr (names_parent_of_getLast? hparent hnames hdot hqdot))
  exact ⟨q, hparent, hp.parent hparent hqtext, hqlast, length_names_parent hparent hne, hwalk⟩

end Parent

/-! ## Joined paths -/

section Join

variable {p q : Path} {name : String}

/-- A path that is joined to another one and joined to can be joined in either order. -/
lemma join_assoc (p q : Path) {r : Path} (hr : r.isAbsolute = false) :
    (p.join q).join r = p.join (q.join r) := by
  have hqr : (q.join r).isAbsolute = q.isAbsolute := isAbsolute_join q hr
  have htext : ∀ {a b : Path}, a.chars = b.chars → a = b := by
    intro a b h
    cases a
    cases b
    exact congrArg Path.mk (String.toList_injective h)
  cases hq : q.isAbsolute with
  | true => rw [join_absolute p hq, join_absolute p (hqr.trans hq)]
  | false =>
    apply htext
    rw [chars_join _ hr, chars_join p hq, chars_join p (hqr.trans hq), chars_join q hr]
    by_cases hnil : q.chars = []
    · -- nothing is between, so that the separator is put only once
      have hseparator : q.needsSeparator = false := by rw [needsSeparator, hnil]; rfl
      have hp : (p.join q).needsSeparator = false := by
        rw [needsSeparator, chars_join p hq, hnil, List.append_nil]
        cases hlast : p.needsSeparator with
        | true => simp
        | false => simpa [needsSeparator] using hlast
      simp [hp, hseparator, hnil]
    · have hseparator : (p.join q).needsSeparator = q.needsSeparator := by
        rw [needsSeparator, needsSeparator, chars_join p hq, List.getLast?_append_of_ne_nil _ hnil]
      rw [hseparator]
      simp only [List.append_assoc]

/-- What is before a separator is usable if the whole path is. -/
lemma IsUsable.of_join (h : (p.join q).IsUsable) (hq : q.isAbsolute = false) (hne : p.text ≠ "") :
    p.IsUsable where
  nul := by
    intro hmem
    apply h.nul
    rw [chars_join p hq]
    simp [hmem]
  nonempty := hne
  short := by
    refine Nat.lt_of_le_of_lt (utf8ByteSize_le_of_sublist ?_) h.short
    show p.chars.Sublist (p.join q).chars
    rw [chars_join p hq, List.append_assoc]
    exact List.sublist_append_left _ _
  parts := by
    intro name hname
    apply h.parts
    rw [Path.parts, names_join p hq, List.map_append]
    exact List.mem_append_left _ hname

variable (hname : FileTree.IsPlain name)

include hname

/-- The parts of a path that a name is joined to are followed by the name. -/
lemma parts_join : (p.join ⟨name⟩).parts = p.parts ++ [name] := by
  rw [parts, names_join p (isAbsolute_piece hname.slash), names_piece hname.slash,
    if_neg hname.nonempty, List.map_append, List.map_singleton, String.ofList_toList]
  rfl

/-- It starts where the path does. -/
lemma origin_join : FileTree.origin (p.join ⟨name⟩) = FileTree.origin p := by
  rw [FileTree.origin, FileTree.origin, isAbsolute_join p (isAbsolute_piece hname.slash)]

/-- **A joined name leads below** the end of the path. -/
lemma goal_join : (p.join ⟨name⟩).goal = p.goal ++ [name] := by
  have hdots := hname.dots
  rw [FileTree.isDots, Bool.or_eq_false_iff] at hdots
  rw [goal, parts_join hname, origin_join hname, List.foldl_append, List.foldl_cons,
    List.foldl_nil, Location.step, hdots.1, hdots.2, if_neg Bool.false_ne_true,
    if_neg Bool.false_ne_true]
  rfl

/-- The walk of the path is the way to it. -/
lemma through_join : (p.join ⟨name⟩).through = p.walk := by
  rw [through, parts_join hname, origin_join hname, Location.through_concat]
  rfl

/-- The walk goes on to the location that the name leads to. -/
lemma walk_join : (p.join ⟨name⟩).walk = p.walk ++ [p.goal ++ [name]] := by
  show (p.join ⟨name⟩).through ++ [(p.join ⟨name⟩).goal] = _
  rw [through_join hname, goal_join hname]

/-- A joined name does not end in a separator. -/
lemma needsSeparator_join : (p.join ⟨name⟩).needsSeparator = true := by
  have hnil : name.toList ≠ [] := fun hnil => hname.nonempty (String.toList_eq_nil_iff.mp hnil)
  have hlast : (p.join ⟨name⟩).chars.getLast? = some (name.toList.getLast hnil) := by
    rw [chars_join p (isAbsolute_piece hname.slash)]
    exact (List.getLast?_append_of_ne_nil _ hnil).trans (List.getLast?_eq_some_getLast hnil)
  rw [needsSeparator, hlast, bne_iff_ne]
  intro hslash
  exact hname.slash (hslash ▸ List.getLast_mem hnil)

/-- A path that a name is joined to is not empty. -/
lemma text_join_ne_empty : (p.join ⟨name⟩).text ≠ "" := by
  intro hempty
  have hseparator := needsSeparator_join (p := p) hname
  rw [needsSeparator, chars, hempty] at hseparator
  cases hseparator

/-- It has names. -/
lemma names_join_ne_nil : (p.join ⟨name⟩).names ≠ [] := by
  intro hnil
  have hparts := parts_join (p := p) hname
  rw [parts, hnil] at hparts
  simp at hparts

/-- A joined name can mean a file. -/
lemma demandsDirectory_join : FileTree.demandsDirectory (p.join ⟨name⟩) = false := by
  have hpiece := isAbsolute_piece hname.slash
  have hnil : name.toList ≠ [] := fun hnil => hname.nonempty (String.toList_eq_nil_iff.mp hnil)
  have hnames : (p.join ⟨name⟩).names.getLast? = some name.toList := by
    rw [names_join p hpiece, names_piece hname.slash, if_neg hname.nonempty, List.getLast?_concat]
  have hchars : (p.join ⟨name⟩).chars.getLast? = name.toList.getLast? := by
    rw [chars_join p hpiece]
    exact List.getLast?_append_of_ne_nil _ hnil
  have hdots := hname.dots
  simp only [FileTree.isDots, Bool.or_eq_false_iff, beq_eq_false_iff_ne] at hdots
  simp only [FileTree.demandsDirectory, hnames, hchars, Bool.or_eq_false_iff, beq_eq_false_iff_ne]
  refine ⟨⟨fun hlast => hname.slash (List.mem_of_getLast? hlast), ?_⟩, ?_⟩
  · intro hdot
    exact hdots.1 (String.toList_injective (Option.some.inj hdot))
  · intro hup
    exact hdots.2 (String.toList_injective (Option.some.inj hup))

end Join

end Path

end Constellation
