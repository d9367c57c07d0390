import Constellation.Proofs.FileTree.Following
set_option autoImplicit false

/-!
# Where a search ends

A search for a directory looks at other things on its way than one who follows the path does. Yet it
ends at no other location: where it finds names, the path leads to a directory that has them.

## Main definitions

* `FileTree.Spot.Agrees` — the path of a spot leads where some names lead.

## Main results

* `FileTree.Spot.Agrees.advanceSearch`, `FileTree.Spot.Agrees.search` — a search goes on like the
  names that it is made for, piece by piece.
* `FileTree.exists_location_of_namesIn` — the names that are found are those at a location.
* `FileTree.entryAt_join_ne_notFound`, `FileTree.mem_of_entryAt_join` — a file is found under its
  path precisely if its name is found.

## Design

The empty path is left out. A search takes it for the root, and a path that is joined to it starts
at the working directory.
-/

namespace Constellation

namespace FileTree

variable {tree : FileTree}

/-! ## Searches -/

namespace Spot

/-- The path of a spot leads to where some names lead, and if a directory is said to be there, there
is one. -/
structure Agrees (tree : FileTree) (spot : Spot) (start : Location) (names : List String) :
    Prop where
  /-- The path leads to where the names lead. -/
  follow : tree.follow spot.path = tree.advanceAll start names
  /-- What is said to be a directory is one. -/
  isDirectory : spot.isDirectory = true →
    ∀ l, tree.follow spot.path = .ok l → tree.lookUp l = some .directory

/-- The names in a piece: itself, unless it is empty. -/
def namesOf (piece : String) : List String := if piece = "" then [] else [piece]

/-- A piece that is looked for in a listing is a name other than dots. -/
lemma namesOf_of_isListed {piece : String} (h : isListed piece = true) :
    namesOf piece = [piece] ∧ isDots piece = false := by
  constructor
  · rw [namesOf, if_neg]
    rintro rfl
    cases h
  · rw [isDots, Bool.or_eq_false_iff, beq_eq_false_iff_ne, beq_eq_false_iff_ne]
    constructor
    · rintro rfl
      revert h
      decide
    · rintro rfl
      revert h
      decide

/-- The path to a piece leads from where the path of the spot leads. -/
lemma follow_pathTo (tree : FileTree) (spot : Spot) {piece : String} (h : '/' ∉ piece.toList) :
    tree.follow (spot.pathTo piece) =
      (tree.follow spot.path).bind fun l => tree.advanceAll l (namesOf piece) := by
  have hnames : (Path.names ⟨piece⟩).map String.ofList = namesOf piece := by
    rw [Path.names_piece h, namesOf]
    split <;> simp
  rw [pathTo]
  split
  · next hhere =>
    rw [eq_of_beq hhere, FileTree.follow, origin, Path.isAbsolute_piece h, hnames]
    rfl
  · rw [follow_join tree spot.path (Path.isAbsolute_piece h), hnames]

/-- A spot that is found lies at the path to its piece. What is there has been looked up below the
location of the spot before it, or under this path. -/
lemma advanceSearch_cases {spot next : Spot} {piece : String}
    (h : tree.advanceSearch spot piece = .ok (some next)) :
    next.path = spot.pathTo piece ∧
      ((isListed piece = true ∧ ∃ l entry, tree.resolve spot.path = .ok l ∧
          tree.lookUp (l ++ [piece]) = some entry ∧ next.isDirectory = entry.isDirectory) ∨
        next.isDirectory = tree.isDirectory (spot.pathTo piece)) := by
  rw [advanceSearch] at h
  split at h
  · next hlisted =>
    rw [directoryAt] at h
    split at h
    · cases h
    · cases hl : tree.resolve spot.path with
      | error cause =>
        rw [hl] at h
        cases h
      | ok l =>
        simp only [hl] at h
        have hfound := Option.map_eq_some_iff.mp (Except.ok.inj h)
        obtain ⟨entry, hentry, rfl⟩ := hfound
        exact ⟨rfl, Or.inl ⟨hlisted, l, entry, rfl, hentry, rfl⟩⟩
  · split at h
    · split at h
      · cases h
        exact ⟨rfl, Or.inr rfl⟩
      · cases h
    · cases hentry : tree.entryAt (spot.pathTo piece) with
      | error fault =>
        simp only [hentry] at h
        cases h
      | ok entry =>
        simp only [hentry] at h
        cases h
        refine ⟨rfl, Or.inr ?_⟩
        rw [FileTree.isDirectory, hentry]

/-- **A search goes on like the names that it is made for.** -/
lemma Agrees.advanceSearch {spot next : Spot} {piece : String} {start : Location}
    {names : List String} (h : spot.Agrees tree start names) (hslash : '/' ∉ piece.toList)
    (hnext : tree.advanceSearch spot piece = .ok (some next)) :
    next.Agrees tree start (names ++ namesOf piece) := by
  obtain ⟨hpath, hcases⟩ := advanceSearch_cases hnext
  have hfollow := follow_pathTo tree spot hslash
  constructor
  · rw [hpath, hfollow, h.follow, advanceAll_append]
  · intro hdirectory l hl
    rw [hpath] at hl
    rcases hcases with ⟨hlisted, m, entry, hm, hentry, heq⟩ | heq
    · -- The entry was looked up below the spot before, and its path leads to the same place.
      obtain ⟨hnames, hdots⟩ := namesOf_of_isListed hlisted
      rw [hfollow, follow_of_resolve hm, hnames] at hl
      have hadvance : tree.advance m piece = .ok l :=
        (advanceAll_singleton tree m piece).symm.trans hl
      obtain rfl := eq_append_of_advance hadvance hdots
      rw [hentry, eq_directory_of_isDirectory (heq.symm.trans hdirectory)]
    · rw [heq] at hdirectory
      exact lookUp_of_entryAt (entryAt_of_isDirectory hdirectory) hl

/-- **Where a search ends, the names lead** that it is made for.

**Proof sketch.** Induction on the pieces, where each of them adds its name to those before it. -/
lemma Agrees.search {spot last : Spot} {start : Location} {names pieces : List String}
    (h : spot.Agrees tree start names) (hslash : ∀ piece ∈ pieces, '/' ∉ piece.toList)
    (hlast : tree.search spot pieces = .ok (some last)) :
    last.Agrees tree start (names ++ pieces.flatMap namesOf) := by
  induction pieces generalizing spot names with
  | nil =>
    cases hlast
    rw [List.flatMap_nil, List.append_nil]
    exact h
  | cons piece pieces ih =>
    rw [List.forall_mem_cons] at hslash
    rw [FileTree.search] at hlast
    split at hlast
    · next nearer hnext =>
      have hgoes := ih (h.advanceSearch hslash.1 hnext) hslash.2 hlast
      rw [List.append_assoc] at hgoes
      exact hgoes
    · next other hother => exact absurd hlast (hother last)

/-- The names of the pieces of a path are the names in the path. -/
lemma flatMap_namesOf (pieces : List (List Char)) :
    (pieces.map String.ofList).flatMap namesOf =
      (pieces.filter fun piece => !piece.isEmpty).map String.ofList := by
  induction pieces with
  | nil => rfl
  | cons piece pieces ih =>
    rw [List.map_cons, List.flatMap_cons, ih]
    cases piece with
    | nil => rfl
    | cons c rest =>
      have hne : String.ofList (c :: rest) ≠ "" := by
        intro heq
        have htoList := congrArg String.toList heq
        simp at htoList
      rw [namesOf, if_neg hne]
      rfl

/-- **The search for a path starts where the path starts**, and is made for its names. -/
lemma agrees_searchPlan (tree : FileTree) {p : Path} (hp : p.text ≠ "") :
    (searchPlan p).1.Agrees tree (origin p) [] ∧
      (∀ piece ∈ (searchPlan p).2, '/' ∉ piece.toList) ∧
      (searchPlan p).2.flatMap namesOf = p.names.map String.ofList := by
  have hslash : ∀ piece ∈ (p.chars.splitOn '/').map String.ofList, '/' ∉ piece.toList := by
    intro piece hpiece
    obtain ⟨cs, hcs, rfl⟩ := List.mem_map.mp hpiece
    rw [String.toList_ofList]
    exact Path.slash_notMem_of_mem_splitOn hcs
  have hempty : p.text.isEmpty = false := by
    simpa [String.isEmpty_iff] using hp
  have hnames : ((p.chars.splitOn '/').map String.ofList).flatMap namesOf =
      p.names.map String.ofList := flatMap_namesOf _
  rw [searchPlan, hempty, Bool.false_or, origin]
  cases habsolute : p.isAbsolute with
  | true =>
    -- The first piece of a path that starts with a separator is empty, and has no name.
    obtain ⟨rest, hchars⟩ : ∃ rest, p.chars = '/' :: rest :=
      List.head?_eq_some_iff.mp (eq_of_beq habsolute)
    have hpieces : p.chars.splitOn '/' = [] :: rest.splitOn '/' := by
      rw [hchars, List.splitOn_cons_eq_if_modifyHead]
      rfl
    rw [hpieces] at hslash hnames
    simp only [if_true, hpieces, List.map_cons, List.tail_cons]
    refine ⟨⟨rfl, ?_⟩, fun piece hpiece => hslash piece (List.mem_cons_of_mem _ hpiece), hnames⟩
    intro _ l hl
    cases hl
    rfl
  | false =>
    simp only [Bool.false_eq_true, if_false]
    refine ⟨⟨rfl, ?_⟩, hslash, hnames⟩
    intro _ l hl
    cases hl
    rfl

end Spot

/-- Names are found at a spot where a directory is. -/
lemma exists_spot_of_namesIn {p : Path} {names : List String} (h : tree.namesIn p = .ok names)
    (hnames : names ≠ []) :
    ∃ spot l, tree.search (searchPlan p).1 (searchPlan p).2 = .ok (some spot) ∧
      spot.isDirectory = true ∧ tree.resolve spot.path = .ok l ∧ names = tree.namesBelow l := by
  rw [namesIn] at h
  generalize searchPlan p = plan at h ⊢
  obtain ⟨start, pieces⟩ := plan
  dsimp only at h ⊢
  cases hsearch : tree.search start pieces with
  | error fault =>
    rw [hsearch] at h
    cases h
  | ok found =>
    rw [hsearch] at h
    cases found with
    | none =>
      cases h
      exact absurd rfl hnames
    | some spot =>
      refine ⟨spot, ?_⟩
      change (tree.directoryAt spot >>= _) = _ at h
      rw [directoryAt] at h
      split at h
      · cases h
        exact absurd rfl hnames
      · next hdirectory =>
        cases hl : tree.resolve spot.path with
        | error fault =>
          rw [hl] at h
          cases h
        | ok l =>
          rw [hl] at h
          cases h
          exact ⟨l, rfl, by simpa using hdirectory, rfl, rfl⟩

/-- **The names that are found are those at a location** to which the path leads. -/
lemma exists_location_of_namesIn {p : Path} {names : List String} (hp : p.text ≠ "")
    (h : tree.namesIn p = .ok names) (hnames : names ≠ []) :
    ∃ l, tree.follow p = .ok l ∧ tree.lookUp l = some .directory ∧ names = tree.namesBelow l := by
  obtain ⟨hstart, hslash, hflatMap⟩ := Spot.agrees_searchPlan tree hp
  obtain ⟨spot, l, hsearch, hdirectory, hl, heq⟩ := exists_spot_of_namesIn h hnames
  have hagrees := hstart.search hslash hsearch
  have hspot : tree.follow spot.path = .ok l := follow_of_resolve hl
  refine ⟨l, ?_, hagrees.isDirectory hdirectory l hspot, heq⟩
  rw [hagrees.follow, List.nil_append, hflatMap] at hspot
  exact hspot

/-! ## Names in a directory -/

variable {name : String}

/-- **A file whose name is found is found under its path.** -/
lemma entryAt_join_ne_notFound (hkeyed : tree.IsKeyed) {p : Path} (hp : p.text ≠ "")
    {names : List String} (h : tree.namesIn p = .ok names) (hname : IsPlain name)
    (hmem : name ∈ names) : tree.entryAt (p.join ⟨name⟩) ≠ .error .notFound := by
  obtain ⟨l, hl, hdirectory, rfl⟩ := exists_location_of_namesIn hp h (List.ne_nil_of_mem hmem)
  rw [entryAt]
  rcases resolve_join hl hdirectory hname with hok | ⟨fault, herror, hne⟩
  · simp only [hok]
    split
    · next hnone => exact absurd hnone (lookUp_ne_none_of_mem_namesBelow hkeyed hmem)
    · intro heq
      cases heq
    · split
      · intro heq
        cases heq
      · intro heq
        cases heq
  · simp only [herror]
    intro heq
    exact hne (Except.error.inj heq)

/-- **The name of a file that is found under its path is found**, if any names are. -/
lemma mem_of_entryAt_join {p : Path} (hp : p.text ≠ "") {names : List String}
    (h : tree.namesIn p = .ok names) (hnames : names ≠ []) (hname : IsPlain name) {entry : Entry}
    (hentry : tree.entryAt (p.join ⟨name⟩) = .ok entry) : name ∈ names := by
  obtain ⟨l, hl, hdirectory, rfl⟩ := exists_location_of_namesIn hp h hnames
  rcases resolve_join hl hdirectory hname with hok | ⟨fault, herror, -⟩
  · exact mem_namesBelow_of_lookUp hname (lookUp_of_entryAt hentry (follow_of_resolve hok))
  · rw [entryAt, herror] at hentry
    cases hentry

end FileTree

end Constellation
