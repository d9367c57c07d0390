import Constellation.FileTree.Basic
set_option autoImplicit false

/-!
# Searching a directory

A search finds a directory piece by piece, where a piece is what stands between two separators of
a path. It differs from following a path in what it looks at on the way.

## Main definitions

* `FileTree.Spot` — where a search has come to.
* `FileTree.advanceSearch` — the spot after one more piece, if there is one.
* `FileTree.namesIn` — the names of what a directory holds, as a search finds them.

## Design

A plain piece is looked up through the whole path to it. A piece with a character that means
something in a pattern is looked for in a listing of the directory before it, so its own path is
never looked up and may even be too long. A piece of dots leads on from any directory. Two
neighbouring separators have an empty piece between them, which is a plain one.

The path of a spot below the working directory does not start with a lone dot. Hence an empty piece
right after it is looked up as the empty path, where nothing is.
-/

namespace Constellation

namespace FileTree

/-- Where a search has come to. -/
structure Spot where
  /-- The path that leads there. -/
  path : Path
  /-- Whether a directory was found there. -/
  isDirectory : Bool
  deriving DecidableEq, Repr

/-- A directory that should be listed but cannot be. -/
structure ListingFault where
  /-- The path of the directory. -/
  path : Path
  /-- Why it cannot be listed. -/
  cause : FileFault
  deriving DecidableEq, Repr

namespace Spot

/-- The working directory. -/
def here : Spot := ⟨⟨"."⟩, true⟩

/-- The root of the file system. -/
def root : Spot := ⟨⟨"/"⟩, true⟩

/-- The path to a piece. -/
def pathTo (spot : Spot) (piece : String) : Path :=
  if spot.path == here.path then ⟨piece⟩ else spot.path.join ⟨piece⟩

end Spot

/-- Whether a piece has a character that means something in a pattern. -/
def isListed (piece : String) : Bool :=
  piece.toList.any fun c => c = '?' || c = '*' || c = '[' || c = ']'

/-- Whether a piece leads to the same directory or to the one above it. -/
def isDots (piece : String) : Bool := piece == "." || piece == ".."

/-- The location of the directory at a spot, if there is one. -/
def directoryAt (tree : FileTree) (spot : Spot) : Except ListingFault (Option Location) :=
  if !spot.isDirectory then .ok none
  else
    match tree.resolve spot.path with
    | .ok l => .ok (some l)
    | .error cause => .error ⟨spot.path, cause⟩

/-- The spot after one more piece, if there is one. -/
def advanceSearch (tree : FileTree) (spot : Spot) (piece : String) :
    Except ListingFault (Option Spot) :=
  let path := spot.pathTo piece
  if isListed piece then do
    match ← tree.directoryAt spot with
    | none => pure none
    | some l => pure ((tree.lookUp (l ++ [piece])).map fun entry => ⟨path, entry.isDirectory⟩)
  else if isDots piece then
    .ok (if spot.isDirectory then some ⟨path, tree.isDirectory path⟩ else none)
  else
    match tree.entryAt path with
    | .ok entry => .ok (some ⟨path, entry.isDirectory⟩)
    | .error _ => .ok none

/-- The spot after some more pieces, if there is one. -/
def search (tree : FileTree) (spot : Spot) : List String → Except ListingFault (Option Spot)
  | [] => .ok (some spot)
  | piece :: pieces =>
    match tree.advanceSearch spot piece with
    | .ok (some next) => search tree next pieces
    | other => other

/-- Where the search for a path starts, and the pieces of the path. A path that starts with a
separator, as the empty path does once one is put after it, starts at the root. -/
def searchPlan (p : Path) : Spot × List String :=
  let pieces := (p.chars.splitOn '/').map String.ofList
  if p.text.isEmpty || p.isAbsolute then (Spot.root, pieces.tail) else (Spot.here, pieces)

/-- The names of what a directory holds, as a search finds them. -/
def namesIn (tree : FileTree) (directory : Path) : Except ListingFault (List String) := do
  let (start, pieces) := searchPlan directory
  match ← tree.search start pieces with
  | none => pure []
  | some spot =>
    match ← tree.directoryAt spot with
    | none => pure []
    | some l => pure (tree.namesBelow l)

end FileTree

end Constellation
