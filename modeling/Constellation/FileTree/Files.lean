import Constellation.FileTree.Basic
import Constellation.Text.Symbol
set_option autoImplicit false

/-!
# Operations on files

## Main definitions

* `Files` — computations that read and change a file tree and may be refused.
* `Files.readBytes`, `Files.readText`, `Files.write`, `Files.copy` — single files.
* `Files.makeAll` — makes a directory and all directories on the way.
* `Files.removeAll` — removes a file, or a directory with everything in it.
* `Files.recreate` — makes an empty directory in place of what was there.
* `Files.substitute` — replaces literal patterns in a file.

## Design

A refused operation may have changed the tree before it was refused, so the tree after it is part
of the outcome. A removal that finds nothing has nothing to do. A directory is emptied before it is
removed, and its path is followed again in between, so a path that leads through its own content
ends nowhere by then.
-/

namespace Constellation

/-- Computations that read and change a file tree and may be refused. -/
abbrev Files (ε : Type) : Type → Type := ExceptT ε (StateM FileTree)

namespace Files

variable {ε α : Type}

/-- What a function says of the current tree. -/
def ask (f : FileTree → Except ε α) : Files ε α := do
  match f (← get) with
  | .ok a => pure a
  | .error fault => throw fault

/-- The same computation with its faults put into context. -/
def blame {δ : Type} (context : δ → ε) (action : Files δ α) : Files ε α :=
  ExceptT.mk do
    match ← action.run with
    | .ok a => pure (.ok a)
    | .error fault => pure (.error (context fault))

/-- The content of a file. -/
def readBytes (p : Path) : Files FileFault ByteArray := do
  match ← ask (·.entryAt p) with
  | .file content => pure content
  | .directory => throw .isADirectory

/-- The content of a file as text. -/
def readText (p : Path) : Files FileFault String := do
  match String.fromUTF8? (← readBytes p) with
  | some text => pure text
  | none => throw .notText

/-- The location at which a file can be written. The directory that holds it has to exist, which
following the path makes sure of. -/
def target (tree : FileTree) (p : Path) : Except FileFault Location :=
  match tree.resolve p with
  | .error fault => .error fault
  | .ok l =>
    match tree.lookUp l with
    | some .directory => .error .isADirectory
    | _ => if FileTree.demandsDirectory p then .error .isADirectory else .ok l

/-- Writes a file with the given content, in place of an earlier one. -/
def writeBytes (p : Path) (content : ByteArray) : Files FileFault Unit := do
  let l ← ask (target · p)
  modify fun tree => tree.put l (.file content)

/-- Writes a file with the given text, in place of an earlier one. -/
def write (p : Path) (text : String) : Files FileFault Unit := writeBytes p text.toUTF8

/-- Makes one directory, in a directory that exists. -/
def make (p : Path) : Files FileFault Unit := do
  let l ← ask (·.resolve p)
  match (← get).lookUp l with
  | some _ => throw .alreadyExists
  | none => modify fun tree => tree.put l .directory

/-- Makes a directory unless there is one. The fault of a failed attempt counts only if the path
leads to no directory after it. -/
def makeIfMissing (p : Path) : Files FileFault Unit := do
  let before ← get
  match (make p).run before with
  | (.ok (), after) => set after
  | (.error fault, _) => if before.isDirectory p then pure () else throw fault

/-- Makes a directory and all directories on the way to it, where `fuel` bounds their number. -/
def makeAllWithin : (fuel : Nat) → Path → Files FileFault Unit
  | 0, _ => throw .noParent
  | fuel + 1, p => do
    if p.text.isEmpty then pure ()
    else
      let before ← get
      match (make p).run before with
      | (.ok (), after) => set after
      | (.error .notFound, _) =>
        match p.parent? with
        | none => throw .noParent
        | some parent =>
          makeAllWithin fuel parent
          makeIfMissing p
      | (.error fault, _) => if before.isDirectory p then pure () else throw fault

/-- Makes a directory and all directories on the way to it. -/
def makeAll (p : Path) : Files FileFault Unit := makeAllWithin (p.chars.length + 1) p

/-- Whether the last name in a path is a lone dot. -/
def endsInDot (p : Path) : Bool := p.names.getLast? == some ['.']

/-- Removes an empty directory. The path has to be followed again for that, and a name that ends in
a dot is refused. -/
def removeEmpty (p : Path) : Files FileFault Unit := do
  let l ← ask (·.resolve p)
  if endsInDot p then throw .invalidArgument
  modify fun tree => tree.remove l

/-- Removes a directory with everything in it. Where the path goes through something in the
directory, the way to it has gone with the content. -/
def removeDirectory (p : Path) : Files FileFault Unit := do
  let l ← ask (·.resolve p)
  modify fun tree => tree.clear l
  removeEmpty p

/-- Removes a file. -/
def removeFile (p : Path) : Files FileFault Unit := do
  let l ← ask (·.resolve p)
  match ← ask (·.entryAt p) with
  | .file _ => modify fun tree => tree.remove l
  | .directory => throw .isADirectory

/-- Removes a file, or a directory with everything in it. Removing nothing is no fault. -/
def removeAll (p : Path) : Files FileFault Unit := do
  let before ← get
  let removal := if before.isDirectory p then removeDirectory p else removeFile p
  match removal.run before with
  | (.ok (), after) => set after
  | (.error .notFound, after) => set after
  | (.error fault, after) =>
    set after
    throw fault

/-- Makes an empty directory in place of what was there. -/
def recreate (p : Path) : Files FileFault Unit := do
  removeAll p
  makeAll p

/-- Copies a file over another one. The target is emptied before the source is read. -/
def copy (source goal : Path) : Files FileFault Unit := do
  match ← ask (·.entryAt source) with
  | .directory => throw .notAFile
  | .file _ =>
    writeBytes goal ByteArray.empty
    writeBytes goal (← readBytes source)

/-- Replaces literal patterns in a text, one after the other. -/
def substituteText (replacements : List (String × String)) (text : String) : String :=
  String.ofList (replacements.foldl
    (fun text (pattern, replacement) => replaceAll pattern.toList replacement.toList text)
    text.toList)

/-- Replaces literal patterns in a file, one after the other. -/
def substitute (p : Path) (replacements : List (String × String)) : Files FileFault Unit := do
  let text ← readText p
  write p (substituteText replacements text)

end Files

end Constellation
