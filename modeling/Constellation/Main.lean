import Constellation.Command.All
import Std.Time.Format
set_option autoImplicit false

/-!
# The command line

The only part of this library that touches the files of the system. It gathers what lies below the
working directory, lets a command act on that, and writes back what has changed.

## Main definitions

* `CommandLine.gather` — what lies below the working directory.
* `CommandLine.writeBack` — makes the files of the system those of a tree.
* `main` — runs the command that the first argument names.

## Design

Links are passed over, since file trees have none. No program is started from here, so the one that
keeps sessions counts as missing.
-/

namespace Constellation

namespace CommandLine

/-- The number of names in the longest path that file systems allow. -/
def depthLimit : Nat := FileTree.pathLimit / 2

/-- What lies below a location of the working directory, down to some depth. -/
def gather : (depth : Nat) → Location → IO (List (Location × Entry))
  | 0, _ => pure []
  | depth + 1, l => do
    let names ← ((← IO.currentDir) / l.text).readDir
    names.toList.flatMapM fun entry => do
      let place := l ++ [entry.fileName]
      match (← entry.path.symlinkMetadata).type with
      | .dir => return (place, .directory) :: (← gather depth place)
      | .file => return [(place, .file (← IO.FS.readBinFile entry.path))]
      | _ => pure []

/-- Whether two entries are the same. -/
def sameEntry : Entry → Entry → Bool
  | .directory, .directory => true
  | .file a, .file b => a.data == b.data
  | _, _ => false

/-- Whether a location holds the same kind of entry in both trees. -/
def sameKind (before after : FileTree) (l : Location) : Bool :=
  match before.lookUp l, after.lookUp l with
  | some .directory, some .directory => true
  | some (.file _), some (.file _) => true
  | _, _ => false

/-- The entries of a tree, those of a directory after the directory itself. -/
def outermostFirst (tree : FileTree) : List (Location × Entry) :=
  (tree.entries.mergeSort fun a b => decide (a.1.1 ≤ b.1.1)).map fun e => (e.1.2, e.2)

/-- Removes what is gone, the content of a directory before the directory itself. -/
def removeGone (before after : FileTree) : IO Unit :=
  (outermostFirst before).reverse.forM fun (l, entry) => do
    unless sameKind before after l do
      match entry with
      | .directory => IO.FS.removeDir l.text
      | .file _ => IO.FS.removeFile l.text

/-- Makes the files of the system, which are those of one tree, those of another one. -/
def writeBack (before after : FileTree) : IO Unit := do
  removeGone before after
  (outermostFirst after).forM fun (l, entry) => do
    unless (before.lookUp l).any (sameEntry entry) do
      match entry with
      | .directory => IO.FS.createDirAll l.text
      | .file content => IO.FS.writeBinFile l.text content

/-- How the time becomes part of the names of files that a command writes. -/
def stampPattern : Program → String
  | .analyze => "uuuu-MM-dd_HH:mm:ss"
  | _ => "uuuu-MM-dd_HH-mm-ss"

/-- Runs a command in the working directory, and gives the code with which it ends. -/
def run (program : Program) (arguments : List String) : IO UInt32 := do
  let before := FileTree.ofList (← gather depthLimit [])
  let stamp := (← Std.Time.PlainDateTime.now).format (stampPattern program)
  let outcome := program.outcome ⟨(⟨"screen", none⟩ : Screen), stamp⟩ before arguments
  writeBack before outcome.console.tree
  IO.print outcome.console.printed
  IO.eprint outcome.console.warned
  return outcome.code.toUInt32

end CommandLine

end Constellation

open Constellation

/-- Runs the command that the first argument names. -/
def main (arguments : List String) : IO UInt32 := do
  match arguments with
  | name :: rest =>
    match Program.ofName? name with
    | some program => CommandLine.run program rest
    | none =>
      IO.eprintln s!"There is no command {name}."
      return Stop.usage.code.toUInt32
  | [] =>
    let names := ", ".intercalate (Program.all.map Program.name)
    IO.eprintln s!"The commands are {names}."
    return Stop.usage.code.toUInt32
