import Constellation.FileTree.Files
import Constellation.Snapshot.Route
set_option autoImplicit false

/-!
# Faults of snapshots

## Main definitions

* `SnapshotFault` — why snapshots cannot be found or read.
* `SnapshotFault.message` — its wording.
-/

namespace Constellation

/-- Why a file cannot be read as comma separated values. -/
inductive TableFault
  /-- The file cannot be read. -/
  | file (fault : FileFault)
  /-- A record, given with its number from zero, has a field that is no text. -/
  | noText (number : Nat) (record : Csv.Record) (bad : Csv.BadField)
  deriving DecidableEq

/-- The wording of a fault. -/
def TableFault.message : TableFault → String
  | file fault => fault.message
  | noText number record bad => bad.message number record

/-- Why snapshots cannot be found or read. -/
inductive SnapshotFault
  /-- There is no such file. -/
  | missing (path : Path)
  /-- The file cannot be opened. -/
  | file (path : Path) (fault : FileFault)
  /-- The content of the file cannot be read. -/
  | table (path : Path) (fault : TableFault)
  /-- A row of the file is no route. -/
  | malformed (path : Path) (line : Nat) (fault : RowFault)
  /-- The path of a directory is no text. -/
  | invalidPath (path : List Symbol)
  /-- A directory that was found cannot be listed. -/
  | unlistable (directory : Path) (cause : FileFault)
  /-- A directory holds no snapshots. -/
  | empty (directory : Path)
  /-- A time is no multiple of the step duration. -/
  | irregular (time step : Nat)
  deriving DecidableEq

/-- The wording of a fault. -/
def SnapshotFault.message : SnapshotFault → String
  | missing path => s!"Snapshot file {Quoted.ofText path.text} does not exist"
  | file path fault => s!"IO Error on {Quoted.ofText path.text}: {fault.message}"
  | table path fault => s!"CSV Error on {Quoted.ofText path.text}: {fault.message}"
  | malformed path line fault =>
    s!"Malformed line {line} in {Quoted.ofText path.text}: {fault.message}"
  | invalidPath path => s!"Path {Quoted.ofSymbols path} is not valid unicode"
  | unlistable directory cause =>
    s!"Glob Error: attempting to read `{directory.text}` resulted in an error: {cause.message}"
  | empty directory => s!"No snapshot files found in {Quoted.ofText directory.text}"
  | irregular time step =>
    s!"Snapshot at {time}ns is not a multiple of the step duration {step}ns"

namespace Snapshot

/-- Reads the routes of a content, where `path` is only named in faults. -/
def parse (path : Path) (content : ByteArray) : Except SnapshotFault (List Route) :=
  match Route.ofContent content with
  | .ok routes => .ok routes
  | .error (.noText number record bad) => .error (.table path (.noText number record bad))
  | .error (.malformed line fault) => .error (.malformed path line fault)

/-- Reads the snapshot at a path. A directory can be opened, but it has no content. -/
def readAt (tree : FileTree) (path : Path) : Except SnapshotFault (List Route) :=
  match tree.entryAt path with
  | .ok (.file content) => parse path content
  | .ok .directory => .error (.table path (.file .isADirectory))
  | .error .notFound => .error (.missing path)
  | .error fault => .error (.file path fault)

end Snapshot

end Constellation
