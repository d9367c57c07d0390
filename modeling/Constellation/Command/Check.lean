import Constellation.Command.Console
set_option autoImplicit false

/-!
# Checking a snapshot directory

The command prints the index of a directory of snapshots, and says no if snapshots are missing. On
demand it also reads all of them.

## Main definitions

* `Check.command` — the command.
-/

namespace Constellation

namespace Check

/-- The arguments of the command. -/
def spec : CommandSpec where
  options := [.number "step-ns" none, ⟨"parse", none, .flag, false, false⟩, .help,
    .inform "version" 'V']
  positionals := 1
  acceptsPositional := fun value => !value.isEmpty

/-- The number of missing steps that are listed. -/
def listedSteps : Nat := 20

/-- The lines about an index. -/
def report (index : Snapshot.Index) : List String :=
  let step :=
    match index.step with
    | some step => s!"{step}ns"
    | none => "unknown (single snapshot)"
  let missing := ", ".intercalate ((index.missing.take listedSteps).map toString)
  [s!"directory:      {index.directory.text}", s!"snapshot files: {index.times.length}",
    s!"step duration:  {step}", s!"time steps:     {index.stepCount}"] ++
    if index.isComplete then [] else [s!"missing steps:  {index.missing.length} ({missing})"]

/-- The faults of the snapshots of an index. -/
def faults (tree : FileTree) (index : Snapshot.Index) : List SnapshotFault :=
  index.times.filterMap fun time =>
    match Snapshot.readAt tree (Snapshot.path index.directory time) with
    | .ok _ => none
    | .error fault => some fault

/-- The command. -/
def command (arguments : List String) : Command Unit := do
  let given ← spec.arguments arguments
  let tree ← Command.files
  let directory : Path := ⟨given.positionals.headD ""⟩
  match Snapshot.discover tree directory (given.number? "step-ns") with
  | .error fault =>
    Command.warnLine fault.message
    throw .refused
  | .ok index =>
    Command.printLines (report index)
    let found := if given.has "parse" then faults tree index else []
    Command.printLines (found.map SnapshotFault.message)
    if !index.isComplete || !found.isEmpty then throw .refused

end Check

end Constellation
