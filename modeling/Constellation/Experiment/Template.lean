import Constellation.Experiment.Expansion
set_option autoImplicit false

/-!
# Filling templates

Each run gets a configuration file of its own, which is a copy of a template with the values of
the run in place of the placeholders.

## Main definitions

* `Run.placeholders` — the placeholders and their values.
* `Materializer` — a template and the experiment directory that it is used in.
* `Materializer.materialize`, `Materializer.materializeAll` — write the configuration files.
* `clearOutputs` — removes what an earlier generation left.

## Design

The placeholders are replaced one after the other in the order in which they are listed. A value
that holds a later placeholder is therefore filled in its turn.
-/

namespace Constellation

namespace Run

/-- In a configuration file doubles are positional from `0.0001` up to sixteen digits before the
point, and a positive exponent has no sign. -/
def realLayout : Binary64.Layout := ⟨-4, 16, false, .up⟩

/-- The placeholders and their values for a run. -/
def placeholders (run : Run) : List (String × String) :=
  let real (x : Float) : String := Binary64.write realLayout x
  [("[SATELLITE-NETWORK]", run.network),
    ("[DYNAMIC-STATE]", run.dynamicState),
    ("[DYNAMIC-STATE-UPDATE-INTERVAL-NS]", toString run.updateIntervalNs),
    ("[SIMULATION-END-TIME-NS]", toString run.endTimeNs),
    ("[ISL-DATA-RATE-MEGABIT-PER-S]", real run.islRate),
    ("[GSL-DATA-RATE-MEGABIT-PER-S]", real run.gslRate),
    ("[ISL-MAX-QUEUE-SIZE-PKTS]", toString run.islQueue),
    ("[GSL-MAX-QUEUE-SIZE-PKTS]", toString run.gslQueue),
    ("[ENABLE-ISL-UTILIZATION-TRACKING]", toString run.trackUtilization),
    ("[ISL-UTILIZATION-TRACKING-INTERVAL-NS]", toString run.trackingIntervalNs),
    ("[FROM-ID]", toString run.source),
    ("[TO-ID]", toString run.destination),
    ("[ISL-ERROR-RATE]", real run.islErrorRate),
    ("[GSL-ERROR-RATE]", real run.gslErrorRate),
    ("[NDN-CLIENT]", run.client.name)]

/-- The name of the configuration file of a run. -/
def configurationFile : Path := ⟨"config_ns3.properties"⟩

end Run

/-- Why the configuration files cannot be written. -/
inductive TemplateFault
  /-- There is no such template. -/
  | missing (template : Path)
  /-- A file operation failed. -/
  | file (path : Path) (fault : FileFault)
  deriving DecidableEq, Repr

/-- The wording of a fault. -/
def TemplateFault.message : TemplateFault → String
  | missing template => s!"Template {Quoted.ofText template.text} does not exist"
  | file path fault => s!"IO Error on {Quoted.ofText path.text}: {fault.message}"

/-- A file operation at a path, whose faults name that path. -/
def atPath {α : Type} (path : Path) (action : Files FileFault α) : Files TemplateFault α :=
  Files.blame (.file path) action

/-- A template and the experiment directory that it is used in. -/
structure Materializer where
  /-- The template. -/
  template : Path
  /-- The experiment directory. -/
  directory : Path
  deriving DecidableEq, Repr

namespace Materializer

/-- Checks that the template is a file. -/
def ofTemplate (template directory : Path) : Files TemplateFault Materializer := do
  if (← get).isFile template then pure ⟨template, directory⟩ else throw (.missing template)

/-- The directory of a run. -/
def runDirectory (m : Materializer) (run : Run) : Path := m.directory.join run.directory

/-- The configuration file of a run. -/
def configurationPath (m : Materializer) (run : Run) : Path :=
  (m.runDirectory run).join Run.configurationFile

/-- Writes the configuration file of a run into a fresh directory. -/
def materialize (m : Materializer) (run : Run) : Files TemplateFault Path := do
  let directory := m.runDirectory run
  atPath directory (Files.recreate directory)
  let path := m.configurationPath run
  atPath path (Files.copy m.template path)
  atPath path (Files.substitute path run.placeholders)
  pure path

/-- Writes the configuration files of all runs, up to the first fault. -/
def materializeAll (m : Materializer) : List Run → Files TemplateFault (List Path)
  | [] => pure []
  | run :: runs => do
    let path ← m.materialize run
    let paths ← materializeAll m runs
    pure (path :: paths)

end Materializer

/-- The directories below that of an experiment that hold outputs. -/
def outputDirectories : List Path := [Run.runsDirectory, ⟨"pdf"⟩, ⟨"data"⟩]

/-- Removes some paths below a directory. -/
def removeBelow (directory : Path) : List Path → Files TemplateFault Unit
  | [] => pure ()
  | p :: rest => do
    atPath (directory.join p) (Files.removeAll (directory.join p))
    removeBelow directory rest

/-- Removes what an earlier generation left, and makes the directory for the runs. -/
def clearOutputs (directory : Path) : Files TemplateFault Unit := do
  removeBelow directory outputDirectories
  atPath (directory.join Run.runsDirectory) (Files.makeAll (directory.join Run.runsDirectory))

end Constellation
