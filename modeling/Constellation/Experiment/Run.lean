import Constellation.Experiment.Basic
set_option autoImplicit false

/-!
# Runs

## Main definitions

* `Run` — one run of a simulation with everything that it depends on.
* `Run.nameOf` — the name of a run.
* `Run.directory` — the directory of a run.
* `Run.Filter` — a choice of runs by their names.
* `Run.loadList`, `Run.storeList` — the list of runs in a file.
-/

namespace Constellation

/-- One run of a simulation. -/
structure Run where
  /-- The name, which is also that of its directory. -/
  name : String
  /-- The name of the topology. -/
  topology : String
  /-- The generated network. -/
  network : String
  /-- The directory with the routes. -/
  dynamicState : String
  /-- Nanoseconds between two updates of the routes. -/
  updateIntervalNs : UInt64
  /-- The simulated time in nanoseconds. -/
  endTimeNs : UInt64
  /-- Megabits per second on a link between satellites. -/
  islRate : Float
  /-- Packets that wait for a link between satellites. -/
  islQueue : UInt64
  /-- Megabits per second on a link to the ground. -/
  gslRate : Float
  /-- Packets that wait for a link to the ground. -/
  gslQueue : UInt64
  /-- Whether the load of the links between satellites is recorded. -/
  trackUtilization : Bool
  /-- Nanoseconds between two such records. -/
  trackingIntervalNs : UInt64
  /-- The source. -/
  source : NodeId
  /-- The destination. -/
  destination : NodeId
  /-- The description of the pair of ground stations. -/
  pairLabel : String
  /-- The client. -/
  client : Client
  /-- The algorithm. -/
  algorithm : Algorithm
  /-- The share of packets lost between satellites. -/
  islErrorRate : Float
  /-- The share of packets lost on the way to the ground. -/
  gslErrorRate : Float
  deriving BEq

namespace Run

/-- The directory that holds the directories of all runs. -/
def runsDirectory : Path := ⟨"runs"⟩

/-- The name of the file with the list of runs. -/
def listFile : Path := ⟨"run_list.json"⟩

/-- The name of a run. The loss ratio stands there once for each kind of link. -/
def nameOf (topology : String) (source destination : NodeId) (client : Client)
    (algorithm : Algorithm) (loss : LossRatio) : String :=
  s!"{topology}_{source}_to_{destination}_with_{client.name}_{algorithm.name}" ++
    s!"_loss_{loss.label}_{loss.label}"

/-- The directory of a run below that of its experiment. -/
def directory (run : Run) : Path := runsDirectory.join ⟨run.name⟩

/-- A run before any field is read. -/
def blank : Run where
  name := ""
  topology := ""
  network := ""
  dynamicState := ""
  updateIntervalNs := 0
  endTimeNs := 0
  islRate := 0.0
  islQueue := 0
  gslRate := 0.0
  gslQueue := 0
  trackUtilization := false
  trackingIntervalNs := 0
  source := 0
  destination := 0
  pairLabel := ""
  client := .ping
  algorithm := .paired
  islErrorRate := 0.0
  gslErrorRate := 0.0

/-- How runs are kept. -/
def fields : Json.RecordFormat Run where
  name := "RunDescriptor"
  blank := blank
  fields := [
    .of "name" .text (·.name) fun name r => { r with name },
    .of "topology" .text (·.topology) fun topology r => { r with topology },
    .of "satellite_network" .text (·.network) fun network r => { r with network },
    .of "dynamic_state" .text (·.dynamicState) fun dynamicState r => { r with dynamicState },
    .of "dynamic_state_update_interval_ns" .long (·.updateIntervalNs)
      fun updateIntervalNs r => { r with updateIntervalNs },
    .of "simulation_end_time_ns" .long (·.endTimeNs) fun endTimeNs r => { r with endTimeNs },
    .of "isl_data_rate_megabit_per_s" .real (·.islRate) fun islRate r => { r with islRate },
    .of "isl_queue_size_pkt" .long (·.islQueue) fun islQueue r => { r with islQueue },
    .of "gsl_data_rate_megabit_per_s" .real (·.gslRate) fun gslRate r => { r with gslRate },
    .of "gsl_queue_size_pkt" .long (·.gslQueue) fun gslQueue r => { r with gslQueue },
    .of "enable_isl_utilization_tracking" .boolean (·.trackUtilization)
      fun trackUtilization r => { r with trackUtilization },
    .of "isl_utilization_tracking_interval_ns" .long (·.trackingIntervalNs)
      fun trackingIntervalNs r => { r with trackingIntervalNs },
    .of "from_id" .word (·.source) fun source r => { r with source },
    .of "to_id" .word (·.destination) fun destination r => { r with destination },
    .of "pair_label" .text (·.pairLabel) fun pairLabel r => { r with pairLabel },
    .of "client" Client.format (·.client) fun client r => { r with client },
    .of "algorithm" Algorithm.format (·.algorithm) fun algorithm r => { r with algorithm },
    .of "isl_error_rate" .real (·.islErrorRate) fun islErrorRate r => { r with islErrorRate },
    .of "gsl_error_rate" .real (·.gslErrorRate) fun gslErrorRate r => { r with gslErrorRate }]

/-- The format of a run. -/
def format : Json.Format Run := fields.toFormat

/-- The format of a list of runs. -/
def listFormat : Json.Format (List Run) := Json.Format.list format

/-- Reads a list of runs from a file. -/
def loadList (p : Path) : Files ExperimentFault (List Run) := loadAs listFormat p

/-- Writes a list of runs to a file. -/
def storeList (p : Path) (runs : List Run) : Files ExperimentFault Unit :=
  storeAs listFormat p runs

/-- A choice of runs by their names. -/
structure Filter where
  /-- What the name has to contain. -/
  part : String
  /-- How the name has to end. -/
  ending : String
  deriving DecidableEq, Repr

/-- Whether a list occurs in another one without a gap. -/
def occursIn (part : List Char) : List Char → Bool
  | [] => part.isEmpty
  | c :: rest => part.isPrefixOf (c :: rest) || occursIn part rest

/-- Whether a run is chosen. -/
def Filter.accepts (filter : Filter) (run : Run) : Bool :=
  occursIn filter.part.toList run.name.toList && filter.ending.toList.isSuffixOf run.name.toList

end Run

end Constellation
