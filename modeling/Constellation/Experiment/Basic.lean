import Constellation.Experiment.LossRatio
set_option autoImplicit false

/-!
# Experiments

An experiment is a batch of simulation runs, described by its axes and by the settings that all
runs share.

## Main definitions

* `Experiment` — the description.
* `Experiment.standard` — the description that is used unless another one is given.
* `Experiment.fields` — how descriptions are kept.
* `Experiment.load`, `Experiment.store` — a description in a file.

## Design

A stored description may leave out any field, which then has its value in the standard
description.
-/

namespace Constellation

/-- The description of a batch of simulation runs. -/
structure Experiment where
  /-- Milliseconds between two updates of the routes. -/
  updateIntervalMs : UInt64
  /-- The simulated time in seconds. -/
  endTimeS : UInt64
  /-- Whether the load of the links between satellites is recorded. -/
  trackUtilization : Bool
  /-- Nanoseconds between two such records. -/
  trackingIntervalNs : UInt64
  /-- Megabits per second on a link between satellites. -/
  islRate : Float
  /-- Packets that wait for a link between satellites. -/
  islQueue : UInt64
  /-- Megabits per second on a link to the ground. -/
  gslRate : Float
  /-- Packets that wait for a link to the ground. -/
  gslQueue : UInt64
  /-- The topologies. -/
  topologies : List Topology
  /-- The pairs of ground stations. -/
  pairs : List EndpointPair
  /-- The clients. -/
  clients : List Client
  /-- The algorithms. -/
  algorithms : List Algorithm
  /-- The loss ratios. -/
  lossRatios : List LossRatio
  deriving BEq

namespace Experiment

/-- The description that is used unless another one is given. -/
def standard : Experiment where
  updateIntervalMs := 100
  endTimeS := 200
  trackUtilization := true
  trackingIntervalNs := 1000000000
  islRate := 10000.0
  islQueue := 100000
  gslRate := 10000.0
  gslQueue := 100000
  topologies := [{
    name := "starlink_550_isls"
    networks := {
      paired := some ("starlink_550_isls_plus_grid_ground_stations_4_different_orbits_" ++
        "algorithm_paired_many_only_over_isls")
      free := some ("starlink_550_isls_plus_grid_ground_stations_4_different_orbits_" ++
        "fast_algorithm_free_one_only_over_isls") } }]
  pairs := [⟨1584, 1585, "Sao-Paulo 11000k"⟩]
  clients := [.pingInstantRetx]
  algorithms := [.paired]
  lossRatios := [LossRatio.standard]

/-- How descriptions are kept. -/
def fields : Json.RecordFormat Experiment where
  name := "ExperimentConfig"
  blank := standard
  fields := [
    .of "dynamic_state_update_interval_ms" .long (·.updateIntervalMs)
      fun updateIntervalMs e => { e with updateIntervalMs },
    .of "simulation_end_time_s" .long (·.endTimeS) fun endTimeS e => { e with endTimeS },
    .of "enable_isl_utilization_tracking" .boolean (·.trackUtilization)
      fun trackUtilization e => { e with trackUtilization },
    .of "isl_utilization_tracking_interval_ns" .long (·.trackingIntervalNs)
      fun trackingIntervalNs e => { e with trackingIntervalNs },
    .of "isl_data_rate_megabit_per_s" .real (·.islRate) fun islRate e => { e with islRate },
    .of "isl_queue_size_pkt" .long (·.islQueue) fun islQueue e => { e with islQueue },
    .of "gsl_data_rate_megabit_per_s" .real (·.gslRate) fun gslRate e => { e with gslRate },
    .of "gsl_queue_size_pkt" .long (·.gslQueue) fun gslQueue e => { e with gslQueue },
    .of "topologies" (.list Topology.fields.toFormat) (·.topologies)
      fun topologies e => { e with topologies },
    .of "pairs" (.list EndpointPair.fields.toFormat) (·.pairs) fun pairs e => { e with pairs },
    .of "clients" (.list Client.format) (·.clients) fun clients e => { e with clients },
    .of "algorithms" (.list Algorithm.format) (·.algorithms)
      fun algorithms e => { e with algorithms },
    .of "loss_ratios" (.list LossRatio.format) (·.lossRatios)
      fun lossRatios e => { e with lossRatios }].map Json.Field.orBlank

/-- The format of a description. -/
def format : Json.Format Experiment := fields.toFormat

/-- A time in nanoseconds, if 64 bits suffice for it. -/
def nanoseconds (count : UInt64) (each : Nat) : Except ExperimentFault UInt64 :=
  let product := count.toNat * each
  if product < Numeral.longBound then .ok product.toUInt64 else .error .overflow

/-- The nanoseconds between two updates of the routes. -/
def updateIntervalNs (e : Experiment) : Except ExperimentFault UInt64 :=
  nanoseconds e.updateIntervalMs 1000000

/-- The simulated time in nanoseconds. -/
def endTimeNs (e : Experiment) : Except ExperimentFault UInt64 :=
  nanoseconds e.endTimeS 1000000000

/-- The name of the directory with the routes that have been computed beforehand. -/
def dynamicState (e : Experiment) : String :=
  s!"dynamic_state_{e.updateIntervalMs}ms_for_{e.endTimeS}s"

end Experiment

/-- Reads a value of some format from a file. -/
def loadAs {α : Type} (format : Json.Format α) (p : Path) : Files ExperimentFault α := do
  let text ← Files.blame .file (Files.readText p)
  match format.decode text.toList with
  | .ok a => pure a
  | .error problem => throw (.json problem)

/-- Writes a value of some format to a file. -/
def storeAs {α : Type} (format : Json.Format α) (p : Path) (a : α) :
    Files ExperimentFault Unit :=
  Files.blame .file (Files.write p (format.encode a))

/-- Reads a description from a file. -/
def Experiment.load (p : Path) : Files ExperimentFault Experiment := loadAs Experiment.format p

/-- Writes a description to a file. -/
def Experiment.store (p : Path) (e : Experiment) : Files ExperimentFault Unit :=
  storeAs Experiment.format p e

end Constellation
