import Constellation.Experiment.Run
set_option autoImplicit false

/-!
# From an experiment to its runs

## Main definitions

* `distinctBy` — a list without the items whose key has occurred before.
* `Experiment.Choice` — one value for each axis.
* `Experiment.choices` — all choices in order.
* `Experiment.runs` — the runs of an experiment.

## Design

The axes vary from the first to the last like the digits of a number: clients, topologies, pairs,
algorithms, and loss ratios fastest. An axis without loss ratios stands for the single ratio zero,
whereas any other empty axis leaves no runs. Names are checked before any run is formed, so an
unsafe name is reported even then.
-/

namespace Constellation

/-- A list without the items whose key is among `seen` or has occurred before. -/
def distinctFrom {α κ : Type} [BEq κ] (key : α → κ) : (seen : List κ) → List α → List α
  | _, [] => []
  | seen, a :: rest =>
    if seen.contains (key a) then distinctFrom key seen rest
    else a :: distinctFrom key (key a :: seen) rest

/-- A list without the items whose key has occurred before. -/
def distinctBy {α κ : Type} [BEq κ] (key : α → κ) (items : List α) : List α :=
  distinctFrom key [] items

namespace Experiment

/-- One value for each axis. -/
structure Choice where
  /-- The client. -/
  client : Client
  /-- The topology. -/
  topology : Topology
  /-- The pair of ground stations. -/
  pair : EndpointPair
  /-- The algorithm. -/
  algorithm : Algorithm
  /-- The loss ratio. -/
  loss : LossRatio

/-- The clients, each once. -/
def clientAxis (e : Experiment) : List Client := distinctBy id e.clients

/-- The topologies, of each name the first one. -/
def topologyAxis (e : Experiment) : List Topology := distinctBy (·.name) e.topologies

/-- The pairs of ground stations, each once whatever its description is. -/
def pairAxis (e : Experiment) : List EndpointPair :=
  distinctBy (fun p => (p.source, p.destination)) e.pairs

/-- The algorithms, each once. -/
def algorithmAxis (e : Experiment) : List Algorithm := distinctBy id e.algorithms

/-- The loss ratios, of each text the first one, or the ratio zero if there are none. -/
def lossAxis (e : Experiment) : List LossRatio :=
  if e.lossRatios.isEmpty then [LossRatio.zero] else distinctBy (·.label) e.lossRatios

/-- All choices in order. -/
def choices (e : Experiment) : List Choice :=
  e.clientAxis.flatMap fun client =>
    e.topologyAxis.flatMap fun topology =>
      e.pairAxis.flatMap fun pair =>
        e.algorithmAxis.flatMap fun algorithm =>
          e.lossAxis.map fun loss => ⟨client, topology, pair, algorithm, loss⟩

/-- The run for a choice. -/
def run (e : Experiment) (choice : Choice) : Except ExperimentFault Run := do
  let network ←
    match choice.topology.networks.get? choice.algorithm with
    | some network => pure network
    | none => throw (.missingNetwork choice.topology.name choice.algorithm)
  let updateIntervalNs ← e.updateIntervalNs
  let endTimeNs ← e.endTimeNs
  pure {
    name := Run.nameOf choice.topology.name choice.pair.source choice.pair.destination
      choice.client choice.algorithm choice.loss
    topology := choice.topology.name
    network
    dynamicState := e.dynamicState
    updateIntervalNs
    endTimeNs
    islRate := e.islRate
    islQueue := e.islQueue
    gslRate := e.gslRate
    gslQueue := e.gslQueue
    trackUtilization := e.trackUtilization
    trackingIntervalNs := e.trackingIntervalNs
    source := choice.pair.source
    destination := choice.pair.destination
    pairLabel := choice.pair.label
    client := choice.client
    algorithm := choice.algorithm
    islErrorRate := choice.loss.value
    gslErrorRate := choice.loss.value }

/-- The runs for a list of choices, up to the first one that gives none. -/
def runsFor (e : Experiment) : List Choice → Except ExperimentFault (List Run)
  | [] => .ok []
  | choice :: choices => do
    let run ← e.run choice
    let runs ← runsFor e choices
    pure (run :: runs)

/-- The first topology whose name cannot become part of the name of a run. -/
def unsafeTopology? (e : Experiment) : Option Topology :=
  e.topologyAxis.find? fun topology => !isSafeName topology.name

/-- **The runs of an experiment** in order. -/
def runs (e : Experiment) : Except ExperimentFault (List Run) :=
  match e.unsafeTopology? with
  | some topology => .error (.unsafeName topology.name)
  | none => e.runsFor e.choices

end Experiment

end Constellation
