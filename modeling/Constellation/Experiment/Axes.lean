import Constellation.Json.Format
set_option autoImplicit false

/-!
# The axes of an experiment

A run is fixed by a client, a topology, a pair of ground stations, a routing algorithm and a loss
ratio. This module holds the first four; `Constellation.Experiment.LossRatio` holds the last.

## Main definitions

* `Client`, `Algorithm` — the two closed choices.
* `Topology` — a satellite topology with its generated network for each algorithm.
* `EndpointPair` — where the traffic of a run starts and ends.
* `isSafeName` — the texts that may become part of a directory name and of a shell argument.
-/

namespace Constellation

/-- The identifier of a node of the network. -/
abbrev NodeId := UInt32

/-- The program that sends requests at the source of a run. -/
inductive Client
  /-- Sends single requests in fixed intervals. -/
  | ping
  /-- The same, and repeats a lost request at once. -/
  | pingInstantRetx
  /-- Keeps a fixed number of requests in flight. -/
  | fixedWindow
  deriving DecidableEq, Repr

namespace Client

/-- All clients in order. -/
def all : List Client := [ping, pingInstantRetx, fixedWindow]

/-- The name of a client. -/
def name : Client → String
  | ping => "Ping"
  | pingInstantRetx => "PingInstantRetx"
  | fixedWindow => "FixedWindow"

/-- The simulator program of a client. -/
def program : Client → String
  | ping => "a_b_ping"
  | pingInstantRetx => "a_b_ping_instant_retx"
  | fixedWindow => "a_b_fixed_window"

/-- The client with a name. -/
def ofName? (name : String) : Option Client := all.find? fun client => client.name == name

/-- Clients are kept by name. -/
def format : Json.Format Client := Json.Format.variant name all

/-- Every client is found by its name. -/
theorem ofName?_name (client : Client) : ofName? client.name = some client := by
  cases client <;> decide

end Client

/-- The algorithm that computes the routes. -/
inductive Algorithm
  /-- Computes the paths of many pairs together. -/
  | paired
  /-- Computes one free path for each destination. -/
  | free
  deriving DecidableEq, Repr

namespace Algorithm

/-- All algorithms in order. -/
def all : List Algorithm := [paired, free]

/-- The name of an algorithm. -/
def name : Algorithm → String
  | paired => "paired"
  | free => "free"

/-- The algorithm with a name. -/
def ofName? (name : String) : Option Algorithm := all.find? fun algorithm => algorithm.name == name

/-- Algorithms are kept by name. -/
def format : Json.Format Algorithm := Json.Format.variant name all

/-- Every algorithm is found by its name. -/
theorem ofName?_name (algorithm : Algorithm) : ofName? algorithm.name = some algorithm := by
  cases algorithm <;> decide

end Algorithm

/-- The wording for a name that is none of the known ones. -/
def unknownNameMessage : String := "Matching variant not found"

/-- The generated network for each algorithm, where there is one. -/
structure Networks where
  /-- The network for paired paths. -/
  paired : Option String
  /-- The network for free paths. -/
  free : Option String
  deriving DecidableEq, Repr, Inhabited

namespace Networks

/-- The network for an algorithm. -/
def get? (networks : Networks) : Algorithm → Option String
  | .paired => networks.paired
  | .free => networks.free

/-- The networks with the one for an algorithm replaced. -/
def set (networks : Networks) (algorithm : Algorithm) (network : String) : Networks :=
  match algorithm with
  | .paired => { networks with paired := some network }
  | .free => { networks with free := some network }

/-- The algorithms that have a network, with these networks, in order. -/
def toList (networks : Networks) : List (Algorithm × String) :=
  Algorithm.all.filterMap fun algorithm =>
    (networks.get? algorithm).map fun network => (algorithm, network)

/-- Reads members whose keys are algorithms. A later member replaces an earlier one. -/
def readMembers :
    List (Json.Reading × Json.Reading) → Networks → Except Json.Problem Networks
  | [], networks => .ok networks
  | (key, value) :: members, networks => do
    let algorithm ←
      match key with
      | .text (some name) => Json.Format.lookUp (Algorithm.all.map fun a => (a.name, a)) name
      | _ => throw .malformed
    let network ← Json.Format.text.read value
    readMembers members (networks.set algorithm network)

/-- Networks are kept as a record whose keys are algorithms. -/
def format : Json.Format Networks where
  write networks := .record (networks.toList.map fun (a, network) => (a.name, .text network))
  read
    | .record members closed => do
      let networks ← readMembers members ⟨none, none⟩
      if closed then pure networks else throw .malformed
    | other => .error (other.refuse "a map")

end Networks

/-- A satellite topology. -/
structure Topology where
  /-- Its name, which becomes part of the names of runs. -/
  name : String
  /-- Its networks. -/
  networks : Networks
  deriving DecidableEq, Repr, Inhabited

/-- How topologies are kept. -/
def Topology.fields : Json.RecordFormat Topology where
  name := "TopologyVariant"
  blank := ⟨"", ⟨none, none⟩⟩
  fields := [
    .of "name" .text (·.name) fun name t => { t with name },
    .of "satellite_networks" Networks.format (·.networks) fun networks t => { t with networks }]

/-- The ground stations between which a run sends traffic. -/
structure EndpointPair where
  /-- The source. -/
  source : NodeId
  /-- The destination. -/
  destination : NodeId
  /-- A description for people. -/
  label : String
  deriving DecidableEq, Repr, Inhabited

/-- How pairs of ground stations are kept. The description may be left out. -/
def EndpointPair.fields : Json.RecordFormat EndpointPair where
  name := "EndpointPair"
  blank := ⟨0, 0, ""⟩
  fields := [
    .of "from" .word (·.source) fun source p => { p with source },
    .of "to" .word (·.destination) fun destination p => { p with destination },
    (Json.Field.of "label" .text (·.label) fun label p => { p with label }).orBlank]

/-- Whether a character is safe in a directory name and in a quoted shell argument. -/
def isSafeChar (c : Char) : Bool :=
  c.isAlphanum || c == '_' || c == '-' || c == '.' || c == '+'

/-- Whether a text may become part of the name of a run. -/
def isSafeName (name : String) : Bool := !name.isEmpty && name.toList.all isSafeChar

end Constellation
