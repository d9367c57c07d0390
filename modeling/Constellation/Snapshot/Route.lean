import Constellation.Csv
import Constellation.Text.Blank
import Constellation.Text.Quoted
import Constellation.Experiment.Axes
set_option autoImplicit false

/-!
# Routes and the rows that hold them

A snapshot is the forwarding state of the network at one moment: for pairs of a source and a
destination, the next hop on the way. Its text has one row for each pair.

## Main definitions

* `Route`, `RoutePair` — one row, and the pair that it is about.
* `Route.ofRecord` — reads the fields of a row.
* `Route.ofContent` — reads the rows of a snapshot.
* `RoutePair.ofText` — reads a pair as it is given on a command line.

## Design

A row has exactly three fields, each an unsigned number of 32 bits that may be surrounded by
blanks. The first row that is not of this form decides about the whole snapshot. The number of
the line of a row is that of the place where its reading began.
-/

namespace Constellation

/-- A source and a destination. -/
structure RoutePair where
  /-- Where packets come from. -/
  source : NodeId
  /-- Where packets go to. -/
  destination : NodeId
  deriving DecidableEq, Hashable, Repr, Inhabited

/-- The next hop of packets from a source to a destination. -/
structure Route where
  /-- Where packets come from. -/
  source : NodeId
  /-- Where packets go to. -/
  destination : NodeId
  /-- Where the source sends them first. -/
  nextHop : NodeId
  deriving DecidableEq, Repr, Inhabited

/-- The pair that a route is about. -/
def Route.pair (route : Route) : RoutePair := ⟨route.source, route.destination⟩

/-- Why a row is no route. -/
inductive RowFault
  /-- It does not have three fields. -/
  | fieldCount (count : Nat)
  /-- A field is no number. -/
  | field (index : Nat) (text : String) (fault : Numeral.Fault)
  deriving DecidableEq, Repr

/-- The wording of a fault. -/
def RowFault.message : RowFault → String
  | fieldCount count => s!"expected 3 fields, found {count}"
  | field index text fault => s!"field {index} ({Quoted.ofText text}): {fault.message}"

/-- Why a content is no snapshot. -/
inductive ContentFault
  /-- A row, given with its number from zero, has a field that is no text. -/
  | noText (number : Nat) (record : Csv.Record) (bad : Csv.BadField)
  /-- A row in the given line is no route. -/
  | malformed (line : Nat) (fault : RowFault)
  deriving DecidableEq

namespace Route

/-- Reads the field with a number. -/
def readField (index : Nat) (text : List Char) : Except RowFault NodeId :=
  match Numeral.readWord text with
  | .ok node => .ok node
  | .error fault => .error (.field index (String.ofList text) fault)

/-- Reads the fields of a row, from which blanks have been trimmed. -/
def ofFields : List (List Char) → Except RowFault Route
  | [a, b, c] => do
    let source ← readField 0 a
    let destination ← readField 1 b
    let nextHop ← readField 2 c
    pure ⟨source, destination, nextHop⟩
  | fields => .error (.fieldCount fields.length)

/-- Reads a row, given with its number from zero. -/
def ofRecord (number : Nat) (record : Csv.Record) : Except ContentFault Route :=
  match record.texts with
  | .error bad => .error (.noText number record bad)
  | .ok texts =>
    match ofFields (texts.map trimBlanks) with
    | .ok route => .ok route
    | .error fault => .error (.malformed record.line fault)

/-- Reads rows, the first of which has the given number. -/
def ofRecords : (number : Nat) → List Csv.Record → Except ContentFault (List Route)
  | _, [] => .ok []
  | number, record :: records => do
    let route ← ofRecord number record
    let routes ← ofRecords (number + 1) records
    pure (route :: routes)

/-- Reads the rows of a snapshot. -/
def ofContent (content : ByteArray) : Except ContentFault (List Route) :=
  ofRecords 0 (Csv.records (Symbol.ofBytes content))

end Route

namespace RoutePair

/-- Why a text is no pair. -/
inductive Fault
  /-- It has no comma. -/
  | noComma (text : String)
  /-- One of its parts is no number. -/
  | part (text : String) (fault : Numeral.Fault)
  deriving DecidableEq, Repr

/-- The wording of a fault. -/
def Fault.message : Fault → String
  | noComma text => s!"expected `src,dst`, got {Quoted.ofText text}"
  | part text fault => s!"{Quoted.ofText text}: {fault.message}"

/-- Reads one part of a pair. -/
def readPart (text : List Char) : Except Fault NodeId :=
  match Numeral.readWord (trimBlanks text) with
  | .ok node => .ok node
  | .error fault => .error (.part (String.ofList text) fault)

/-- Reads two numbers with a comma between them, each of which may be surrounded by blanks. All
but the first comma belong to the second number, which then is none. -/
def ofText (text : List Char) : Except Fault RoutePair :=
  match text.dropWhile (· != ',') with
  | [] => .error (.noComma (String.ofList text))
  | _ :: rest => do
    let source ← readPart (text.takeWhile (· != ','))
    let destination ← readPart rest
    pure ⟨source, destination⟩

end RoutePair

end Constellation
