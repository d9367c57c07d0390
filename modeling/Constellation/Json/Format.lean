import Constellation.Json.Problem
set_option autoImplicit false

/-!
# Formats: how a type is kept as JSON

## Main definitions

* `Json.Format` — how values of a type are written and read.
* `Json.Format.decode` — reads a value from a whole text.
* `Json.RecordFormat` — how a structure is kept, given by a list of fields.
* `Json.Field` — one field of a structure.

## Design

A structure is kept as a record whose keys are the names of its fields. It may also be read from a
list of the field values in order. Members under other keys are passed over, as long as they are
JSON. A field is either required, or keeps the value of a blank structure when it is not given.

Reading follows the order of the text: a repeated key is reported where it stands, and only at the
end of the record is the first missing field reported.
-/

namespace Constellation

namespace Json

/-- How values of a type are written and read. -/
structure Format (α : Type) where
  /-- The stored form of a value. -/
  write : α → Json
  /-- The value that a reading stands for. -/
  read : Reading → Except Problem α

namespace Format

/-- Truth values. -/
def boolean : Format Bool where
  write := .boolean
  read
    | .boolean b => .ok b
    | other => .error (other.refuse "a boolean")

/-- Texts. -/
def text : Format String where
  write := .text
  read
    | .text (some s) => .ok s
    | other => .error (other.refuse "a string")

/-- Doubles. Integers are read as the nearest double. -/
def real : Format Float where
  write := .real
  read
    | .number (.real x) => .ok x
    | .number (.natural n) => .ok n.toUInt64.toFloat
    | .number (.negative n) => .ok (-n.natAbs.toUInt64.toFloat)
    | other => .error (other.refuse "f64")

/-- Reads a natural number below a bound. -/
def readNatural (bound : Nat) (expected : String) : Reading → Except Problem Nat
  | .number (.natural n) => if n < bound then .ok n else .error (.wrongValue n expected)
  | .number (.negative n) => .error (.wrongValue n expected)
  | other => .error (other.refuse expected)

/-- Numbers of 32 bits. -/
def word : Format UInt32 where
  write n := .natural n.toNat
  read reading := (readNatural Numeral.wordBound "u32" reading).map Nat.toUInt32

/-- Numbers of 64 bits. -/
def long : Format UInt64 where
  write n := .natural n.toNat
  read reading := (readNatural Numeral.longBound "u64" reading).map Nat.toUInt64

/-- The value with a given name. -/
def lookUp {α : Type} (names : List (String × α)) (name : String) : Except Problem α :=
  match names.lookup name with
  | some a => .ok a
  | none => .error (.unknownVariant name (names.map Prod.fst))

/-- Reads a value from its name. The name may also be the only key of a record, with `null` as its
value. -/
def readVariant {α : Type} (names : List (String × α)) : Reading → Except Problem α
  | .text (some name) => lookUp names name
  | .record ((.text (some name), value) :: members) closed => do
    let a ← lookUp names name
    match value with
    | .null => pure ()
    | other => throw (other.refuse "unit")
    if members.isEmpty && closed then pure a else throw .malformed
  | _ => .error .malformed

/-- Finitely many values, kept by name. -/
def variant {α : Type} (name : α → String) (all : List α) : Format α where
  write a := .text (name a)
  read := readVariant (all.map fun a => (name a, a))

/-- Reads the items of a list one by one. -/
def readItems {α : Type} (read : Reading → Except Problem α) : List Reading →
    Except Problem (List α)
  | [] => .ok []
  | item :: items => do
    let a ← read item
    let rest ← readItems read items
    pure (a :: rest)

/-- Lists. -/
def list {α : Type} (item : Format α) : Format (List α) where
  write items := .list (items.map item.write)
  read
    | .list items closed => do
      let items ← readItems item.read items
      if closed then pure items else throw .malformed
    | other => .error (other.refuse "a sequence")

/-- The value that a whole text stands for. What follows the value is looked at last. -/
def decode {α : Type} (format : Format α) (text : List Char) : Except Problem α := do
  let document := Document.ofText text
  let a ← format.read document.reading
  if document.ended then pure a else throw .malformed

/-- The stored text of a value. -/
def encode {α : Type} (format : Format α) (a : α) : String := (format.write a).pretty

end Format

/-- One field of a structure. -/
structure Field (α : Type) where
  /-- The key under which it is kept. -/
  name : String
  /-- Whether it keeps the value of the blank structure when it is not given. -/
  optional : Bool
  /-- Its stored form. -/
  write : α → Json
  /-- Sets it to the value that a reading stands for. -/
  assign : Reading → α → Except Problem α

/-- The field of a structure with a getter and a setter. -/
def Field.of {α β : Type} (name : String) (format : Format β) (get : α → β) (set : β → α → α) :
    Field α where
  name := name
  optional := false
  write a := format.write (get a)
  assign reading a := (format.read reading).map fun b => set b a

/-- The same field, which need not be given. -/
def Field.orBlank {α : Type} (field : Field α) : Field α := { field with optional := true }

/-- How a structure is kept. -/
structure RecordFormat (α : Type) where
  /-- The name of the structure in messages. -/
  name : String
  /-- The structure before any field is read. -/
  blank : α
  /-- Its fields in order. -/
  fields : List (Field α)

namespace RecordFormat

variable {α : Type}

/-- What a structure is called when something else is found. -/
def title (format : RecordFormat α) : String := "struct " ++ format.name

/-- Reads members in order, where `seen` are the fields given so far. -/
def readMembers (format : RecordFormat α) :
    List (Reading × Reading) → List String → α → Except Problem (List String × α)
  | [], seen, a => .ok (seen, a)
  | (.text (some key), value) :: members, seen, a =>
    match format.fields.find? fun field => field.name == key with
    | some field =>
      if seen.contains key then .error (.duplicateField key)
      else do
        let a ← field.assign value a
        readMembers format members (key :: seen) a
    | none =>
      if value.isComplete then readMembers format members seen a else .error .malformed
  | _ :: _, _, _ => .error .malformed

/-- The first required field that has not been given. -/
def missing? (format : RecordFormat α) (seen : List String) : Option String :=
  (format.fields.find? fun field => !field.optional && !seen.contains field.name).map (·.name)

/-- Reads the fields from a list of their values, where `index` values have been read. -/
def readFields (format : RecordFormat α) (closed : Bool) :
    List (Field α) → List Reading → (index : Nat) → α → Except Problem α
  | [], [], _, a => if closed then .ok a else .error .malformed
  | [], _ :: _, _, _ => .error .malformed
  | field :: fields, value :: values, index, a => do
    let a ← field.assign value a
    readFields format closed fields values (index + 1) a
  | field :: fields, [], index, a =>
    if !closed then .error .malformed
    else if field.optional then readFields format closed fields [] (index + 1) a
    else .error (.wrongLength index s!"{format.title} with {format.fields.length} elements")

/-- Reads a structure from a record or from a list. -/
def read (format : RecordFormat α) : Reading → Except Problem α
  | .record members closed => do
    let (seen, a) ← format.readMembers members [] format.blank
    if !closed then throw .malformed
    match format.missing? seen with
    | some name => throw (.missingField name)
    | none => pure a
  | .list values closed => format.readFields closed format.fields values 0 format.blank
  | other => .error (other.refuse format.title)

/-- The stored form of a structure: all fields in order. -/
def write (format : RecordFormat α) (a : α) : Json :=
  .record (format.fields.map fun field => (field.name, field.write a))

/-- The format of a structure. -/
def toFormat (format : RecordFormat α) : Format α := ⟨format.write, format.read⟩

end RecordFormat

end Json

end Constellation
