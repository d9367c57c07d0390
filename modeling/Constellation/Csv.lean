import Constellation.Text.Symbol
import Constellation.Text.Numeral
set_option autoImplicit false

/-!
# Comma separated values

Snapshots are read from comma separated values, and results are written as such.

## Main definitions

* `Csv.Record` — the fields of a record, and where in the content its reading began.
* `Csv.records` — the records of a content.
* `Csv.Record.texts` — the fields as texts, if their bytes encode texts.
* `Csv.line` — one written record.

## Design

Records are cut by a machine that takes one symbol at a time. A comma ends a field, and a carriage
return or a line feed ends the record; a carriage return ends it on its own, so that a line feed
after it is a further, empty record, and empty records are none. A quote is special only as the
first symbol of a field: up to the next single quote, commas and line ends belong to the field,
and a quote written twice stands for one. What follows the closing quote belongs to the field again.

A record remembers where its reading began, which is right after the end of the record before it.
Empty records in between are therefore not counted in its line.
-/

namespace Constellation

namespace Csv

/-- The fields of a record, and where its reading began. -/
structure Record where
  /-- The number of the line, from one. -/
  line : Nat
  /-- The number of bytes before it. -/
  offset : Nat
  /-- The fields, each with the symbols that it consists of. -/
  fields : List (List Symbol)
  deriving DecidableEq

/-- The place of the reader within a record. -/
inductive Place
  /-- Before a record. -/
  | between
  /-- Before the first symbol of a field. -/
  | fieldStart
  /-- Within a field, outside of quotes. -/
  | plain
  /-- Within quotes. -/
  | quoted
  /-- After a quote within quotes, which ends them unless a second one follows. -/
  | quoteSeen
  deriving DecidableEq

/-- The state of the reader. Lists are kept in reverse. -/
structure Reader where
  /-- Where it stands. -/
  place : Place
  /-- The line where the reading of the current record began. -/
  startLine : Nat
  /-- The number of bytes before the current record. -/
  startOffset : Nat
  /-- The current line. -/
  line : Nat
  /-- The number of bytes read. -/
  offset : Nat
  /-- The symbols of the current field. -/
  field : List Symbol
  /-- The fields of the current record that have ended. -/
  fields : List (List Symbol)
  /-- The records that have ended. -/
  records : List Record
  deriving DecidableEq

namespace Reader

/-- The reader before a content, `skipped` bytes of which are passed over. -/
def start (skipped : Nat) : Reader where
  place := .between
  startLine := 1
  startOffset := 0
  line := 1
  offset := skipped
  field := []
  fields := []
  records := []

/-- Takes a symbol into the current field. -/
def keep (r : Reader) (place : Place) (symbol : Symbol) : Reader :=
  { r with place := place, field := symbol :: r.field }

/-- Ends the current field. -/
def endField (r : Reader) : Reader :=
  { r with place := .fieldStart, field := [], fields := r.field.reverse :: r.fields }

/-- Ends the current field and the record with it. -/
def endRecord (r : Reader) : Reader :=
  { r with
    place := .between
    startLine := r.line
    startOffset := r.offset
    field := []
    fields := []
    records := ⟨r.startLine, r.startOffset, (r.field.reverse :: r.fields).reverse⟩ :: r.records }

/-- What a symbol does outside of quotes, where `keep` says what becomes of the others. -/
def stepOutside (r : Reader) (symbol : Symbol) : Reader :=
  if symbol = .char ',' then r.endField
  else if symbol = .char '\r' ∨ symbol = .char '\n' then r.endRecord
  else r.keep .plain symbol

/-- What a symbol does at the start of a field. -/
def stepStart (r : Reader) (symbol : Symbol) : Reader :=
  if symbol = .char '"' then { r with place := .quoted } else r.stepOutside symbol

/-- Counts a symbol. -/
def count (r : Reader) (symbol : Symbol) : Reader :=
  { r with
    line := if symbol = .char '\n' then r.line + 1 else r.line
    offset := r.offset + symbol.width }

/-- Reads one symbol. -/
def step (r : Reader) (symbol : Symbol) : Reader :=
  let r := r.count symbol
  match r.place with
  | .between =>
    if symbol = .char '\r' ∨ symbol = .char '\n' then r else r.stepStart symbol
  | .fieldStart => r.stepStart symbol
  | .plain => r.stepOutside symbol
  | .quoted =>
    if symbol = .char '"' then { r with place := .quoteSeen } else r.keep .quoted symbol
  | .quoteSeen =>
    if symbol = .char '"' then r.keep .quoted symbol else r.stepOutside symbol

/-- All records, once the content has ended. An unfinished record ends with it. -/
def finish (r : Reader) : List Record :=
  match r.place with
  | .between => r.records.reverse
  | _ => r.endRecord.records.reverse

end Reader

/-- The mark that some programs write at the start of a text, and that is no part of it. -/
def byteOrderMark : Symbol := .char '\uFEFF'

/-- The records of a list of symbols. A byte order mark in front is passed over. -/
def records (symbols : List Symbol) : List Record :=
  match symbols with
  | mark :: rest =>
    if mark = byteOrderMark then (rest.foldl Reader.step (.start mark.width)).finish
    else (symbols.foldl Reader.step (.start 0)).finish
  | [] => []

/-- A field whose bytes encode no text. -/
structure BadField where
  /-- The number of the field, from zero. -/
  field : Nat
  /-- The number of bytes before the first one that encodes nothing. -/
  index : Nat
  deriving DecidableEq, Repr

/-- Whether a symbol is ASCII white space. -/
def isAsciiBlank (symbol : Symbol) : Bool :=
  symbol = .char ' ' || symbol = .char '\t' || symbol = .char '\n' || symbol = .char '\x0c' ||
    symbol = .char '\r'

/-- A field without ASCII white space at its ends. -/
def trimField (field : List Symbol) : List Symbol :=
  ((field.dropWhile isAsciiBlank).reverse.dropWhile isAsciiBlank).reverse

/-- The characters of symbols, or the number of bytes before the first stray one. -/
def characters : List Symbol → Except Nat (List Char)
  | [] => .ok []
  | .stray _ :: _ => .error 0
  | .char c :: rest =>
    match characters rest with
    | .ok cs => .ok (c :: cs)
    | .error index => .error (c.utf8Size + index)

/-- The text of a field without ASCII white space at its ends. The bytes of the field are read
again, as they may have been apart from each other in the content. -/
def fieldText (field : List Symbol) : Except Nat (List Char) :=
  characters (Symbol.ofBytes ⟨((trimField field).flatMap Symbol.bytes).toArray⟩)

/-- The texts of fields, the first of which has the given number. -/
def fieldTexts : (number : Nat) → List (List Symbol) → Except BadField (List (List Char))
  | _, [] => .ok []
  | number, field :: fields =>
    match fieldText field with
    | .error index => .error ⟨number, index⟩
    | .ok text => (fieldTexts (number + 1) fields).map (text :: ·)

/-- The texts of the fields of a record. -/
def Record.texts (record : Record) : Except BadField (List (List Char)) :=
  fieldTexts 0 record.fields

/-- The wording for a record, the first of which is number zero, with a field that is no text. -/
def BadField.message (number : Nat) (record : Record) (bad : BadField) : String :=
  s!"CSV parse error: record {number} (line {record.line}, field: {bad.field}, byte: " ++
    s!"{record.offset}): invalid utf-8: invalid UTF-8 in field {bad.field} near byte index " ++
    s!"{bad.index}"

/-- One record as it is written, for fields that need no quotes. -/
def line (fields : List String) : String := ",".intercalate fields ++ "\n"

end Csv

end Constellation
