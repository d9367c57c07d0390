import Constellation.Json.Number
set_option autoImplicit false

/-!
# What a JSON text says

A text that is meant to be JSON can fail in two ways: it is no JSON, or it is JSON of the wrong
shape. Of several faults the one that comes first in the text is reported. For that purpose a text
is read as far as it goes, and the place where it stops being JSON stays visible in the result.

## Main definitions

* `Json.Reading` — what a text says, up to where it is damaged.
* `Json.Reading.isComplete` — whether there is no damage anywhere inside.
* `Json.Document` — a reading together with whether anything follows it.
* `Json.Document.ofText` — reads a text.

## Design

Damage is either a value that is not there, or a list or record that does not end. Nothing is read
after damage, so whoever goes through a reading from left to right meets every fault in the order
of the text. Escapes that name half of a surrogate pair leave the text well-formed but give no
string, and the keys of a record are readings themselves, as a key may turn out to be no string.

The reader is a recursive descent. Each call goes one level down or one item on, and each of those
takes at least one character, so twice the length of the text is enough fuel.
-/

namespace Constellation

namespace Json

/-- What a text says, up to where it is damaged. -/
inductive Reading
  /-- No value where one is due. -/
  | damaged
  /-- The value `null`. -/
  | null
  /-- A truth value. -/
  | boolean (value : Bool)
  /-- A number. -/
  | number (value : Number)
  /-- A string, or `none` if its escapes name half of a surrogate pair. -/
  | text (value : Option String)
  /-- The items of a list, and whether the list ends properly. -/
  | list (items : List Reading) (closed : Bool)
  /-- The members of a record, and whether the record ends properly. -/
  | record (members : List (Reading × Reading)) (closed : Bool)

namespace Reading

/-- Whether a reading is a string or would be one but for half of a surrogate pair. -/
def isText : Reading → Bool
  | text _ => true
  | _ => false

mutual

/-- Whether a reading is undamaged. This is all that is asked of a value that nobody uses. -/
def isComplete : Reading → Bool
  | damaged => false
  | null => true
  | boolean _ => true
  | number _ => true
  | text _ => true
  | list items closed => allComplete items && closed
  | record members closed => allMembersComplete members && closed

/-- Whether all items are undamaged. -/
def allComplete : List Reading → Bool
  | [] => true
  | item :: items => isComplete item && allComplete items

/-- Whether all members are undamaged and named by strings. -/
def allMembersComplete : List (Reading × Reading) → Bool
  | [] => true
  | (key, value) :: members => key.isText && isComplete value && allMembersComplete members

end

end Reading

/-- Whether a character may stand between the tokens of a text. -/
def isGap (c : Char) : Bool := c = ' ' || c = '\n' || c = '\t' || c = '\r'

/-- A text without the gap at its start. -/
def skipGap (text : List Char) : List Char := text.dropWhile isGap

/-- The value of a hexadecimal digit. -/
def hexValue? (c : Char) : Option Nat :=
  if c.isDigit then some (c.toNat - '0'.toNat)
  else if 'a' ≤ c && c ≤ 'f' then some (c.toNat - 'a'.toNat + 10)
  else if 'A' ≤ c && c ≤ 'F' then some (c.toNat - 'A'.toNat + 10)
  else none

/-- One unit of a string: a character, or half of a surrogate pair given by its number. -/
inductive Unit16
  /-- A character. -/
  | char (c : Char)
  /-- Half of a surrogate pair. -/
  | half (n : Nat)

/-- The unit that four hexadecimal digits name. -/
def Unit16.ofNumber (n : Nat) : Unit16 :=
  if 0xd800 ≤ n && n < 0xe000 then half n else char (Char.ofNat n)

/-- The character that two halves of a surrogate pair make. -/
def joinHalves (high low : Nat) : Option Char :=
  if 0xd800 ≤ high && high < 0xdc00 && 0xdc00 ≤ low && low < 0xe000 then
    some (Char.ofNat (0x10000 + (high - 0xd800) * 0x400 + (low - 0xdc00)))
  else none

/-- The text that units spell, if each half of a surrogate pair has its other half next to it. -/
def joinUnits : List Unit16 → Option (List Char)
  | [] => some []
  | .char c :: rest => (joinUnits rest).map (c :: ·)
  | .half high :: .half low :: rest =>
    match joinHalves high low with
    | some c => (joinUnits rest).map (c :: ·)
    | none => none
  | .half _ :: _ => none

/-- The character that a letter after a backslash stands for. -/
def unescape? (c : Char) : Option Char :=
  match c with
  | '"' => some '"'
  | '\\' => some '\\'
  | '/' => some '/'
  | 'b' => some '\x08'
  | 'f' => some '\x0c'
  | 'n' => some '\n'
  | 'r' => some '\r'
  | 't' => some '\t'
  | _ => none

/-- Reads the units of a string up to its closing quote, and what follows that quote. The outcome
`none` is malformed text: a string that does not end, a control character or an unknown escape. -/
def readUnits : List Char → Option (List Unit16 × List Char)
  | [] => none
  | '"' :: rest => some ([], rest)
  | '\\' :: 'u' :: a :: b :: c :: d :: rest =>
    match hexValue? a, hexValue? b, hexValue? c, hexValue? d with
    | some a, some b, some c, some d =>
      (readUnits rest).map fun (units, rest) =>
        (Unit16.ofNumber (((a * 16 + b) * 16 + c) * 16 + d) :: units, rest)
    | _, _, _, _ => none
  | '\\' :: c :: rest =>
    match unescape? c with
    | some e => (readUnits rest).map fun (units, rest) => (.char e :: units, rest)
    | none => none
  | c :: rest =>
    if c.toNat < 0x20 then none
    else (readUnits rest).map fun (units, rest) => (.char c :: units, rest)

/-- Reads a string whose opening quote has been read. -/
def readText (text : List Char) : Reading × List Char :=
  match readUnits text with
  | some (units, rest) => (.text ((joinUnits units).map String.ofList), rest)
  | none => (.damaged, [])

/-- Reads a word such as `null` whose value is known. -/
def readWord (word : List Char) (value : Reading) (text : List Char) : Reading × List Char :=
  if word.isPrefixOf text then (value, text.drop word.length) else (.damaged, [])

mutual

/-- Reads a value and what follows it. Nothing follows damage. -/
def readValue : (fuel : Nat) → List Char → Reading × List Char
  | 0, _ => (.damaged, [])
  | fuel + 1, input =>
    match skipGap input with
    | [] => (.damaged, [])
    | '"' :: rest => readText rest
    | '[' :: rest =>
      let (items, closed, rest) :=
        match skipGap rest with
        | ']' :: rest => ([], true, rest)
        | _ => readItems fuel rest
      (.list items closed, rest)
    | '{' :: rest =>
      let (members, closed, rest) :=
        match skipGap rest with
        | '}' :: rest => ([], true, rest)
        | _ => readMembers fuel rest
      (.record members closed, rest)
    | c :: rest =>
      if c = 'n' then readWord ['n', 'u', 'l', 'l'] .null (c :: rest)
      else if c = 't' then readWord ['t', 'r', 'u', 'e'] (.boolean true) (c :: rest)
      else if c = 'f' then readWord ['f', 'a', 'l', 's', 'e'] (.boolean false) (c :: rest)
      else
        match Number.read (c :: rest) with
        | some (n, rest) => (.number n, rest)
        | none => (.damaged, [])

/-- Reads the items of a list from an item on, up to the closing bracket. -/
def readItems : (fuel : Nat) → List Char → List Reading × Bool × List Char
  | 0, _ => ([], false, [])
  | fuel + 1, input =>
    let (item, rest) := readValue fuel input
    match skipGap rest with
    | ',' :: rest =>
      let (items, closed, rest) := readItems fuel rest
      (item :: items, closed, rest)
    | ']' :: rest => ([item], true, rest)
    | _ => ([item], false, [])

/-- Reads the members of a record from a key on, up to the closing brace. -/
def readMembers : (fuel : Nat) → List Char → List (Reading × Reading) × Bool × List Char
  | 0, _ => ([], false, [])
  | fuel + 1, input =>
    let (key, rest) := readValue fuel input
    match skipGap rest with
    | ':' :: rest =>
      let (value, rest) := readValue fuel rest
      match skipGap rest with
      | ',' :: rest =>
        let (members, closed, rest) := readMembers fuel rest
        ((key, value) :: members, closed, rest)
      | '}' :: rest => ([(key, value)], true, rest)
      | _ => ([(key, value)], false, [])
    | _ => ([(key, .damaged)], false, [])

end

/-- A reading, and whether nothing but a gap follows it. -/
structure Document where
  /-- What the text says. -/
  reading : Reading
  /-- Whether the text ends there. -/
  ended : Bool

/-- Reads a whole text. -/
def Document.ofText (text : List Char) : Document :=
  let (reading, rest) := readValue (2 * text.length + 2) text
  ⟨reading, (skipGap rest).isEmpty⟩

end Json

end Constellation
