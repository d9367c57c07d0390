import Constellation.Binary64.Layout
set_option autoImplicit false

/-!
# JSON values and their stored text

Configurations and run lists are stored as indented JSON.

## Main definitions

* `Json` — the values that this library stores.
* `Json.quote` — the text of a string.
* `Json.pretty` — the indented text of a value.

## Design

Members of a record keep the order in which they are given. Each nesting level is indented by two
spaces, every item and member stands on a line of its own, and an empty list or record takes two
characters.
-/

namespace Constellation

/-- A value to be stored. -/
inductive Json
  /-- The absence of a value. -/
  | null
  /-- A truth value. -/
  | boolean (value : Bool)
  /-- A natural number. -/
  | natural (value : Nat)
  /-- A double. -/
  | real (value : Float)
  /-- A text. -/
  | text (value : String)
  /-- A list of values. -/
  | list (items : List Json)
  /-- Named values in order. -/
  | record (members : List (String × Json))

namespace Json

/-- Stored doubles are positional from `0.00001` up to sixteen digits before the point, and a
positive exponent has a sign. -/
def realLayout : Binary64.Layout := ⟨-5, 16, true, .even⟩

/-- The lower case hexadecimal digit of a number below sixteen. -/
def hexDigit (n : Nat) : Char := Nat.digitChar n

/-- How one character is written between the quotes. -/
def escape (c : Char) : List Char :=
  if c = '"' then ['\\', '"']
  else if c = '\\' then ['\\', '\\']
  else if c = '\x08' then ['\\', 'b']
  else if c = '\x0c' then ['\\', 'f']
  else if c = '\n' then ['\\', 'n']
  else if c = '\r' then ['\\', 'r']
  else if c = '\t' then ['\\', 't']
  else if c.toNat < 0x20 then
    ['\\', 'u', '0', '0', hexDigit (c.toNat / 16), hexDigit (c.toNat % 16)]
  else [c]

/-- A text in quotes. -/
def quote (text : List Char) : List Char := '"' :: text.flatMap escape ++ ['"']

/-- A line break and the indentation of a nesting level. -/
def newline (depth : Nat) : List Char := '\n' :: List.replicate (2 * depth) ' '

/-- The text of a double. JSON has no infinities. -/
def writeReal (x : Float) : List Char :=
  match Binary64.finite? x with
  | some _ => (Binary64.write realLayout x).toList
  | none => ['n', 'u', 'l', 'l']

mutual

/-- The text of a value at a nesting level. -/
def write (depth : Nat) : Json → List Char
  | null => ['n', 'u', 'l', 'l']
  | boolean true => ['t', 'r', 'u', 'e']
  | boolean false => ['f', 'a', 'l', 's', 'e']
  | natural n => Numeral.digits n
  | real x => writeReal x
  | text s => quote s.toList
  | list [] => ['[', ']']
  | list (item :: items) =>
    '[' :: newline (depth + 1) ++ write (depth + 1) item ++ writeItems (depth + 1) items ++
      newline depth ++ [']']
  | record [] => ['{', '}']
  | record ((name, value) :: members) =>
    '{' :: newline (depth + 1) ++ quote name.toList ++ [':', ' '] ++ write (depth + 1) value ++
      writeMembers (depth + 1) members ++ newline depth ++ ['}']

/-- The text of the items after the first one. -/
def writeItems (depth : Nat) : List Json → List Char
  | [] => []
  | item :: items => ',' :: newline depth ++ write depth item ++ writeItems depth items

/-- The text of the members after the first one. -/
def writeMembers (depth : Nat) : List (String × Json) → List Char
  | [] => []
  | (name, value) :: members =>
    ',' :: newline depth ++ quote name.toList ++ [':', ' '] ++ write depth value ++
      writeMembers depth members

end

/-- The indented text of a value. -/
def pretty (value : Json) : String := String.ofList (value.write 0)

end Json

end Constellation
