import Constellation.Json.Basic
import Constellation.Json.Reading
import Constellation.Text.Quoted
set_option autoImplicit false

/-!
# Faults of a JSON text

## Main definitions

* `Json.Kind` — what stands in a text where something else is expected.
* `Json.Problem` — the first fault of a text.
* `Json.Problem.message` — its wording.

## Design

A text that is no JSON has no further wording here: only that it is malformed matters. A text of
the wrong shape is described by what was found and what was expected.
-/

namespace Constellation

namespace Json

/-- What stands in a text where something else is expected. -/
inductive Kind
  /-- The value `null`. -/
  | null
  /-- A truth value. -/
  | boolean (value : Bool)
  /-- An integer. -/
  | integer (value : Int)
  /-- A double. -/
  | real (value : Float)
  /-- A string. -/
  | text (value : String)
  /-- A list. -/
  | list
  /-- A record. -/
  | record

/-- How a kind is named in a message. -/
def Kind.describe : Kind → String
  | null => "null"
  | boolean true => "boolean `true`"
  | boolean false => "boolean `false`"
  | integer n => s!"integer `{n}`"
  | real x => "floating point `" ++ Binary64.write realLayout x ++ "`"
  | text s => "string " ++ Quoted.ofText s
  | list => "sequence"
  | record => "map"

/-- The first fault of a text. -/
inductive Problem
  /-- The text is no JSON. -/
  | malformed
  /-- A value of the wrong kind. -/
  | wrongKind (found : Kind) (expected : String)
  /-- An integer outside the range of its field. -/
  | wrongValue (found : Int) (expected : String)
  /-- A list in place of a record that has too few items. -/
  | wrongLength (found : Nat) (expected : String)
  /-- A name that is none of the known ones. -/
  | unknownVariant (name : String) (known : List String)
  /-- A field that is not given. -/
  | missingField (name : String)
  /-- A field that is given twice. -/
  | duplicateField (name : String)
  /-- A value that a rule of its own forbids. -/
  | rejected (reason : String)

/-- The known names as an enumeration in words. -/
def describeNames : List String → String
  | [a] => s!"`{a}`"
  | [a, b] => s!"`{a}` or `{b}`"
  | names => "one of " ++ ", ".intercalate (names.map fun name => s!"`{name}`")

/-- The wording of a fault. -/
def Problem.message : Problem → String
  | malformed => "malformed"
  | wrongKind found expected => s!"invalid type: {found.describe}, expected {expected}"
  | wrongValue found expected => s!"invalid value: integer `{found}`, expected {expected}"
  | wrongLength found expected => s!"invalid length {found}, expected {expected}"
  | unknownVariant name known => s!"unknown variant `{name}`, expected {describeNames known}"
  | missingField name => s!"missing field `{name}`"
  | duplicateField name => s!"duplicate field `{name}`"
  | rejected reason => reason

/-- Refuses a reading that is not of the expected kind. A damaged value is no JSON, and neither is
a string or a number that has no value. -/
def Reading.refuse (expected : String) : Reading → Problem
  | damaged => .malformed
  | null => .wrongKind .null expected
  | boolean b => .wrongKind (.boolean b) expected
  | number (.natural n) => .wrongKind (.integer n) expected
  | number (.negative n) => .wrongKind (.integer n) expected
  | number (.real x) => .wrongKind (.real x) expected
  | number .beyond => .malformed
  | text (some s) => .wrongKind (.text s) expected
  | text none => .malformed
  | list _ _ => .wrongKind .list expected
  | record _ _ => .wrongKind .record expected

end Json

end Constellation
