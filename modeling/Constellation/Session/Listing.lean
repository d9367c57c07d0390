import Constellation.Text.Blank
import Constellation.Text.DecimalDigit
import Constellation.Text.Lines
set_option autoImplicit false

/-!
# Listings of sessions

A listing has a line for each session, with its process number and name, perhaps the date of its
start, and its state in parentheses. Dead sessions are listed too.

## Main definitions

* `isActiveSession` — whether a line lists a session that is attached or detached.
* `countSessions` — the number of such lines.

## Design

A line is taken apart from the left: blanks, a number, a dot, a name without blanks, and a blank.
None of these pieces can be cut in two ways, because each ends at the first character that it
cannot hold. What follows may be any text, as long as a state is the last thing in it.
-/

namespace Constellation

/-- The ASCII lower case form of a character. -/
def lowered (c : Char) : Char := c.toLower

/-- What is left of a line after a nonempty run of characters that satisfy `p`. -/
def skipSome (p : Char → Bool) (text : List Char) : Option (List Char) :=
  match text with
  | [] => none
  | c :: rest => if p c then some (rest.dropWhile p) else none

/-- What is left of a line after a character that satisfies `p`. -/
def skipOne (p : Char → Bool) : List Char → Option (List Char)
  | [] => none
  | c :: rest => if p c then some rest else none

/-- What follows the process number, the name and a blank in the line of a session. -/
def sessionRemarks? (line : List Char) : Option (List Char) := do
  let rest ← skipSome isBlank line
  let rest ← skipSome isDecimalDigit rest
  let rest ← skipOne (· == '.') rest
  let rest ← skipSome (fun c => !isBlank c) rest
  skipOne isBlank rest

/-- The states of sessions that are active. -/
def activeStates : List (List Char) :=
  ["(detached)", "(attached)", "(multi, detached)", "(multi, attached)"].map String.toList

/-- Whether a text ends in the state of an active session. -/
def endsInActiveState (text : List Char) : Bool :=
  let trimmed := (trimLeading text.reverse).reverse.map lowered
  activeStates.any fun state => state.isSuffixOf trimmed

/-- Whether a line lists a session that is attached or detached. -/
def isActiveSession (line : List Char) : Bool :=
  match sessionRemarks? line with
  | some remarks => endsInActiveState remarks
  | none => false

/-- The number of active sessions in a listing. -/
def countSessions (listing : List Char) : Nat := (lines listing).countP isActiveSession

end Constellation
