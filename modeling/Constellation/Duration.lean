import Constellation.Text.Numeral
set_option autoImplicit false

/-!
# Durations

## Main definitions

* `Duration` — a span of time in nanoseconds.
* `Duration.seconds` — the span as a double.
* `Duration.text` — the span as people read it.

## Main results

* `Duration.ofParts_wholeSeconds_subsecond` — a span consists of its whole seconds and the rest.
-/

namespace Constellation

/-- A span of time. -/
structure Duration where
  /-- Its length in nanoseconds. -/
  nanos : Nat
  deriving DecidableEq, Repr, Inhabited

namespace Duration

/-- The nanoseconds of a second. -/
def second : Nat := 1000000000

/-- The span of whole seconds and nanoseconds. -/
def ofParts (seconds nanos : Nat) : Duration := ⟨seconds * second + nanos⟩

/-- The span of whole milliseconds. -/
def ofMillis (millis : Nat) : Duration := ⟨millis * 1000000⟩

/-- The whole seconds of a span. -/
def wholeSeconds (d : Duration) : Nat := d.nanos / second

/-- The nanoseconds beyond the whole seconds. -/
def subsecond (d : Duration) : Nat := d.nanos % second

/-- The span in seconds. The two parts are converted on their own and then added. -/
def seconds (d : Duration) : Float :=
  d.wholeSeconds.toUInt64.toFloat + d.subsecond.toUInt64.toFloat / 1000000000.0

/-- A number of units with a fraction of `width` digits, without the zeros at its end. -/
def decimal (whole fraction width : Nat) (unit : String) : String :=
  let digits := Numeral.digits fraction
  let padded := List.replicate (width - digits.length) '0' ++ digits
  let kept := (padded.reverse.dropWhile (· == '0')).reverse
  if fraction = 0 then s!"{whole}{unit}" else s!"{whole}.{String.ofList kept}{unit}"

/-- The span in the largest of the usual units in which it is at least one. -/
def text (d : Duration) : String :=
  if 0 < d.wholeSeconds then decimal d.wholeSeconds d.subsecond 9 "s"
  else if 1000000 ≤ d.nanos then decimal (d.nanos / 1000000) (d.nanos % 1000000) 6 "ms"
  else if 1000 ≤ d.nanos then decimal (d.nanos / 1000) (d.nanos % 1000) 3 "µs"
  else s!"{d.nanos}ns"

/-- A span consists of its whole seconds and the rest. -/
theorem ofParts_wholeSeconds_subsecond (d : Duration) :
    ofParts d.wholeSeconds d.subsecond = d := by
  cases d
  simp [ofParts, wholeSeconds, subsecond, second, Nat.div_add_mod']

end Duration

end Constellation
