import Constellation.Binary64.Notation
import Constellation.Experiment.Fault
set_option autoImplicit false

/-!
# Loss ratios

All links of a run lose the same share of packets. The text in which this share is configured
becomes part of the name of the run, so it is kept next to the value.

## Main definitions

* `LossRatio` — a text that denotes a number from zero to one.
* `LossRatio.ofLabel` — checks a text.
* `LossRatio.value` — the number.

## Design

The number is a function of the text. A loss ratio is therefore the text alone, with a proof that
it is admissible, and two loss ratios are equal when their texts are.
-/

namespace Constellation

/-- The number that a text denotes, if it lies between zero and one. -/
def ratio? (label : String) : Option Float :=
  (Binary64.ofText? label.toList).filter fun x => 0.0 ≤ x && x ≤ 1.0

/-- A text that denotes a number from zero to one. -/
structure LossRatio where
  /-- The text as configured. -/
  label : String
  /-- It denotes a number from zero to one. -/
  isRatio : (ratio? label).isSome = true
  /-- It may become part of the name of a run. -/
  isSafe : isSafeName label = true
  deriving DecidableEq

namespace LossRatio

/-- Checks a text. Whether it denotes a ratio is looked at first. -/
def ofLabel (label : String) : Except ExperimentFault LossRatio :=
  if hratio : (ratio? label).isSome = true then
    if hsafe : isSafeName label = true then .ok ⟨label, hratio, hsafe⟩
    else .error (.unsafeName label)
  else .error (.invalidLossRatio label)

/-- The number that a loss ratio denotes. -/
def value (loss : LossRatio) : Float := (ratio? loss.label).get loss.isRatio

/-- No loss at all. -/
def zero : LossRatio where
  label := "0"
  isRatio := by decide +kernel
  isSafe := by decide +kernel

/-- Whether nothing is lost, written in the plainest way. -/
def isZero (loss : LossRatio) : Bool := loss == zero

/-- The ratio that is configured unless another one is: one packet in a hundred thousand. -/
def standard : LossRatio where
  label := "1e-5"
  isRatio := by decide +kernel
  isSafe := by decide +kernel

/-- Loss ratios are kept as their texts. -/
def format : Json.Format LossRatio where
  write loss := .text loss.label
  read reading := do
    let label ← Json.Format.text.read reading
    match ofLabel label with
    | .ok loss => pure loss
    | .error fault => throw (.rejected fault.message)

/-- Checking the text of a loss ratio gives that loss ratio. -/
theorem ofLabel_label (loss : LossRatio) : ofLabel loss.label = .ok loss := by
  simp [ofLabel, loss.isRatio, loss.isSafe]

/-- What a text is accepted as has that text. -/
theorem label_of_ofLabel {label : String} {loss : LossRatio} (h : ofLabel label = .ok loss) :
    loss.label = label := by
  unfold ofLabel at h
  split at h
  · split at h
    · cases h
      rfl
    · cases h
  · cases h

end LossRatio

end Constellation
