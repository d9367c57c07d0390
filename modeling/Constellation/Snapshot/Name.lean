import Constellation.Path
import Constellation.Text.Numeral
set_option autoImplicit false

/-!
# Names of snapshot files

## Main definitions

* `Snapshot.fileName` — the name of the snapshot at a time.
* `Snapshot.timeOf?` — the time that a name stands for.
* `Snapshot.path` — the path of the snapshot at a time.

## Main results

* `Snapshot.timeOf?_fileName` — the time of a file name that was made for a time.
* `Snapshot.lt_longBound_of_timeOf?` — the time of a name has 64 bits.
-/

namespace Constellation

namespace Snapshot

/-- What comes before the time in a file name. -/
def nameStart : List Char := ['f', 's', 't', 'a', 't', 'e', '_']

/-- What comes after the time in a file name. -/
def nameEnd : List Char := ['.', 't', 'x', 't']

/-- The characters of the name of the snapshot at a time in nanoseconds. -/
def nameChars (time : Nat) : List Char := nameStart ++ Numeral.digits time ++ nameEnd

/-- The name of the snapshot at a time in nanoseconds. -/
def fileName (time : Nat) : String := String.ofList (nameChars time)

/-- What is between the start and the end of a name, if it has both. -/
def middle? (name : List Char) : Option (List Char) :=
  if nameStart.isPrefixOf name && nameEnd.isSuffixOf (name.drop nameStart.length) then
    let rest := name.drop nameStart.length
    some (rest.take (rest.length - nameEnd.length))
  else none

/-- The time in nanoseconds that a name stands for: digits of any number whose value has 64
bits. -/
def timeOf? (name : List Char) : Option Nat :=
  match middle? name with
  | none => none
  | some digits =>
    if digits.isEmpty then none
    else
      match Numeral.accumulate Numeral.longBound 0 digits with
      | .ok time => some time
      | .error _ => none

/-- The path of the snapshot at a time, in a directory. -/
def path (directory : Path) (time : Nat) : Path := directory.join ⟨fileName time⟩

/-- What is between the start and the end of a name that was put together. -/
theorem middle?_append (digits : List Char) :
    middle? (nameStart ++ digits ++ nameEnd) = some digits := by
  have hstart : nameStart.isPrefixOf (nameStart ++ (digits ++ nameEnd)) = true :=
    List.isPrefixOf_iff_prefix.2 (List.prefix_append _ _)
  have hend : nameEnd.isSuffixOf (digits ++ nameEnd) = true :=
    List.isSuffixOf_iff_suffix.2 (List.suffix_append _ _)
  simp only [middle?, List.append_assoc, hstart, List.drop_left, hend, Bool.and_self, if_true,
    List.length_append, Nat.add_sub_cancel, List.take_left]

/-- **The time of a file name that was made for a time** is that time. -/
theorem timeOf?_fileName {time : Nat} (h : time < Numeral.longBound) :
    timeOf? (fileName time).toList = some time := by
  have hne : (Numeral.digits time).isEmpty = false := by
    simp [Numeral.digits]
  rw [fileName, String.toList_ofList, timeOf?, nameChars, middle?_append]
  simp [hne, Numeral.accumulate_digits h]

/-- The time that a name stands for has 64 bits. -/
theorem lt_longBound_of_timeOf? {name : List Char} {time : Nat} (h : timeOf? name = some time) :
    time < Numeral.longBound := by
  unfold timeOf? at h
  split at h
  · cases h
  · next digits _ =>
    split at h
    · cases h
    · cases hread : Numeral.accumulate Numeral.longBound 0 digits with
      | error fault => simp [hread] at h
      | ok n =>
        simp only [hread, Option.some.injEq] at h
        subst h
        exact Numeral.lt_of_accumulate_eq_ok (by decide) hread

end Snapshot

end Constellation
