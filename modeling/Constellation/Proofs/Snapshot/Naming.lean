import Constellation.Proofs.Text.Numerals
import Constellation.Snapshot.Name
set_option autoImplicit false

/-!
# Which names are names of snapshots

The files of a snapshot directory are told apart by their names alone. A name that is made for a
time is read back as this time, and what else is read as a time is said in full: digits may have any
number of zeros before them, but their value has to fit into 64 bits.

## Main definitions

* `Snapshot.StandsFor` — a name has the digits of a time between its fixed start and end.

## Main results

* `Snapshot.middle?_eq_some_iff` — what is cut out of a name.
* `Snapshot.timeOf?_eq_some_iff` — which names are read as a time.
* `Snapshot.fileName_exact` — the names made for times, and the times of all names.
-/

namespace Constellation

namespace Snapshot

/-- A name stands for a time: it is `fstate_`, one or more digits whose value is the time, and
`.txt`, with nothing before or after. -/
def StandsFor (name : List Char) (time : ℕ) : Prop :=
  ∃ digits, name = "fstate_".toList ++ digits ++ ".txt".toList ∧ digits ≠ [] ∧
    (∀ c ∈ digits, c.isDigit = true) ∧ Nat.ofDigitChars 10 digits 0 = time

variable {name : List Char} {time : ℕ}

/-- **What is cut out of a name** is all that stands between the start and the end. -/
lemma middle?_eq_some_iff {digits : List Char} :
    middle? name = some digits ↔ name = nameStart ++ digits ++ nameEnd := by
  constructor
  · intro h
    rw [middle?] at h
    split at h
    · next hboth =>
      rw [Bool.and_eq_true] at hboth
      obtain ⟨rest, rfl⟩ := List.isPrefixOf_iff_prefix.mp hboth.1
      rw [List.drop_left] at hboth h
      obtain ⟨middle, rfl⟩ := List.isSuffixOf_iff_suffix.mp hboth.2
      dsimp only at h
      rw [List.length_append, Nat.add_sub_cancel, List.take_left, Option.some.injEq] at h
      rw [h, List.append_assoc]
    · cases h
  · rintro rfl
    exact middle?_append digits

/-- **A name is read as a time** if and only if it stands for it and the time has 64 bits. -/
lemma timeOf?_eq_some_iff :
    timeOf? name = some time ↔ StandsFor name time ∧ time < Numeral.longBound := by
  have hpositive : 0 < Numeral.longBound := by decide
  constructor
  · intro h
    have hlt := lt_longBound_of_timeOf? h
    rw [timeOf?] at h
    split at h
    · cases h
    · next digits hmiddle =>
      split at h
      · cases h
      · next hne =>
        split at h
        · next found hread =>
          cases h
          obtain ⟨hdigits, hvalue, -⟩ := (Numeral.accumulate_eq_ok_iff hpositive).mp hread
          exact ⟨⟨digits, middle?_eq_some_iff.mp hmiddle, by simpa using hne, hdigits, hvalue⟩, hlt⟩
        · cases h
  · rintro ⟨⟨digits, hname, hne, hdigits, hvalue⟩, hlt⟩
    have hread := (Numeral.accumulate_eq_ok_iff hpositive).mpr ⟨hdigits, hvalue, hlt⟩
    have hmiddle : middle? name = some digits := middle?_eq_some_iff.mpr hname
    have hempty : digits.isEmpty = false := by simpa using hne
    simp only [timeOf?, hmiddle, hempty, hread, Bool.false_eq_true, if_false]

/-- A name is not read as a time if and only if it stands for no time that has 64 bits. -/
lemma timeOf?_eq_none_iff :
    timeOf? name = none ↔ ∀ time < Numeral.longBound, ¬ StandsFor name time := by
  rw [Option.eq_none_iff_forall_ne_some]
  refine forall_congr' fun time => ?_
  rw [ne_eq, timeOf?_eq_some_iff]
  exact ⟨fun h hlt hstands => h ⟨hstands, hlt⟩, fun h hboth => h hboth.2 hboth.1⟩

/-- **The names of snapshots.** The name that is made for a time of 64 bits is read back as this
time, so different times have different names. A name is read as a time if and only if it stands for
it and the time has 64 bits, and otherwise it is read as none. -/
theorem fileName_exact :
    (∀ time : UInt64, timeOf? (fileName time.toNat).toList = some time.toNat) ∧
    (Function.Injective fun time : UInt64 => fileName time.toNat) ∧
    ∀ name : String,
      (∀ time, timeOf? name.toList = some time ↔
        StandsFor name.toList time ∧ time < Numeral.longBound) ∧
      (timeOf? name.toList = none ↔
        ∀ time < Numeral.longBound, ¬ StandsFor name.toList time) := by
  have hread : ∀ time : UInt64, timeOf? (fileName time.toNat).toList = some time.toNat :=
    fun time => timeOf?_fileName time.toNat_lt
  refine ⟨hread, fun time time' heq => ?_, fun name => ⟨fun _ => timeOf?_eq_some_iff,
    timeOf?_eq_none_iff⟩⟩
  have hsame : some time.toNat = some time'.toNat := by
    rw [← hread time, ← hread time']
    exact congrArg (fun name => timeOf? name.toList) heq
  exact UInt64.toNat_inj.mp (Option.some.inj hsame)

/-- Zeros before the digits do not matter, but the value does. -/
example : timeOf? "fstate_00018446744073709551615.txt".toList = some 18446744073709551615 ∧
    timeOf? "fstate_18446744073709551616.txt".toList = none := by decide

end Snapshot

end Constellation
