import Constellation.Proofs.History.Agreeing
import Constellation.Proofs.Snapshot.StepTimes
set_option autoImplicit false

/-!
# Gaps as distances in time

The gap of a change is a number of steps. It is told as a duration, and it lies between two
snapshots whose files carry their times in their names. This module compares the two.

## Main definitions

* `ReadsFrom` — the file that the snapshot of a step is read from, and the time in its name.
* `UpdateInterval.Spans` — a change lies between two files, whose times are known.

## Main results

* `UpdateInterval.gapDuration_of_lt` — a gap whose end has 64 bits is told exactly.
* `UpdateInterval.gapDuration_of_le` — with longer steps every gap is told as the longest one.
* `SnapshotSource.exists_readsFrom` — a snapshot that is loaded is read from a file.
* `SnapshotSource.scan_spans` — every change of a scan lies between two files.

## Design

The times of the files are products of the lowest 64 bits of the step duration, and the gap is a
product of the whole duration, up to the greatest number of 64 bits. The two agree as long as the
duration has 64 bits. A longer duration is cut off in one of the products and not in the other, so
that the files may lie close together while the gap is told as the longest one.
-/

namespace Constellation

/-! ## Gaps as durations -/

namespace UpdateInterval

/-- **A gap whose end has 64 bits is told exactly.** -/
lemma gapDuration_of_lt {i : UpdateInterval} {duration : Duration}
    (hduration : duration.nanos < Numeral.longBound)
    (hgap : i.gap * duration.nanos < Numeral.longBound) :
    (i.gapDuration duration).nanos = i.gap * duration.nanos := by
  have hle : ∀ {n : ℕ}, n < Numeral.longBound → n ≤ saturation := fun h => Nat.le_pred_of_lt h
  rw [gapDuration, Nat.min_eq_right (hle hduration), Nat.mul_comm]
  rcases Nat.eq_zero_or_pos duration.nanos with hzero | hpos
  · rw [hzero, Nat.mul_zero, Nat.mul_zero, Nat.min_zero]
  · have hsteps : i.gap < Numeral.longBound :=
      lt_of_le_of_lt (Nat.le_mul_of_pos_right i.gap hpos) hgap
    rw [Nat.min_eq_right (hle hsteps), Nat.min_eq_right (hle hgap)]

/-- **With longer steps every gap is told as the longest one**, unless it is none. -/
lemma gapDuration_of_le {i : UpdateInterval} {duration : Duration}
    (hduration : Numeral.longBound ≤ duration.nanos) :
    (i.gapDuration duration).nanos = if i.gap = 0 then 0 else saturation := by
  have hle : saturation ≤ duration.nanos := Nat.le_trans (Nat.sub_le _ _) hduration
  rw [gapDuration, Nat.min_eq_left hle]
  split
  · next hgap => rw [hgap, Nat.min_zero, Nat.mul_zero, Nat.min_zero]
  · next hgap =>
    have hpos : 0 < min saturation i.gap :=
      Nat.lt_min.mpr ⟨by decide, Nat.pos_of_ne_zero hgap⟩
    exact Nat.min_eq_left (Nat.le_mul_of_pos_right saturation hpos)

/-- A change does not lie before the first step. -/
lemma gap_le_step {pair : RoutePair} {h : List Sighting} {i : UpdateInterval}
    (hi : i ∈ changesOf pair h) : i.gap ≤ i.step := by
  obtain ⟨position, -, rfl⟩ := List.mem_map.mp hi
  exact Nat.sub_le _ _

end UpdateInterval

/-! ## The files of the steps -/

/-- The file that the snapshot of a step is read from, and the time in its name. -/
structure ReadsFrom (tree : FileTree) (directory : Path) (duration : Duration) (step : ℕ)
    (name : String) (time : ℕ) : Prop where
  /-- Whatever the tree, this file is read. -/
  opens : ∀ tree, (SnapshotSource.ofDirectory tree directory).load step duration =
    (Snapshot.readAt tree (directory.join ⟨name⟩)).mapError (HistoryFault.snapshot step)
  /-- In this tree it can be read. -/
  found : ∃ routes, Snapshot.readAt tree (directory.join ⟨name⟩) = .ok routes
  /-- Its name stands for the time. -/
  time : Snapshot.timeOf? name.toList = some time

/-- A change lies between two files: the one of its step, and the one that lies before it by its
gap. -/
structure UpdateInterval.Spans (i : UpdateInterval) (tree : FileTree) (directory : Path)
    (duration : Duration) (earlier later : String) (start finish : ℕ) : Prop where
  /-- There is a step so long before that of the change. -/
  le : i.gap ≤ i.step
  /-- The first file belongs to this step. -/
  earlier : ReadsFrom tree directory duration (i.step - i.gap) earlier start
  /-- The second file belongs to the step of the change. -/
  later : ReadsFrom tree directory duration i.step later finish
  /-- The times of the files are apart by the gap, in steps of 64 bits. -/
  distance : finish = start + i.gap * (duration.nanos % Numeral.longBound)

namespace SnapshotSource

/-- A step that can be loaded has a time. -/
lemma exists_timeOf?_of_load {source : SnapshotSource} {step : ℕ} {duration : Duration}
    {routes : List Route} (h : source.load step duration = .ok routes) :
    ∃ time, timeOf? step duration = some time ∧ source step time = .ok routes := by
  cases htime : timeOf? step duration with
  | none => simp [load, htime] at h
  | some time =>
    refine ⟨time, rfl, ?_⟩
    cases hsource : source step time with
    | error fault => simp [load, htime, hsource] at h
    | ok found => simpa [load, htime, hsource] using h

/-- The time of a step is its multiple of the lowest 64 bits of the duration. -/
lemma timeOf?_eq_some_iff {step time : ℕ} {duration : Duration} :
    timeOf? step duration = some time ↔
      time = step * (duration.nanos % Numeral.longBound) ∧ time < Numeral.longBound := by
  rw [timeOf?]
  split
  · next h =>
    rw [Option.some.injEq, eq_comm]
    exact ⟨fun heq => ⟨heq, heq ▸ h⟩, And.left⟩
  · next h => simpa using fun heq => heq ▸ Nat.not_lt.mp h

variable {tree : FileTree} {directory : Path} {duration : Duration}

/-- The snapshot of a step is read from the file with the name that is made for its time. -/
lemma readsFrom_fileName {step time : ℕ} (htime : timeOf? step duration = some time)
    {routes : List Route}
    (hread : Snapshot.readAt tree (Snapshot.path directory time) = .ok routes) :
    ReadsFrom tree directory duration step (Snapshot.fileName time) time where
  opens tree := (ofDirectory tree directory).load_of_timeOf? htime
  found := ⟨routes, hread⟩
  time := Snapshot.timeOf?_fileName (timeOf?_eq_some_iff.mp htime).2

/-- **A snapshot that is loaded is read from a file** whose name has the time of its step. -/
lemma exists_readsFrom {step : ℕ} {routes : List Route}
    (h : (ofDirectory tree directory).load step duration = .ok routes) :
    ∃ name time, ReadsFrom tree directory duration step name time ∧
      time = step * (duration.nanos % Numeral.longBound) ∧ time < Numeral.longBound := by
  obtain ⟨time, htime, hread⟩ := exists_timeOf?_of_load h
  exact ⟨_, time, readsFrom_fileName htime hread, timeOf?_eq_some_iff.mp htime⟩

/-- **Every change of a scan lies between two files**, one for its step and one for the step that
lies before it by its gap. If the duration of a step has 64 bits, the difference of the times in
their names is the duration that is told for the gap. Otherwise every gap is told as the longest
duration, unless it is none, and the times in the names are multiples of the lowest 64 bits.

**Proof sketch.** A recorded change is one of its pair in the snapshots of the scan, so its step
and the one before it by its gap are among those that have been loaded. -/
theorem scan_spans {watched : List RoutePair} {count : ℕ} {history : History}
    (hscan : (ofDirectory tree directory).scan watched count duration = .ok history) :
    ∀ i ∈ history.intervals, i.step < count ∧ ∃ earlier later start finish,
      i.Spans tree directory duration earlier later start finish ∧
      (duration.nanos < Numeral.longBound → (i.gapDuration duration).nanos = finish - start) ∧
      (Numeral.longBound ≤ duration.nanos →
        (i.gapDuration duration).nanos = if i.gap = 0 then 0 else UpdateInterval.saturation) := by
  have hloads := ((ofDirectory tree directory).exists_scan_iff duration watched count).mp
    ⟨history, hscan⟩
  obtain ⟨found, hfound, hdescribes⟩ :=
    (ofDirectory tree directory).scan_of_loads duration watched hloads
  obtain rfl := Except.ok.inj (hfound.symm.trans hscan)
  intro i hi
  have hchange := hdescribes.mem_changesOf hi
  have hle := UpdateInterval.gap_le_step hchange
  have hstep : i.step < count := by
    obtain ⟨s, hs, heq⟩ := exists_step_of_mem_changesOf hchange
    obtain ⟨t, -, hbefore, -⟩ := (ofDirectory tree directory).exists_sightingsOf_series duration
      i.pair (Nat.le_refl count)
    exact heq ▸ hbefore s hs
  -- both steps of the change have been loaded
  obtain ⟨routes, hroutes⟩ := hloads i.step hstep
  obtain ⟨routes', hroutes'⟩ := hloads (i.step - i.gap) (lt_of_le_of_lt (Nat.sub_le _ _) hstep)
  obtain ⟨later, finish, hlater, hfinish, hlt⟩ := exists_readsFrom hroutes
  obtain ⟨earlier, start, hearlier, hstart, -⟩ := exists_readsFrom hroutes'
  have hdistance : finish = start + i.gap * (duration.nanos % Numeral.longBound) := by
    rw [hfinish, hstart, ← Nat.add_mul, Nat.sub_add_cancel hle]
  refine ⟨hstep, earlier, later, start, finish, ⟨hle, hearlier, hlater, hdistance⟩, fun hbits => ?_,
    UpdateInterval.gapDuration_of_le⟩
  rw [Nat.mod_eq_of_lt hbits] at hdistance
  rw [UpdateInterval.gapDuration_of_lt hbits (by omega)]
  omega

/-! ## Files that lie close together -/

/-- A directory with two snapshots, in which a pair changes. -/
def closeTree : FileTree :=
  .ofList [(["d"], .directory), (["d", "fstate_0.txt"], .file "1,2,3\n".toUTF8),
    (["d", "fstate_100.txt"], .file "1,2,4\n".toUTF8)]

/-- The names of its files are made for their times. -/
lemma fileNames_closeTree :
    Snapshot.fileName 0 = "fstate_0.txt" ∧ Snapshot.fileName 100 = "fstate_100.txt" := by
  decide

/-- Both files can be read. -/
lemma readAt_closeTree :
    Snapshot.readAt closeTree (Snapshot.path ⟨"d"⟩ 0) = .ok [⟨1, 2, 3⟩] ∧
      Snapshot.readAt closeTree (Snapshot.path ⟨"d"⟩ 100) = .ok [⟨1, 2, 4⟩] := by
  decide +kernel

section CloseTree

variable (hbits : duration.nanos % Numeral.longBound = 100)

include hbits

/-- The steps of its files, if the lowest bits of the duration are as they should be. -/
lemma timeOf?_closeTree : timeOf? 0 duration = some 0 ∧ timeOf? 1 duration = some 100 := by
  rw [timeOf?_eq_some_iff, timeOf?_eq_some_iff, hbits]
  decide

/-- Then the change lies between the two files. -/
lemma spans_closeTree (source destination nextHop : NodeId) :
    UpdateInterval.Spans ⟨1, 1, source, destination, nextHop⟩ closeTree ⟨"d"⟩ duration
      "fstate_0.txt" "fstate_100.txt" 0 100 where
  le := Nat.le_refl 1
  earlier := fileNames_closeTree.1 ▸
    readsFrom_fileName (timeOf?_closeTree hbits).1 readAt_closeTree.1
  later := fileNames_closeTree.2 ▸
    readsFrom_fileName (timeOf?_closeTree hbits).2 readAt_closeTree.2
  distance := by simp [hbits]

/-- And a scan finds it. -/
lemma exists_scan_closeTree :
    ∃ history, (ofDirectory closeTree ⟨"d"⟩).scan [] 2 duration = .ok history ∧
      ⟨1, 1, 1, 2, 4⟩ ∈ history.intervals := by
  obtain ⟨hzero, hone⟩ := timeOf?_closeTree hbits
  have hfirst : (ofDirectory closeTree ⟨"d"⟩).load 0 duration = .ok [⟨1, 2, 3⟩] := by
    rw [load_of_timeOf? _ hzero, ofDirectory, readAt_closeTree.1]
    rfl
  have hsecond : (ofDirectory closeTree ⟨"d"⟩).load 1 duration = .ok [⟨1, 2, 4⟩] := by
    rw [load_of_timeOf? _ hone, ofDirectory, readAt_closeTree.2]
    rfl
  obtain ⟨history, hscan, hdescribes⟩ :=
    (ofDirectory closeTree ⟨"d"⟩).scan_of_loads duration [] (fun i (hi : i < 2) =>
      match i with
      | 0 => ⟨_, hfirst⟩
      | 1 => ⟨_, hsecond⟩)
  have hseries : (ofDirectory closeTree ⟨"d"⟩).series duration 2 =
      [(0, [⟨1, 2, 3⟩]), (1, [⟨1, 2, 4⟩])] := by
    rw [series, List.range_succ, List.range_one, List.map_append, List.map_singleton,
      List.map_singleton, snapshotAt, snapshotAt, hfirst, hsecond]
    rfl
  refine ⟨history, hscan, List.count_pos_iff.mp ?_⟩
  rw [hdescribes.count_intervals, hseries]
  decide

end CloseTree

/-- With steps of 100 nanoseconds the files of the change are as far apart as is told. -/
theorem scan_spans_close : ∃ history,
    (ofDirectory closeTree ⟨"d"⟩).scan [] 2 ⟨100⟩ = .ok history ∧
      ∃ i ∈ history.intervals, ∃ earlier later start finish,
        i.Spans closeTree ⟨"d"⟩ ⟨100⟩ earlier later start finish ∧ finish - start = 100 := by
  obtain ⟨history, hscan, hmem⟩ := @exists_scan_closeTree ⟨100⟩ (by decide)
  obtain ⟨-, earlier, later, start, finish, hspans, htold, -⟩ := scan_spans hscan _ hmem
  exact ⟨history, hscan, _, hmem, earlier, later, start, finish, hspans, (htold (by decide)).symm⟩

/-- **Longer steps are cut off in the times but not in the gaps**: the files of the change are 100
nanoseconds apart, and more than five hundred years are told. -/
theorem scan_cutOff : ∃ history,
    (ofDirectory closeTree ⟨"d"⟩).scan [] 2 ⟨18446744073709551716⟩ = .ok history ∧
      ∃ i ∈ history.intervals,
        i.Spans closeTree ⟨"d"⟩ ⟨18446744073709551716⟩ "fstate_0.txt" "fstate_100.txt" 0 100 ∧
        (i.gapDuration ⟨18446744073709551716⟩).nanos = 18446744073709551615 := by
  obtain ⟨history, hscan, hmem⟩ := @exists_scan_closeTree ⟨18446744073709551716⟩ (by decide)
  exact ⟨history, hscan, _, hmem, spans_closeTree (by decide) 1 2 4, by decide⟩

end SnapshotSource

end Constellation
