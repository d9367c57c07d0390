import Constellation.Proofs.FileTree.Searching
import Constellation.Proofs.Snapshot.StepTimes
set_option autoImplicit false

/-!
# Which files a scan opens

A directory is searched for names that stand for times, and a scan opens the files whose names are
made for these times. A time has many names that stand for it, with zeros before its digits, but
only one that is made for it.

## Main results

* `Snapshot.isPlain_fileName` — a name that is made for a time can be the last one of a path.
* `Snapshot.load_of_stepsToScan` — the file of each step is opened under the name made for its time.
* `Snapshot.stepsToScan_paddedTree` — a directory may be scanned although a file that is opened is
  missing.
* `Snapshot.stepsToScan_opens` — no file is missing if its very name is found, and none is read
  otherwise.
-/

namespace Constellation

namespace Snapshot

/-! ## Names and files -/

/-- A name that is made for a time can be the last one of a path. -/
lemma isPlain_fileName (time : ℕ) : FileTree.IsPlain (fileName time) := by
  have hchars : (fileName time).toList = nameStart ++ Numeral.digits time ++ nameEnd := by
    rw [fileName, String.toList_ofList, nameChars]
  have hhead : (fileName time).toList.head? = some 'f' := by
    rw [hchars]
    rfl
  have hne : ∀ other : String, other.toList.head? ≠ some 'f' → fileName time ≠ other := by
    rintro other hother rfl
    exact hother hhead
  constructor
  · rw [hchars, List.append_assoc, List.mem_append, List.mem_append]
    rintro (hstart | hdigits | hend)
    · revert hstart
      decide
    · have hdigit := Nat.isDigit_of_mem_toDigits (by decide) (by decide) hdigits
      revert hdigit
      decide
    · revert hend
      decide
  · exact hne "" (by decide)
  · rw [FileTree.isDots, Bool.or_eq_false_iff, beq_eq_false_iff_ne, beq_eq_false_iff_ne]
    exact ⟨hne "." (by decide), hne ".." (by decide)⟩

variable {tree : FileTree} {p : Path}

/-- A snapshot is said to be missing only if nothing is at its path. -/
lemma entryAt_of_readAt_missing {q : Path} (h : readAt tree p = .error (.missing q)) :
    tree.entryAt p = .error .notFound := by
  rw [readAt] at h
  split at h
  · rw [parse] at h
    split at h <;> cases h
  · cases h
  · next hnotFound => exact hnotFound
  · cases h

/-- A snapshot is read only if something is at its path. -/
lemma entryAt_of_readAt_ok {routes : List Route} (h : readAt tree p = .ok routes) :
    ∃ entry, tree.entryAt p = .ok entry := by
  cases hentry : tree.entryAt p with
  | ok entry => exact ⟨entry, rfl⟩
  | error fault =>
    rw [readAt, hentry] at h
    cases fault <;> cases h

/-! ## Scans -/

/-- A directory with a zero before the digits of a name. -/
def paddedTree : FileTree :=
  .ofList [(["d"], .directory), (["d", "fstate_0.txt"], .file "1,2,3\n".toUTF8),
    (["d", "fstate_0100.txt"], .file "1,2,3\n".toUTF8),
    (["d", "fstate_200.txt"], .file "1,2,3\n".toUTF8),
    (["d", "fstate_300.txt"], .file "1,2,3\n".toUTF8)]

/-- The names in this directory. -/
def paddedNames : List String :=
  ["fstate_0.txt", "fstate_0100.txt", "fstate_200.txt", "fstate_300.txt"]

/-- **The directory may be scanned although a file that is opened is missing.** -/
theorem stepsToScan_paddedTree :
    paddedTree.namesIn ⟨"d"⟩ = .ok paddedNames ∧
      stepsToScan paddedTree ⟨"d"⟩ none none ⟨100000000⟩ = .ok (4, ⟨100⟩) ∧
      fileName (1 * 100) ∉ paddedNames ∧
      (SnapshotSource.ofDirectory paddedTree ⟨"d"⟩).load 1 ⟨100⟩ =
        .error (.snapshot 1 (.missing ⟨"d/fstate_100.txt"⟩)) := by
  have hnames : paddedTree.namesIn ⟨"d"⟩ = .ok paddedNames := by decide
  have htimes : timesNamed paddedNames = [0, 100, 200, 300].toFinset := by decide
  have hindex : discover paddedTree ⟨"d"⟩ (givenStep none) =
      .ok ⟨⟨"d"⟩, [0, 100, 200, 300], some 100, []⟩ := by
    have hstep : effectiveStep (givenStep none) [0, 100, 200, 300] = some 100 := by
      simp [givenStep, effectiveStep, commonDivisor, euclid]
    rw [discover_of_times hnames htimes (by decide) (by decide), Index.ofTimes, hstep]
    decide
  exact ⟨hnames, stepsToScan_of_discover hindex _, by decide, by decide⟩

section Scans

variable {directory : Path} {duration : Option Duration} {fallback d : Duration} {n i : ℕ}
  {names : List String}

/-- A name in the directory stands for the time of each step. -/
lemma mem_timesNamed_of_stepsToScan (hnames : tree.namesIn directory = .ok names)
    (h : stepsToScan tree directory none duration fallback = .ok (n, d)) (hi : i < n) :
    i * d.nanos ∈ timesNamed names := by
  obtain ⟨names', hnames', -, hsteps⟩ := exists_times_of_stepsToScan h
  cases hnames.symm.trans hnames'
  exact (Finset.mem_sort _).mp (List.mem_of_getElem? (hsteps i hi).1)

/-- The file of each step is opened under the name that is made for its time. -/
lemma load_of_stepsToScan (h : stepsToScan tree directory none duration fallback = .ok (n, d))
    (hi : i < n) :
    (SnapshotSource.ofDirectory tree directory).load i d =
      (readAt tree (path directory (i * d.nanos))).mapError (HistoryFault.snapshot i) := by
  obtain ⟨names, -, -, hsteps⟩ := exists_times_of_stepsToScan h
  exact (hsteps i hi).2 _

/-- No file is missing if its very name is found. -/
lemma load_ne_missing (hkeyed : tree.IsKeyed) (hdirectory : directory.text ≠ "")
    (hnames : tree.namesIn directory = .ok names)
    (h : stepsToScan tree directory none duration fallback = .ok (n, d)) (hi : i < n)
    (hmem : fileName (i * d.nanos) ∈ names) (q : Path) :
    (SnapshotSource.ofDirectory tree directory).load i d ≠ .error (.snapshot i (.missing q)) := by
  rw [load_of_stepsToScan h hi]
  intro hload
  cases hread : readAt tree (path directory (i * d.nanos)) with
  | error fault =>
    rw [hread] at hload
    cases hload
    exact FileTree.entryAt_join_ne_notFound hkeyed hdirectory hnames (isPlain_fileName _) hmem
      (entryAt_of_readAt_missing hread)
  | ok routes =>
    rw [hread] at hload
    cases hload

/-- No file is read unless its very name is found. -/
lemma mem_of_load (hdirectory : directory.text ≠ "") (hnames : tree.namesIn directory = .ok names)
    (h : stepsToScan tree directory none duration fallback = .ok (n, d)) (hi : i < n)
    {routes : List Route}
    (hload : (SnapshotSource.ofDirectory tree directory).load i d = .ok routes) :
    fileName (i * d.nanos) ∈ names := by
  rw [load_of_stepsToScan h hi] at hload
  cases hread : readAt tree (path directory (i * d.nanos)) with
  | error fault =>
    rw [hread] at hload
    cases hload
  | ok found =>
    obtain ⟨entry, hentry⟩ := entryAt_of_readAt_ok hread
    obtain ⟨name, hname, -⟩ := mem_timesNamed.mp (mem_timesNamed_of_stepsToScan hnames h hi)
    exact FileTree.mem_of_entryAt_join hdirectory hnames (List.ne_nil_of_mem hname)
      (isPlain_fileName _) hentry

end Scans

/-- **Which files a scan opens.** If a directory may be scanned, some name in it stands for the time
of each step, and the file of the step is opened under the name that is made for this time. If this
very name is in the directory, the file is not missing, and otherwise it cannot be read. So no file
is missing if all names that stand for times are made for them. -/
theorem stepsToScan_opens {tree : FileTree} (hkeyed : tree.IsKeyed) {directory : Path}
    (hdirectory : directory.text ≠ "") {names : List String}
    (hnames : tree.namesIn directory = .ok names) (duration : Option Duration)
    {fallback d : Duration} {n : ℕ}
    (h : stepsToScan tree directory none duration fallback = .ok (n, d)) :
    (∀ i < n, ∃ name ∈ names, timeOf? name.toList = some (i * d.nanos)) ∧
      (∀ i < n, fileName (i * d.nanos) ∈ names → ∀ q,
        (SnapshotSource.ofDirectory tree directory).load i d ≠
          .error (.snapshot i (.missing q))) ∧
      (∀ i < n, fileName (i * d.nanos) ∉ names → ∀ routes,
        (SnapshotSource.ofDirectory tree directory).load i d ≠ .ok routes) ∧
      ((∀ name ∈ names, ∀ time, timeOf? name.toList = some time → name = fileName time) →
        ∀ i < n, fileName (i * d.nanos) ∈ names) := by
  have hfound : ∀ i < n, ∃ name ∈ names, timeOf? name.toList = some (i * d.nanos) :=
    fun i hi => mem_timesNamed.mp (mem_timesNamed_of_stepsToScan hnames h hi)
  refine ⟨hfound, fun i hi hmem => load_ne_missing hkeyed hdirectory hnames h hi hmem,
    fun i hi hnotMem routes hload => hnotMem (mem_of_load hdirectory hnames h hi hload), ?_⟩
  intro hmade i hi
  obtain ⟨name, hmem, htime⟩ := hfound i hi
  rw [← hmade name hmem _ htime]
  exact hmem

/-- In a directory of two snapshots under the names made for their times, neither is missing. -/
theorem stepsToScan_opens_sample :
    (∀ i < 2, fileName (i * 18446744073709551615) ∈ farNames) ∧
      ∀ q, (SnapshotSource.ofDirectory farTree ⟨"d"⟩).load 1 ⟨18446744073709551615⟩ ≠
        .error (.snapshot 1 (.missing q)) := by
  obtain ⟨-, hopens, -, hmade⟩ := stepsToScan_opens (FileTree.isKeyed_ofList _) (by decide)
    namesIn_farTree (some ⟨18446744073709551621⟩) stepsToScan_farTree
  refine ⟨hmade fun name hname time htime => ?_, hopens 1 (by decide) (by decide)⟩
  rw [farNames, List.mem_cons, List.mem_singleton] at hname
  rcases hname with rfl | rfl
  · have hfirst : timeOf? "fstate_0.txt".toList = some 0 := by decide
    obtain rfl := Option.some.inj (hfirst.symm.trans htime)
    decide
  · have hsecond : timeOf? "fstate_18446744073709551615.txt".toList =
        some 18446744073709551615 := by decide
    obtain rfl := Option.some.inj (hsecond.symm.trans htime)
    decide

end Snapshot

end Constellation
