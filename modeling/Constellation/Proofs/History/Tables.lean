import Constellation.History.Records
import Constellation.Proofs.Binary64.Characters
import Constellation.Proofs.Csv.Lines
import Constellation.Proofs.FileTree.Writing
import Constellation.Proofs.Text.Numerals
set_option autoImplicit false

/-!
# The tables of a history are read back

## Main definitions

* `Numeral.value?` — the number that digits denote.
* `UpdateInterval.ofColumns?`, `ChangeCount.ofColumns?` — what the integer columns of a row say.

## Main results

* `History.readTable_intervalTable`, `History.readTable_countTable` — the tables are read back.
* `History.write_decodes` — whenever a history has been written, its two files decode to it.
* `History.write_empty` — a table without rows has no header.
-/

namespace Constellation

/-! ## Integer columns -/

/-- The number that digits denote. -/
def Numeral.value? (text : List Char) : Option ℕ :=
  if text.isEmpty || !text.all Char.isDigit then none else some (Nat.ofDigitChars 10 text 0)

/-- The digits of a number denote it. -/
lemma Numeral.value?_toString (n : ℕ) : Numeral.value? (toString n).toList = some n := by
  have htext : (toString n).toList = Nat.toDigits 10 n := Nat.toList_repr
  have hdigit : (Nat.toDigits 10 n).all Char.isDigit = true := List.all_eq_true.mpr fun _ hc =>
    Nat.isDigit_of_mem_toDigits (by decide) (by decide) hc
  rw [htext, Numeral.value?, hdigit, Nat.ofDigitChars_ten_toDigits, if_neg]
  simp

/-- A node is read from its digits. -/
lemma readWord_toString (node : NodeId) :
    (Numeral.readWord (toString node).toList).toOption = some node := by
  have htext : (toString node).toList = Numeral.digits node.toNat := Nat.toList_repr
  rw [htext, Numeral.readWord_eq_ok_iff.mpr (Numeral.denotes_digits _)]
  rfl

/-- What the integer columns of a row in the table of changes say. -/
def UpdateInterval.ofColumns? : List (List Char) → Option UpdateInterval
  | [gap, _, step, _, source, destination, nextHop] => do
    let gap ← Numeral.value? gap
    let step ← Numeral.value? step
    let source ← (Numeral.readWord source).toOption
    let destination ← (Numeral.readWord destination).toOption
    let nextHop ← (Numeral.readWord nextHop).toOption
    pure ⟨gap, step, source, destination, nextHop⟩
  | _ => none

/-- What a row in the table of pairs says, with the place in the ranking first. -/
def ChangeCount.ofColumns? : List (List Char) → Option (ℕ × ChangeCount)
  | [rank, source, destination, changes] => do
    let rank ← Numeral.value? rank
    let source ← (Numeral.readWord source).toOption
    let destination ← (Numeral.readWord destination).toOption
    let changes ← Numeral.value? changes
    pure (rank, ⟨source, destination, changes⟩)
  | _ => none

/-! ## Rows -/

/-- The text of a double can stand in a field. -/
lemma Binary64.isFieldChar_of_mem_write (layout : Layout) (x : Float) {c : Char}
    (h : c ∈ (write layout x).toList) : Csv.isFieldChar c = true := by
  refine Csv.isFieldChar_of_any (p := fun c => isNotationChar c || c.isAlpha) (by decide) ?_
  rw [Bool.or_eq_true]
  exact isNotationChar_of_mem_write layout x h

/-- So can the text of a number. -/
lemma isFieldChar_of_mem_toString (n : ℕ) {c : Char} (h : c ∈ (toString n).toList) :
    Csv.isFieldChar c = true := by
  have htext : (toString n).toList = Nat.toDigits 10 n := Nat.toList_repr
  rw [htext] at h
  exact Csv.isFieldChar_of_any (by decide)
    (Nat.isDigit_of_mem_toDigits (by decide) (by decide) h)

namespace IntervalRecord

/-- The names of the columns. -/
def columns : List String := ["gap_steps", "gap", "step", "time", "src", "dst", "next_hop"]

/-- The fields of a row. -/
def fields (r : IntervalRecord) : List String :=
  [toString r.gapSteps, Binary64.write tableLayout r.gap, toString r.step,
    Binary64.write tableLayout r.time, toString r.source, toString r.destination,
    toString r.nextHop]

/-- The fields can be written as a line. -/
lemma isRow_fields (r : IntervalRecord) : Csv.IsRow r.fields where
  two := by simp [fields]
  chars := by
    simp only [fields, List.forall_mem_cons, List.not_mem_nil, false_imp_iff, implies_true,
      and_true]
    exact ⟨fun _ => isFieldChar_of_mem_toString _, fun _ => Binary64.isFieldChar_of_mem_write _ _,
      fun _ => isFieldChar_of_mem_toString _, fun _ => Binary64.isFieldChar_of_mem_write _ _,
      fun _ => isFieldChar_of_mem_toString _, fun _ => isFieldChar_of_mem_toString _,
      fun _ => isFieldChar_of_mem_toString _⟩

/-- The integer columns of a row say what the change is. -/
lemma ofColumns?_fields (duration : Duration) (interval : UpdateInterval) :
    UpdateInterval.ofColumns? ((ofInterval duration interval).fields.map String.toList) =
      some interval := by
  simp only [fields, ofInterval, List.map_cons, List.map_nil, UpdateInterval.ofColumns?,
    Numeral.value?_toString, readWord_toString, Option.bind_eq_bind, Option.bind_some]
  rfl

end IntervalRecord

namespace CountRecord

/-- The names of the columns. -/
def columns : List String := ["rank", "src", "dst", "changes"]

/-- The fields of a row. -/
def fields (r : CountRecord) : List String :=
  [toString r.rank, toString r.source, toString r.destination, toString r.changes]

/-- The fields can be written as a line. -/
lemma isRow_fields (r : CountRecord) : Csv.IsRow r.fields where
  two := by simp [fields]
  chars := by
    simp only [fields, List.forall_mem_cons, List.not_mem_nil, false_imp_iff, implies_true,
      and_true]
    exact ⟨fun _ => isFieldChar_of_mem_toString _, fun _ => isFieldChar_of_mem_toString _,
      fun _ => isFieldChar_of_mem_toString _, fun _ => isFieldChar_of_mem_toString _⟩

/-- The columns of a row say what its place and its pair are. -/
lemma ofColumns?_fields (rank : ℕ) (count : ChangeCount) :
    ChangeCount.ofColumns? ((ofCount rank count).fields.map String.toList) =
      some (rank, count) := by
  simp only [fields, ofCount, List.map_cons, List.map_nil, ChangeCount.ofColumns?,
    Numeral.value?_toString, readWord_toString, Option.bind_eq_bind, Option.bind_some]
  rfl

/-- Ranks are counted from the first one on. -/
lemma ranked_eq (rank : ℕ) (counts : List ChangeCount) :
    ranked rank counts = ((List.range' rank counts.length).zip counts).map
      fun (rank, count) => ofCount rank count := by
  induction counts generalizing rank with
  | nil => rfl
  | cons count counts ih =>
    rw [ranked, ih, List.length_cons, List.range'_succ]
    rfl

end CountRecord

/-! ## Tables -/

namespace History

/-- A history without changes has an empty table of changes, and any other one a line with the names
of the columns and a line for each change in order. -/
lemma intervalTable_eq (history : History) : history.intervalTable =
    if history.intervals = [] then "" else
      Csv.line IntervalRecord.columns ++ String.join (history.intervals.map fun interval =>
        Csv.line (IntervalRecord.ofInterval history.step interval).fields) := by
  rw [intervalTable, tableText, intervalRecords, List.map_map]
  cases history.intervals with
  | nil => rfl
  | cons interval intervals => rfl

/-- A history without pairs has an empty table of pairs, and any other one a line with the names of
the columns and a line for each pair in order, with ranks from one on. -/
lemma countTable_eq (history : History) : history.countTable =
    if history.counts = [] then "" else
      Csv.line CountRecord.columns ++
        String.join (((List.range' 1 history.counts.length).zip history.counts).map
          fun (rank, count) => Csv.line (CountRecord.ofCount rank count).fields) := by
  rw [countTable, tableText, countRecords, CountRecord.ranked_eq, List.map_map]
  cases history.counts with
  | nil => rfl
  | cons count counts => rfl

/-- **The table of changes is read back.** -/
lemma readTable_intervalTable (history : History) :
    Csv.readTable IntervalRecord.columns UpdateInterval.ofColumns? history.intervalTable.toUTF8 =
      some history.intervals := by
  rw [intervalTable_eq]
  split
  · next hnil =>
    rw [hnil]
    exact Csv.readTable_empty _ _
  · exact Csv.readTable_lines (by decide) (fun _ _ => IntervalRecord.isRow_fields _)
      fun interval _ => IntervalRecord.ofColumns?_fields history.step interval

/-- **The table of pairs is read back**, with ranks from one on. -/
lemma readTable_countTable (history : History) :
    Csv.readTable CountRecord.columns ChangeCount.ofColumns? history.countTable.toUTF8 =
      some ((List.range' 1 history.counts.length).zip history.counts) := by
  rw [countTable_eq]
  split
  · next hnil =>
    rw [hnil]
    exact Csv.readTable_empty _ _
  · exact Csv.readTable_lines (by decide) (fun _ _ => CountRecord.isRow_fields _)
      fun ranked _ => CountRecord.ofColumns?_fields ranked.1 ranked.2

/-! ## Files -/

/-- The names of both files are plain. -/
lemma isPlain_files :
    FileTree.IsPlain "update_intervals.csv" ∧ FileTree.IsPlain "change_counts.csv" :=
  ⟨⟨by decide, by decide, by decide⟩, by decide, by decide, by decide⟩

variable {history : History} {directory : Path} {paths : Path × Path} {tree tree' : FileTree}

/-- **What has been written is in the two files**, and nothing else is in them. -/
lemma entryAt_of_run_write (h : (history.write directory).run tree = (.ok paths, tree')) :
    paths = (directory.join intervalFile, directory.join countFile) ∧
      tree'.entryAt paths.1 = .ok (.file history.intervalTable.toUTF8) ∧
      tree'.entryAt paths.2 = .ok (.file history.countTable.toUTF8) := by
  obtain ⟨_, made, -, hmade⟩ := Files.run_bind_eq_ok h
  obtain ⟨_, middle, hintervals, hmiddle⟩ := Files.run_bind_eq_ok hmade
  obtain ⟨_, after, hcounts, hafter⟩ := Files.run_bind_eq_ok hmiddle
  cases hafter
  obtain ⟨hresolve, hfree, hgoal, hput⟩ := Files.exists_of_run_writeBytes hintervals
  obtain ⟨hresolve', hfree', hgoal', hput'⟩ := Files.exists_of_run_writeBytes hcounts
  refine ⟨rfl, ?_, hput'.entryAt hgoal' hresolve' hfree'⟩
  -- the second file is not put over the first one
  have hother : (directory.join intervalFile).goal ≠ (directory.join countFile).goal := by
    rw [intervalFile, countFile, Path.goal_join isPlain_files.1, Path.goal_join isPlain_files.2]
    simp
  refine FileTree.entryAt_eq_file_iff.mpr
    ⟨hput'.resolve hgoal' (hput.resolve hgoal hresolve), hfree, ?_⟩
  rw [hput'.kept _ hother, hput.put]

/-- **Result files decode to the result.** Whenever a history has been written, each of its two
files holds one table and nothing of what it held before: no text at all if there are no rows, and
otherwise the names of the columns and exactly one line for each row in order. The integer columns
of its lines are the changes, and the pairs with ranks from one on.

**Proof sketch.** The second file is written next to the first one and leaves it alone
(`entryAt_of_run_write`). In a line there are only digits, letters, points and signs between the
commas, also where a double is written (`Binary64.isFieldChar_of_mem_write`). So a reader finds the
lines and the fields as they were written (`Csv.map_texts_records`), and the digits of a number
denote it. -/
theorem write_decodes (h : (history.write directory).run tree = (.ok paths, tree')) :
    paths = (directory.join ⟨"update_intervals.csv"⟩, directory.join ⟨"change_counts.csv"⟩) ∧
      ∃ changes pairs : String,
        tree'.entryAt paths.1 = .ok (.file changes.toUTF8) ∧
        tree'.entryAt paths.2 = .ok (.file pairs.toUTF8) ∧
        (changes = if history.intervals = [] then "" else
          "gap_steps,gap,step,time,src,dst,next_hop\n" ++
            String.join (history.intervals.map fun interval =>
              (IntervalRecord.ofInterval history.step interval).line)) ∧
        (pairs = if history.counts = [] then "" else
          "rank,src,dst,changes\n" ++
            String.join (((List.range' 1 history.counts.length).zip history.counts).map
              fun (rank, count) => (CountRecord.ofCount rank count).line)) ∧
        Csv.readTable IntervalRecord.columns UpdateInterval.ofColumns? changes.toUTF8 =
          some history.intervals ∧
        Csv.readTable CountRecord.columns ChangeCount.ofColumns? pairs.toUTF8 =
          some ((List.range' 1 history.counts.length).zip history.counts) := by
  obtain ⟨rfl, hintervals, hcounts⟩ := entryAt_of_run_write h
  have hheader : Csv.line IntervalRecord.columns =
      "gap_steps,gap,step,time,src,dst,next_hop\n" := by
    decide
  have hheader' : Csv.line CountRecord.columns = "rank,src,dst,changes\n" := by decide
  refine ⟨rfl, history.intervalTable, history.countTable, hintervals, hcounts, ?_, ?_,
    readTable_intervalTable history, readTable_countTable history⟩
  · rw [intervalTable_eq, hheader]
    rfl
  · rw [countTable_eq, hheader']
    rfl

/-- A history without any row. -/
def blank : History := ⟨[], [], 0, ⟨100000000⟩⟩

/-- **Tables without rows have no names of columns**: both files are empty. -/
theorem write_blank : ∃ tree',
    (blank.write ⟨"out"⟩).run (.ofList []) =
      (.ok (⟨"out/update_intervals.csv"⟩, ⟨"out/change_counts.csv"⟩), tree') ∧
    tree'.entryAt ⟨"out/update_intervals.csv"⟩ = .ok (.file "".toUTF8) ∧
    tree'.entryAt ⟨"out/change_counts.csv"⟩ = .ok (.file "".toUTF8) := by
  have hpaths : ((blank.write ⟨"out"⟩).run (.ofList [])).1 =
      .ok (⟨"out/update_intervals.csv"⟩, ⟨"out/change_counts.csv"⟩) := by decide +kernel
  obtain ⟨tree', hrun⟩ := Files.exists_run_of_fst hpaths
  obtain ⟨-, hintervals, hcounts⟩ := entryAt_of_run_write hrun
  exact ⟨_, hrun, hintervals, hcounts⟩

/-- One change, and two pairs. -/
def small : History :=
  ⟨[⟨2, 4, 10, 20, 7⟩], [⟨10, 20, 2⟩, ⟨10, 21, 0⟩], 5, ⟨500000000⟩⟩

/-- A directory with longer files that are going to be replaced. -/
def formerTables : FileTree := .ofList [
  (["out"], .directory),
  (["out", "update_intervals.csv"], .file (String.ofList (List.replicate 500 '7')).toUTF8),
  (["out", "change_counts.csv"], .file (String.ofList (List.replicate 500 '8')).toUTF8)]

/-- The tables of a small history replace longer files and are read back. -/
theorem write_decodes_small : ∃ tree' changes pairs,
    (small.write ⟨"out"⟩).run formerTables =
      (.ok (⟨"out/update_intervals.csv"⟩, ⟨"out/change_counts.csv"⟩), tree') ∧
    tree'.entryAt ⟨"out/update_intervals.csv"⟩ = .ok (.file (String.toUTF8 changes)) ∧
    changes = "gap_steps,gap,step,time,src,dst,next_hop\n2,1.0,4,2.0,10,20,7\n" ∧
    tree'.entryAt ⟨"out/change_counts.csv"⟩ = .ok (.file (String.toUTF8 pairs)) ∧
    pairs = "rank,src,dst,changes\n1,10,20,2\n2,10,21,0\n" ∧
    Csv.readTable IntervalRecord.columns UpdateInterval.ofColumns? changes.toUTF8 =
      some small.intervals := by
  have hpaths : ((small.write ⟨"out"⟩).run formerTables).1 =
      .ok (⟨"out/update_intervals.csv"⟩, ⟨"out/change_counts.csv"⟩) := by decide +kernel
  obtain ⟨tree', hrun⟩ := Files.exists_run_of_fst hpaths
  obtain ⟨-, changes, pairs, hchanges, hpairs, hlines, hranked, hread, -⟩ := write_decodes hrun
  refine ⟨_, changes, pairs, hrun, hchanges, hlines.trans ?_, hpairs, hranked.trans ?_, hread⟩
  · decide +kernel
  · decide +kernel

end History

end Constellation
