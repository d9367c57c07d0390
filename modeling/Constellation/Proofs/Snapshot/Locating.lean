import Constellation.Proofs.Csv.Numbering
import Constellation.Proofs.Snapshot.Grammar
set_option autoImplicit false

/-!
# Which row is reported

If a content has rows that stand for no routes, the first of them is reported, with the number that
its record has. This is the number of its line if no empty line comes right before it. Otherwise it
is the number of the first of these empty lines.

## Main definitions

* `Route.IsMalformed` — a line is neither empty nor stands for a route.

## Main results

* `Route.ofRecords_append_malformed` — the first malformed record is reported.
* `Snapshot.exists_parse_malformed` — the first malformed line is reported, and with which number.
* `Snapshot.parse_locates` — what is known of the content if a line is reported.
-/

namespace Constellation

/-- If an item of a list has a property, there is a first one that has it. -/
lemma exists_first {α : Type} {P : α → Prop} {l : List α} (h : ∃ a ∈ l, P a) :
    ∃ before a after, l = before ++ a :: after ∧ (∀ b ∈ before, ¬ P b) ∧ P a := by
  classical
  obtain ⟨a, ha⟩ := Option.isSome_iff_exists.mp
    (List.find?_isSome (p := fun a => decide (P a)).mpr (by simpa using h))
  obtain ⟨hP, before, after, hsplit, hbefore⟩ := List.find?_eq_some_iff_append.mp ha
  exact ⟨before, a, after, hsplit, by simpa using hbefore, by simpa using hP⟩

namespace Route

/-- A line is neither empty nor stands for a route. -/
def IsMalformed (line : List Char) : Prop := line ≠ [] ∧ ∀ route, ¬ IsWritten line route

/-- What is no malformed line is empty or stands for a route. -/
lemma not_isMalformed_iff {line : List Char} :
    ¬ IsMalformed line ↔ line = [] ∨ ∃ route, IsWritten line route := by
  rw [IsMalformed, not_and_or, not_ne_iff, not_forall_not]

/-- A line is malformed if its fields cannot be read. -/
lemma isMalformed_of_ofFields {line : List Char} {fault : RowFault} (hline : line ≠ [])
    (h : ofFields ((line.splitOn ',').map trimBlanks) = .error fault) : IsMalformed line :=
  ⟨hline, fun route hroute => by
    rw [ofFields_eq_ok_iff.mpr hroute] at h
    cases h⟩

/-- **The first malformed record is reported**, with its line and with what is wrong with it. -/
lemma ofRecords_append_malformed {front back : List Csv.Record} {record : Csv.Record}
    {rows : List (List Char)} {row : List Char}
    (hfront : front.map (·.fields) =
      rows.map fun row => (row.splitOn ',').map (·.map Symbol.char))
    (hrecord : record.fields = (row.splitOn ',').map (·.map Symbol.char))
    (hrows : ∀ row ∈ rows, ∃ route, IsWritten row route) (hrow : ∀ route, ¬ IsWritten row route)
    (number : ℕ) :
    ∃ fault, ofFields ((row.splitOn ',').map trimBlanks) = .error fault ∧
      ofRecords number (front ++ record :: back) = .error (.malformed record.line fault) := by
  induction rows generalizing front number with
  | nil =>
    obtain rfl := List.map_eq_nil_iff.mp hfront
    cases hfields : ofFields ((row.splitOn ',').map trimBlanks) with
    | ok route => exact absurd (ofFields_eq_ok_iff.mp hfields) (hrow route)
    | error fault =>
      refine ⟨fault, rfl, ?_⟩
      rw [List.nil_append, ofRecords, ofRecord_eq hrecord, hfields]
      rfl
  | cons first rows ih =>
    obtain ⟨found, others, rfl, hfound, hothers⟩ := List.map_eq_cons_iff.mp hfront
    rw [List.forall_mem_cons] at hrows
    obtain ⟨route, hroute⟩ := hrows.1
    obtain ⟨fault, hfault, herror⟩ := ih hothers hrows.2 (number + 1)
    refine ⟨fault, hfault, ?_⟩
    rw [List.cons_append, ofRecords, (ofRecord_eq_ok_iff hfound).mpr hroute, herror]
    rfl

end Route

namespace Snapshot

section Texts

variable {text : String} (hquote : '"' ∉ text.toList) (hreturn : '\r' ∉ text.toList)
  (hmark : text.toList.head? ≠ some '\uFEFF')

include hquote hreturn hmark

/-- **The first malformed line is reported**, with the number of the line after the last one before
it that is not empty. -/
lemma exists_parse_malformed (path : Path) {before after : List (List Char)} {bad : List Char}
    (h : text.toList.splitOn '\n' = before ++ bad :: after)
    (hbefore : ∀ line ∈ before, ¬ Route.IsMalformed line) (hbad : Route.IsMalformed bad) :
    ∃ fault, Route.ofFields ((bad.splitOn ',').map trimBlanks) = .error fault ∧
      parse path text.toUTF8 =
        .error (.malformed path ((before.rdropWhile List.isEmpty).length + 1) fault) := by
  obtain ⟨front, record, back, hrecords, hfront, hrecord, hline⟩ :=
    Csv.exists_records_split hquote hreturn hmark h hbad.1
  have hrows : ∀ row ∈ before.filter fun piece => !piece.isEmpty,
      ∃ route, Route.IsWritten row route := by
    intro row hrow
    obtain ⟨hmem, hne⟩ := List.mem_filter.mp hrow
    rcases Route.not_isMalformed_iff.mp (hbefore row hmem) with rfl | hroute
    · simp at hne
    · exact hroute
  obtain ⟨fault, hfault, herror⟩ :=
    @Route.ofRecords_append_malformed front back record _ bad hfront hrecord hrows hbad.2 0
  refine ⟨fault, hfault, ?_⟩
  rw [parse, Route.ofContent, Symbol.ofBytes_toUTF8, Symbol.ofText, hrecords, herror, hline]

omit hreturn in
/-- A content without malformed rows is read. -/
lemma exists_parse_ok (path : Path)
    (h : ∀ row ∈ Csv.rows text.toList, ∃ route, Route.IsWritten row route) :
    ∃ routes, parse path text.toUTF8 = .ok routes := by
  choose! route hroute using h
  exact ⟨_, (parse_toUTF8_eq_ok_iff hquote hmark path _).mpr
    (List.forall₂_map_right_iff.mpr (List.forall₂_same.mpr hroute))⟩

/-- **Which line is reported**: a content is rejected for a line if and only if it has a malformed
one. Then the first malformed line is the reason, and the reported number is that of the line after
the last one before it that is not empty. So it is the number of the malformed line if and only if
no empty line comes right before it.

**Proof sketch.** The records are cut at the lines that are not empty, and each of them begins after
the end of the one before it. Rows are read in order, so the first malformed one decides. -/
theorem parse_locates (path : Path) :
    ((∃ number fault, parse path text.toUTF8 = .error (.malformed path number fault)) ↔
      ∃ line ∈ text.toList.splitOn '\n', Route.IsMalformed line) ∧
    ∀ number fault, parse path text.toUTF8 = .error (.malformed path number fault) →
      ∃ before bad after, text.toList.splitOn '\n' = before ++ bad :: after ∧
        (∀ line ∈ before, ¬ Route.IsMalformed line) ∧ Route.IsMalformed bad ∧
        Route.ofFields ((bad.splitOn ',').map trimBlanks) = .error fault ∧
        number = (before.rdropWhile List.isEmpty).length + 1 ∧
        (number = before.length + 1 ↔ before.getLast? ≠ some []) := by
  have hrows := Csv.rows_eq hreturn
  have hmalformed : (∃ number fault, parse path text.toUTF8 =
      .error (.malformed path number fault)) →
        ∃ line ∈ text.toList.splitOn '\n', Route.IsMalformed line := by
    rintro ⟨number, fault, herror⟩
    by_contra hnone
    obtain ⟨routes, hok⟩ : ∃ routes, parse path text.toUTF8 = .ok routes := by
      refine exists_parse_ok hquote hmark path fun row hrow => ?_
      rw [hrows] at hrow
      obtain ⟨hmem, hne⟩ := List.mem_filter.mp hrow
      rcases Route.not_isMalformed_iff.mp fun hbad => hnone ⟨row, hmem, hbad⟩ with rfl | hroute
      · simp at hne
      · exact hroute
    rw [hok] at herror
    cases herror
  refine ⟨⟨hmalformed, ?_⟩, ?_⟩
  · intro hexists
    obtain ⟨before, bad, after, hsplit, hbefore, hbad⟩ := exists_first hexists
    obtain ⟨fault, -, herror⟩ :=
      exists_parse_malformed hquote hreturn hmark path hsplit hbefore hbad
    exact ⟨_, fault, herror⟩
  · intro number fault herror
    obtain ⟨before, bad, after, hsplit, hbefore, hbad⟩ :=
      exists_first (hmalformed ⟨number, fault, herror⟩)
    obtain ⟨found, hfault, hfound⟩ :=
      exists_parse_malformed hquote hreturn hmark path hsplit hbefore hbad
    rw [hfound] at herror
    cases herror
    refine ⟨before, bad, after, hsplit, hbefore, hbad, hfault, rfl, ?_⟩
    rw [Nat.add_right_cancel_iff, length_rdropWhile_eq_iff]
    cases hlast : before.getLast? with
    | none => simp
    | some last => simp

end Texts

/-- A content with an empty line before its only malformed one. -/
def gappedText : String := "1,2,3\n\nx\n"

/-- The malformed line of this content. -/
lemma isMalformed_gapped : Route.IsMalformed ['x'] :=
  @Route.isMalformed_of_ofFields _ (.fieldCount 1) (by decide) rfl

/-- A line of it is reported. -/
theorem parse_locates_gapped : ∃ number fault before bad after,
    parse ⟨"f"⟩ gappedText.toUTF8 = .error (.malformed ⟨"f"⟩ number fault) ∧
    gappedText.toList.splitOn '\n' = before ++ bad :: after ∧ Route.IsMalformed bad ∧
    number = (before.rdropWhile List.isEmpty).length + 1 := by
  obtain ⟨hexists, hlocates⟩ := @parse_locates gappedText (by decide) (by decide) (by decide) ⟨"f"⟩
  obtain ⟨number, fault, herror⟩ := hexists.mpr ⟨['x'], by decide, isMalformed_gapped⟩
  obtain ⟨before, bad, after, hsplit, -, hbad, -, hnumber, -⟩ := hlocates number fault herror
  exact ⟨number, fault, before, bad, after, herror, hsplit, hbad, hnumber⟩

/-- **The line of a report need not be malformed**: here the first malformed line is the third one,
and the second one is reported. -/
theorem parse_gapped :
    gappedText.toList.splitOn '\n' = ["1,2,3".toList, [], ['x'], []] ∧
    (∃ route, Route.IsWritten "1,2,3".toList route) ∧ Route.IsMalformed ['x'] ∧
    parse ⟨"f"⟩ gappedText.toUTF8 = .error (.malformed ⟨"f"⟩ 2 (.fieldCount 1)) := by
  refine ⟨by decide, ⟨⟨1, 2, 3⟩, ?_⟩, isMalformed_gapped, ?_⟩
  · exact Route.ofFields_eq_ok_iff.mp (by decide +kernel)
  · decide +kernel

end Snapshot

end Constellation
