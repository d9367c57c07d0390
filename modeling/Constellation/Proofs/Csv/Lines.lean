import Constellation.Proofs.Csv.Rows
set_option autoImplicit false

/-!
# Written lines are read as their fields

## Main definitions

* `Csv.isFieldChar` — a character that stands for itself wherever it is in a field.
* `Csv.IsRow` — fields that can be written as a line.
* `Csv.readTable` — reads a table with a line of column names.

## Main results

* `Csv.map_texts_records` — lines are read as the fields from which they were written.
* `Csv.readTable_lines` — a table is read as the rows that its lines stand for.
-/

namespace Constellation

namespace Csv

/-! ## Lines -/

/-- The characters that end a field, quote it, are trimmed off it, or are passed over before it. -/
def marks : List Char := [',', '\r', '\n', '"', ' ', '\t', '\x0c', '\uFEFF']

/-- Whether a character stands for itself in a field. -/
def isFieldChar (c : Char) : Bool := !marks.contains c

/-- The fields of a line are written as they are, and there is a comma between them. -/
structure IsRow (fields : List String) : Prop where
  /-- There are at least two fields. -/
  two : 2 ≤ fields.length
  /-- All of their characters stand for themselves. -/
  chars : ∀ field ∈ fields, ∀ c ∈ field.toList, isFieldChar c = true

instance (fields : List String) : Decidable (IsRow fields) :=
  decidable_of_iff
    (2 ≤ fields.length ∧ (fields.all fun field => field.toList.all isFieldChar) = true)
    ⟨fun h => ⟨h.1, fun field hfield =>
        List.all_eq_true.mp (List.all_eq_true.mp h.2 field hfield)⟩,
      fun h => ⟨h.two, List.all_eq_true.mpr fun field hfield =>
        List.all_eq_true.mpr (h.chars field hfield)⟩⟩

variable {fields : List String} {table : List (List String)} {c : Char}

/-- A kind of characters without any mark stands for itself. -/
lemma isFieldChar_of_any {p : Char → Bool} (hp : marks.any p = false) (h : p c = true) :
    isFieldChar c = true := by
  by_contra hmark
  exact List.any_eq_false.mp hp c (by simpa [isFieldChar] using hmark) h

/-- A character that stands for itself does not end a line. -/
lemma isLineEnd_of_isFieldChar (h : isFieldChar c = true) : isLineEnd c = false := by
  rw [isLineEnd, Bool.or_eq_false_iff, beq_eq_false_iff_ne, beq_eq_false_iff_ne]
  refine ⟨?_, ?_⟩ <;>
  · rintro rfl
    exact absurd h (by decide)

/-- The characters of a line are commas and those of its fields. -/
lemma IsRow.mem_intercalate (h : IsRow fields)
    (hc : c ∈ [','].intercalate (fields.map String.toList)) : c = ',' ∨ isFieldChar c = true := by
  have hchars := h.chars
  clear h
  induction fields with
  | nil => simp at hc
  | cons field fields ih =>
    rw [List.forall_mem_cons] at hchars
    cases fields with
    | nil =>
      rw [List.map_singleton, List.intercalate_singleton] at hc
      exact Or.inr (hchars.1 c hc)
    | cons next fields =>
      rw [List.map_cons, List.map_cons, List.intercalate_cons_cons, ← List.map_cons,
        List.append_assoc, List.mem_append, List.mem_append, List.mem_singleton] at hc
      rcases hc with hc | rfl | hc
      · exact Or.inr (hchars.1 c hc)
      · exact Or.inl rfl
      · exact ih hc hchars.2

/-- A line is not empty, since there is a comma in it. -/
lemma IsRow.ne_nil (h : IsRow fields) : [','].intercalate (fields.map String.toList) ≠ [] := by
  obtain ⟨htwo, -⟩ := h
  match fields, htwo with
  | first :: second :: fields, _ =>
    rw [List.map_cons, List.map_cons, List.intercalate_cons_cons]
    simp

/-- The text of a line. -/
lemma toList_line (fields : List String) :
    (line fields).toList = [','].intercalate (fields.map String.toList) ++ ['\n'] := by
  rw [line, String.toList_append, String.toList_intercalate]
  rfl

/-- The rows of written lines are the lines. -/
lemma rows_join (h : ∀ fields ∈ table, IsRow fields) :
    rows (String.join (table.map line)).toList =
      table.map fun fields => [','].intercalate (fields.map String.toList) := by
  induction table with
  | nil => rfl
  | cons fields table ih =>
    rw [List.forall_mem_cons] at h
    have hunended : ∀ c ∈ [','].intercalate (fields.map String.toList), isLineEnd c = false := by
      intro c hc
      rcases h.1.mem_intercalate hc with rfl | hchar
      · rfl
      · exact isLineEnd_of_isFieldChar hchar
    rw [List.map_cons, String.join_cons, String.toList_append, toList_line, List.append_assoc,
      List.cons_append, List.nil_append, rows_append_cons hunended (by rfl), if_neg h.1.ne_nil,
      ih h.2]
    rfl

/-- The characters of written lines. -/
lemma mem_join (h : ∀ fields ∈ table, IsRow fields)
    (hc : c ∈ (String.join (table.map line)).toList) :
    c = '\n' ∨ c = ',' ∨ isFieldChar c = true := by
  rw [String.toList_join, List.mem_flatMap] at hc
  obtain ⟨text, htext, hc⟩ := hc
  obtain ⟨fields, hfields, rfl⟩ := List.mem_map.mp htext
  rw [toList_line, List.mem_append, List.mem_singleton] at hc
  exact hc.symm.imp_right (h fields hfields).mem_intercalate

/-- A field without blanks is not trimmed. -/
lemma fieldText_of_forall {field : List Char} (h : ∀ c ∈ field, isFieldChar c = true) :
    fieldText (field.map Symbol.char) = .ok field := by
  have hblank : ∀ c ∈ field, isAsciiBlank (.char c) = false := by
    intro c hc
    by_contra hblank
    have hmark : c ∈ marks := by
      simp only [isAsciiBlank, Bool.not_eq_false, Bool.or_eq_true, decide_eq_true_eq,
        Symbol.char.injEq] at hblank
      rcases hblank with (((rfl | rfl) | rfl) | rfl) | rfl <;> decide
    simpa [isFieldChar, hmark] using h c hc
  have hkept : ∀ cs : List Char, (∀ c ∈ cs, isAsciiBlank (.char c) = false) →
      (cs.map Symbol.char).dropWhile isAsciiBlank = cs.map Symbol.char := by
    intro cs hcs
    cases cs with
    | nil => rfl
    | cons c cs =>
      rw [List.map_cons, List.dropWhile_cons_of_neg (by simp [hcs c List.mem_cons_self])]
  have htrim : trimField (field.map Symbol.char) = field.map Symbol.char := by
    rw [trimField, hkept field hblank, ← List.map_reverse,
      hkept field.reverse fun c hc => hblank c (List.mem_reverse.mp hc), ← List.map_reverse,
      List.reverse_reverse]
  rw [fieldText, htrim, ofBytes_flatMap_bytes, characters_map_char]

/-- Neither are the fields of a row. -/
lemma fieldTexts_of_forall (number : ℕ)
    (h : ∀ field ∈ fields, ∀ c ∈ field.toList, isFieldChar c = true) :
    fieldTexts number (fields.map fun field => field.toList.map Symbol.char) =
      .ok (fields.map String.toList) := by
  induction fields generalizing number with
  | nil => rfl
  | cons field fields ih =>
    rw [List.forall_mem_cons] at h
    rw [List.map_cons, fieldTexts, fieldText_of_forall h.1, ih (number + 1) h.2]
    rfl

/-- **Written lines are read as their fields.** -/
lemma map_texts_records (h : ∀ fields ∈ table, IsRow fields) :
    (records (Symbol.ofText (String.join (table.map line)))).map (·.texts) =
      table.map fun fields => .ok (fields.map String.toList) := by
  have hquote : '"' ∉ (String.join (table.map line)).toList := fun hmem =>
    absurd (mem_join h hmem) (by decide)
  have hmark : (String.join (table.map line)).toList.head? ≠ some '\uFEFF' := fun hhead =>
    absurd (mem_join h (List.mem_of_mem_head? hhead)) (by decide)
  have hfields := map_fields_records hquote hmark
  rw [rows_join h, List.map_map] at hfields
  have hsplit : ∀ fields ∈ table, ([','].intercalate (fields.map String.toList)).splitOn ',' =
      fields.map String.toList := by
    intro fields hmem
    obtain ⟨htwo, hchars⟩ := h fields hmem
    refine List.splitOn_intercalate ',' ?_ ?_
    · intro text htext
      obtain ⟨field, hfield, rfl⟩ := List.mem_map.mp htext
      exact fun hcomma => absurd (hchars field hfield ',' hcomma) (by decide)
    · rintro hnil
      rw [List.map_eq_nil_iff] at hnil
      simp [hnil] at htwo
  calc (records (Symbol.ofText (String.join (table.map line)))).map (·.texts)
      = ((records (Symbol.ofText (String.join (table.map line)))).map (·.fields)).map
          (fieldTexts 0) := by
        rw [List.map_map]
        rfl
    _ = table.map fun fields => .ok (fields.map String.toList) := by
        rw [Symbol.ofText, hfields, List.map_map]
        refine List.map_congr_left fun fields hmem => ?_
        simp only [Function.comp_apply, hsplit fields hmem, List.map_map]
        exact fieldTexts_of_forall 0 (h fields hmem).chars

/-! ## Tables -/

/-- Reads a table: a line with the names of the columns, and a row on each further line. A content
without any line is a table without rows. -/
def readTable {α : Type} (columns : List String) (row : List (List Char) → Option α)
    (content : ByteArray) : Option (List α) :=
  match (records (Symbol.ofBytes content)).map (·.texts) with
  | [] => some []
  | header :: rows =>
    if header.toOption = some (columns.map String.toList) then
      rows.mapM fun texts => texts.toOption.bind row
    else none

/-- What is read item by item is what was written item by item. -/
lemma mapM_map_eq_some {α β : Type} {write : α → β} {read : β → Option α} {as : List α}
    (h : ∀ a ∈ as, read (write a) = some a) : (as.map write).mapM read = some as := by
  induction as with
  | nil => rfl
  | cons a as ih =>
    rw [List.forall_mem_cons] at h
    rw [List.map_cons, List.mapM_cons, h.1, ih h.2]
    rfl

/-- **A table is read as the rows that its lines stand for.** -/
lemma readTable_lines {α : Type} {columns : List String} {row : List (List Char) → Option α}
    {as : List α} {write : α → List String} (hcolumns : IsRow columns)
    (hrows : ∀ a ∈ as, IsRow (write a))
    (hread : ∀ a ∈ as, row ((write a).map String.toList) = some a) :
    readTable columns row (line columns ++ String.join (as.map fun a => line (write a))).toUTF8 =
      some as := by
  have hlines : ∀ fields ∈ columns :: as.map write, IsRow fields := by
    rw [List.forall_mem_cons]
    refine ⟨hcolumns, fun fields hfields => ?_⟩
    obtain ⟨a, ha, rfl⟩ := List.mem_map.mp hfields
    exact hrows a ha
  have htexts := map_texts_records hlines
  rw [List.map_cons, List.map_cons, String.join_cons, List.map_map, List.map_map] at htexts
  have hheader : (Except.ok (columns.map String.toList) :
      Except BadField (List (List Char))).toOption = some (columns.map String.toList) := rfl
  rw [readTable, Symbol.ofBytes_toUTF8]
  simp only [Function.comp_def] at htexts
  simp only [htexts, hheader, if_true]
  exact mapM_map_eq_some hread

/-- An empty content has no rows. -/
lemma readTable_empty {α : Type} (columns : List String) (row : List (List Char) → Option α) :
    readTable columns row "".toUTF8 = some [] := by
  rw [readTable, Symbol.ofBytes_toUTF8]
  rfl

end Csv

end Constellation
