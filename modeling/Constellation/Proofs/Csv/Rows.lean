import Mathlib.Data.List.TakeWhile
import Mathlib.Tactic.Lemma
import Constellation.Csv
import Constellation.Text.Blank
set_option autoImplicit false

/-!
# The rows of a text

The records of a content are cut by a machine. This module says what they are: a text without quotes
is split at the ends of its lines and each nonempty piece at its commas.

## Main definitions

* `Csv.rows` — the nonempty lines of a text.
* `Csv.Reader.Holds` — what the reader has taken of the current line.

## Main results

* `Csv.splitOn_concat` — the last field is the one that grows.
* `Csv.Reader.fields_finish` — the records of a reader that goes on with a text.
* `Csv.map_fields_records` — the records of a text without quotes.
* `Csv.exists_texts` — the texts of a record that was cut from a text.

## Design

What the reader holds is compared with the part of the current line that has been read. It is
between records precisely if this part is empty, which is why empty lines are no records, and why
it does not matter that a carriage return and a line feed end a line twice.
-/

namespace Constellation

/-- What is trimmed off may be trimmed off before. -/
lemma trimBlanks_append_blanks {before after : List Char} (text : List Char)
    (hbefore : ∀ c ∈ before, isBlank c = true) (hafter : ∀ c ∈ after, isBlank c = true) :
    trimBlanks (before ++ text ++ after) = trimBlanks text := by
  have hleading : trimLeading (before ++ text ++ after) =
      if (trimLeading text).isEmpty then [] else trimLeading text ++ after := by
    rw [trimLeading, List.append_assoc, List.dropWhile_append_of_pos hbefore, List.dropWhile_append,
      List.dropWhile_eq_nil_iff.mpr hafter]
    rfl
  rw [trimBlanks, trimBlanks, hleading]
  by_cases hempty : trimLeading text = []
  · simp [hempty]
  · have hreverse : ∀ c ∈ after.reverse, isBlank c = true :=
      fun c hc => hafter c (List.mem_reverse.mp hc)
    rw [if_neg (by simpa using hempty), List.reverse_append, trimLeading,
      List.dropWhile_append_of_pos hreverse]
    rfl

namespace Csv

/-! ## Lines and fields -/

/-- Whether a character ends a line. -/
def isLineEnd (c : Char) : Bool := c == '\r' || c == '\n'

/-- The nonempty lines of a text, where a carriage return and a line feed each end a line. -/
def rows (text : List Char) : List (List Char) :=
  (text.splitOnP isLineEnd).filter fun row => !row.isEmpty

/-- The last field of a line is the one that grows. -/
lemma splitOn_concat {line last : List Char} {fields : List (List Char)} {c : Char} (hc : c ≠ ',')
    (h : line.splitOn ',' = fields ++ [last]) :
    (line ++ [c]).splitOn ',' = fields ++ [last ++ [c]] := by
  induction line generalizing fields last with
  | nil =>
    rw [List.splitOn_nil, ← List.nil_append [[]]] at h
    obtain ⟨rfl, hlast⟩ := List.append_inj' h rfl
    obtain rfl := (List.cons.inj hlast).1
    rw [List.nil_append, List.nil_append, List.splitOn_eq_singleton (by simpa using hc.symm)]
  | cons d rest ih =>
    rw [List.splitOn_cons_eq_if_modifyHead] at h
    rw [List.cons_append, List.splitOn_cons_eq_if_modifyHead]
    by_cases hd : (d == ',') = true
    · rw [if_pos hd] at h
      rw [if_pos hd]
      cases fields with
      | nil => exact absurd (List.cons.inj h).2 (List.splitOn_ne_nil _ _)
      | cons first fields =>
        obtain ⟨rfl, hrest⟩ := List.cons.inj h
        rw [ih hrest]
        rfl
    · rw [if_neg hd] at h
      rw [if_neg hd]
      obtain ⟨first, pieces, hpieces⟩ := List.exists_cons_of_ne_nil (List.splitOn_ne_nil ',' rest)
      rw [hpieces, List.modifyHead_cons] at h
      cases fields with
      | nil =>
        obtain ⟨rfl, rfl⟩ := List.cons.inj h
        have hgrown : (rest ++ [c]).splitOn ',' = [first ++ [c]] := @ih first [] hpieces
        rw [hgrown]
        rfl
      | cons head fields =>
        obtain ⟨rfl, rfl⟩ := List.cons.inj h
        have hgrown : (rest ++ [c]).splitOn ',' = first :: (fields ++ [last ++ [c]]) :=
          @ih last (first :: fields) hpieces
        rw [hgrown]
        rfl

/-- The rows of a text that begins with a line. -/
lemma rows_append_cons {line : List Char} (hline : ∀ c ∈ line, isLineEnd c = false) {c : Char}
    (hc : isLineEnd c = true) (text : List Char) :
    rows (line ++ c :: text) = (if line = [] then [] else [line]) ++ rows text := by
  rw [rows, List.splitOnP_append_cons _ _ hc, List.splitOnP_eq_singleton hline, List.filter_append]
  split
  · next hnil => simp [hnil, rows]
  · next hne => simp [hne, rows]

/-- The rows of a single line. -/
lemma rows_of_line {line : List Char} (hline : ∀ c ∈ line, isLineEnd c = false) :
    rows line = if line = [] then [] else [line] := by
  rw [rows, List.splitOnP_eq_singleton hline]
  split
  · next hnil => simp [hnil]
  · next hne => simp [hne]

/-! ## The reader -/

namespace Reader

/-- What the reader has taken of the current line, of which `line` has been read. -/
structure Holds (r : Reader) (line : List Char) : Prop where
  /-- It is between records if nothing has been read, and outside of quotes otherwise. -/
  place : line = [] ∧ r.place = .between ∨
    line ≠ [] ∧ (r.place = .fieldStart ∨ r.place = .plain)
  /-- It has the fields of the line. -/
  fields : (line.splitOn ',').map (·.map Symbol.char) = r.fields.reverse ++ [r.field.reverse]
  /-- The line has not ended. -/
  unended : ∀ c ∈ line, isLineEnd c = false

variable {r : Reader} {line : List Char}

/-- The reader holds nothing before a record. -/
lemma holds_nil (hplace : r.place = .between) (hfield : r.field = []) (hfields : r.fields = []) :
    r.Holds [] where
  place := Or.inl ⟨rfl, hplace⟩
  fields := by rw [List.splitOn_nil, hfields, hfield]; rfl
  unended := fun _ hc => absurd hc List.not_mem_nil

/-- A character that ends no line is read outside of quotes. -/
lemma Holds.step_eq (h : r.Holds line) {c : Char} (hquote : c ≠ '"')
    (hc : isLineEnd c = false) : r.step (.char c) = (r.count (.char c)).stepOutside (.char c) := by
  have hend : ¬ (Symbol.char c = .char '\r' ∨ Symbol.char c = .char '\n') := by
    simpa [isLineEnd] using hc
  have hstart : (r.count (.char c)).stepStart (.char c) =
      (r.count (.char c)).stepOutside (.char c) := by
    rw [stepStart, if_neg (by simpa using hquote)]
  have hplace : (r.count (.char c)).place = r.place := rfl
  rw [step]
  rcases h.place with ⟨-, hr⟩ | ⟨-, hr | hr⟩
  · simp only [hplace, hr, if_neg hend, hstart]
  · simp only [hplace, hr, hstart]
  · simp only [hplace, hr]

/-- A comma ends a field. -/
lemma Holds.comma (h : r.Holds line) : (r.step (.char ',')).Holds (line ++ [',']) ∧
    (r.step (.char ',')).records = r.records := by
  rw [h.step_eq (by decide) (by decide), stepOutside, if_pos rfl]
  refine ⟨⟨Or.inr ⟨by simp, Or.inl rfl⟩, ?_, ?_⟩, rfl⟩
  · rw [List.splitOn_append_cons_self, List.map_append, h.fields]
    simp [endField, count]
  · intro c hc
    rcases List.mem_append.mp hc with hline | hcomma
    · exact h.unended c hline
    · obtain rfl := List.mem_singleton.mp hcomma
      decide

/-- Any other character that ends no line goes into the current field. -/
lemma Holds.keep (h : r.Holds line) {c : Char} (hquote : c ≠ '"') (hcomma : c ≠ ',')
    (hc : isLineEnd c = false) : (r.step (.char c)).Holds (line ++ [c]) ∧
      (r.step (.char c)).records = r.records := by
  have hend : ¬ (Symbol.char c = .char '\r' ∨ Symbol.char c = .char '\n') := by
    simpa [isLineEnd] using hc
  rw [h.step_eq hquote hc, stepOutside, if_neg (by simpa using hcomma), if_neg hend]
  refine ⟨⟨Or.inr ⟨by simp, Or.inr rfl⟩, ?_, ?_⟩, rfl⟩
  · obtain ⟨fields, last, hsplit⟩ : ∃ fields last, line.splitOn ',' = fields ++ [last] := by
      have hne := List.splitOn_ne_nil ',' line
      exact ⟨_, _, (List.dropLast_concat_getLast hne).symm⟩
    have hfields := h.fields
    rw [hsplit, List.map_append] at hfields
    obtain ⟨hinit, hlast⟩ := List.append_inj' hfields rfl
    rw [splitOn_concat hcomma hsplit, List.map_append, hinit]
    have hlast' : last.map Symbol.char = r.field.reverse := (List.cons.inj hlast).1
    simp [Reader.keep, count, hlast']
  · intro d hd
    rcases List.mem_append.mp hd with hline | hlast
    · exact h.unended d hline
    · obtain rfl := List.mem_singleton.mp hlast
      exact hc

/-- The end of a line is counted, and ends the record if there is one. -/
lemma Holds.step_lineEnd (h : r.Holds line) {c : Char} (hc : isLineEnd c = true) :
    r.step (.char c) =
      if line = [] then r.count (.char c) else (r.count (.char c)).endRecord := by
  have hend : Symbol.char c = .char '\r' ∨ Symbol.char c = .char '\n' := by
    simpa [isLineEnd] using hc
  have hcomma : Symbol.char c ≠ .char ',' := by
    rintro heq
    obtain rfl := Symbol.char.inj heq
    exact absurd hc (by decide)
  have hquote : Symbol.char c ≠ .char '"' := by
    rintro heq
    obtain rfl := Symbol.char.inj heq
    exact absurd hc (by decide)
  have hplace : (r.count (.char c)).place = r.place := rfl
  rcases h.place with ⟨rfl, hr⟩ | ⟨hne, hr⟩
  · rw [step, if_pos rfl]
    simp only [hplace, hr, if_pos hend]
  · rw [if_neg hne]
    rcases hr with hr | hr
    · simp only [step, hplace, hr, stepStart, stepOutside, if_neg hquote, if_neg hcomma,
        if_pos hend]
    · simp only [step, hplace, hr, stepOutside, if_neg hcomma, if_pos hend]

/-- After the end of a line the reader holds nothing, and has one more record if the line was not
empty. -/
lemma Holds.lineEnd (h : r.Holds line) {c : Char} (hc : isLineEnd c = true) :
    (r.step (.char c)).Holds [] ∧
      (r.step (.char c)).records.reverse.map (·.fields) = r.records.reverse.map (·.fields) ++
        if line = [] then [] else [(line.splitOn ',').map (·.map Symbol.char)] := by
  rw [h.step_lineEnd hc]
  rcases h.place with ⟨rfl, hr⟩ | ⟨hne, hr⟩
  · have hfields := h.fields
    rw [List.splitOn_nil] at hfields
    obtain ⟨hinit, hlast⟩ := List.append_inj' (show [] ++ [[]] = _ from hfields) rfl
    refine ⟨holds_nil hr ?_ ?_, by simp [count]⟩
    · exact List.reverse_eq_nil_iff.mp (List.cons.inj hlast).1.symm
    · exact List.reverse_eq_nil_iff.mp hinit.symm
  · rw [if_neg hne, if_neg hne, h.fields]
    exact ⟨holds_nil rfl rfl rfl, by simp [endRecord, count]⟩

/-- When the content ends, the current line ends with it. -/
lemma Holds.finish (h : r.Holds line) : r.finish.map (·.fields) =
    r.records.reverse.map (·.fields) ++
      if line = [] then [] else [(line.splitOn ',').map (·.map Symbol.char)] := by
  rcases h.place with ⟨rfl, hr⟩ | ⟨hne, hr⟩
  · simp [Reader.finish, hr]
  · rw [if_neg hne, h.fields]
    rcases hr with hr | hr <;> simp [Reader.finish, hr, endRecord]

/-- **The records of a reader that goes on with a text** are those that it has, and then the rows of
the text, where the line that it holds comes before the text. -/
lemma fields_finish (text : List Char) (hquote : '"' ∉ text) {r : Reader} {line : List Char}
    (h : r.Holds line) : ((text.map Symbol.char).foldl step r).finish.map (·.fields) =
      r.records.reverse.map (·.fields) ++
        (rows (line ++ text)).map fun row => (row.splitOn ',').map (·.map Symbol.char) := by
  induction text generalizing r line with
  | nil =>
    rw [List.map_nil, List.foldl_nil, List.append_nil, h.finish, rows_of_line h.unended]
    split <;> rfl
  | cons c rest ih =>
    rw [List.mem_cons, not_or] at hquote
    rw [List.map_cons, List.foldl_cons]
    cases hc : isLineEnd c with
    | true =>
      obtain ⟨hholds, hrecords⟩ := h.lineEnd hc
      rw [ih hquote.2 hholds, hrecords, rows_append_cons h.unended hc, List.nil_append]
      split <;> simp
    | false =>
      have hline : line ++ c :: rest = line ++ [c] ++ rest := by simp
      obtain ⟨hholds, hrecords⟩ : (r.step (.char c)).Holds (line ++ [c]) ∧
          (r.step (.char c)).records = r.records := by
        by_cases hcomma : c = ','
        · subst hcomma
          exact h.comma
        · exact h.keep (Ne.symm hquote.1) hcomma hc
      rw [ih hquote.2 hholds, hrecords, hline]

end Reader

/-- The records of a text without a byte order mark are cut from all of it. -/
lemma records_eq {text : List Char} (hmark : text.head? ≠ some '\uFEFF') :
    records (text.map Symbol.char) =
      ((text.map Symbol.char).foldl Reader.step (.start 0)).finish := by
  cases text with
  | nil => rfl
  | cons c rest =>
    have hne : ¬ Symbol.char c = byteOrderMark := fun heq =>
      hmark (congrArg some (Symbol.char.inj heq))
    exact if_neg hne

/-- **The records of a text without quotes** are its rows, split at commas. -/
lemma map_fields_records {text : List Char} (hquote : '"' ∉ text)
    (hmark : text.head? ≠ some '\uFEFF') : (records (text.map Symbol.char)).map (·.fields) =
      (rows text).map fun row => (row.splitOn ',').map (·.map Symbol.char) := by
  rw [records_eq hmark]
  exact Reader.fields_finish text hquote (Reader.holds_nil rfl rfl rfl)

/-! ## Texts of fields -/

/-- Characters are read as themselves. -/
lemma characters_map_char (text : List Char) : characters (text.map Symbol.char) = .ok text := by
  induction text with
  | nil => rfl
  | cons c rest ih => simp [characters, ih]

/-- The bytes of characters are read as these characters. -/
lemma ofBytes_flatMap_bytes (text : List Char) :
    Symbol.ofBytes ⟨((text.map Symbol.char).flatMap Symbol.bytes).toArray⟩ =
      text.map Symbol.char := by
  have hbytes : (⟨((text.map Symbol.char).flatMap Symbol.bytes).toArray⟩ : ByteArray) =
      (String.ofList text).toUTF8 := by
    rw [String.toUTF8_eq_toByteArray, List.flatMap_map]
    exact (ByteArray.ext List.data_toByteArray).symm
  rw [hbytes, Symbol.ofBytes_toUTF8, Symbol.ofText, String.toList_ofList]

/-- Characters that are ASCII white space are blank. -/
lemma isBlank_of_isAsciiBlank {c : Char} (h : isAsciiBlank (.char c) = true) :
    isBlank c = true := by
  simp only [isAsciiBlank, Bool.or_eq_true, decide_eq_true_eq, Symbol.char.injEq] at h
  rcases h with (((rfl | rfl) | rfl) | rfl) | rfl <;> decide

/-- A field without ASCII white space at its ends has the same trim. -/
lemma exists_fieldText (field : List Char) : ∃ text, fieldText (field.map Symbol.char) = .ok text ∧
    trimBlanks text = trimBlanks field := by
  have hblank : ∀ (cs : List Char), ∀ c ∈ cs.takeWhile (isAsciiBlank ∘ Symbol.char),
      isBlank c = true := by
    intro cs c hc
    have hascii := List.mem_takeWhile_imp hc
    exact isBlank_of_isAsciiBlank hascii
  obtain ⟨rest, hrest⟩ : ∃ rest, field.dropWhile (isAsciiBlank ∘ Symbol.char) = rest := ⟨_, rfl⟩
  obtain ⟨text, htext⟩ : ∃ text,
    (rest.reverse.dropWhile (isAsciiBlank ∘ Symbol.char)).reverse = text := ⟨_, rfl⟩
  refine ⟨text, ?_, ?_⟩
  · have htrim : trimField (field.map Symbol.char) = text.map Symbol.char := by
      rw [trimField, List.dropWhile_map, hrest, ← List.map_reverse, List.dropWhile_map,
        ← List.map_reverse, htext]
    rw [fieldText, htrim, ofBytes_flatMap_bytes, characters_map_char]
  · have hfield : field = field.takeWhile (isAsciiBlank ∘ Symbol.char) ++ text ++
        (rest.reverse.takeWhile (isAsciiBlank ∘ Symbol.char)).reverse := by
      rw [List.append_assoc, ← htext, ← List.reverse_append, List.takeWhile_append_dropWhile,
        List.reverse_reverse, ← hrest, List.takeWhile_append_dropWhile]
    have htrim := trimBlanks_append_blanks text (hblank field)
      (fun c hc => hblank rest.reverse c (List.mem_reverse.mp hc))
    rw [← hfield] at htrim
    exact htrim.symm

/-- **The texts of a record that was cut from a text** have the same trims as its fields. -/
lemma exists_texts {record : Record} {fields : List (List Char)}
    (h : record.fields = fields.map (·.map Symbol.char)) :
    ∃ texts, record.texts = .ok texts ∧ texts.map trimBlanks = fields.map trimBlanks := by
  have hall : ∀ (fields : List (List Char)) number, ∃ texts,
      fieldTexts number (fields.map (·.map Symbol.char)) = .ok texts ∧
        texts.map trimBlanks = fields.map trimBlanks := by
    intro fields
    induction fields with
    | nil => exact fun _ => ⟨[], rfl, rfl⟩
    | cons field rest ih =>
      intro number
      obtain ⟨text, htext, htrim⟩ := exists_fieldText field
      obtain ⟨texts, htexts, htrims⟩ := ih (number + 1)
      refine ⟨text :: texts, ?_, by rw [List.map_cons, List.map_cons, htrim, htrims]⟩
      rw [List.map_cons, fieldTexts, htext, htexts]
      rfl
  rw [Record.texts, h]
  exact hall fields 0

end Csv

end Constellation
