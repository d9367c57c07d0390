import Mathlib.Data.List.Forall2
import Constellation.Proofs.Csv.Rows
import Constellation.Proofs.Text.Numerals
import Constellation.Snapshot.Fault
set_option autoImplicit false

/-!
# Which contents are snapshots

## Main definitions

* `Route.IsWritten` — a row stands for a route.
* `Route.Rendering` — a text has the rows of some routes, however they are padded and ended.

## Main results

* `Route.ofFields_eq_ok_iff` — the fields that a route is read from.
* `Route.ofRecords_eq_ok_iff` — rows are read if and only if each of them stands for a route.
* `Route.Rendering.forall₂` — the rows of a rendering stand for its routes.
* `Snapshot.parse_exact` — a content is read if and only if its rows stand for routes.

## Design

The grammar is a split of the whole text: into lines at each carriage return and each line feed, and
of each nonempty line into fields at its commas, from which blanks are trimmed. A rendering is an
inductive way to put such a text together.
-/

namespace Constellation

namespace Route

/-! ## Rows -/

/-- A row stands for a route: it has three fields between commas, and each of them, without the
blanks around it, denotes its number. -/
def IsWritten (row : List Char) (route : Route) : Prop :=
  ∃ a b c, (row.splitOn ',').map trimBlanks = [a, b, c] ∧
    Numeral.Denotes a route.source.toNat ∧ Numeral.Denotes b route.destination.toNat ∧
      Numeral.Denotes c route.nextHop.toNat

/-- A field is read as the number that it denotes. -/
lemma readField_eq_ok_iff {index : ℕ} {text : List Char} {node : NodeId} :
    readField index text = .ok node ↔ Numeral.Denotes text node.toNat := by
  rw [← Numeral.readWord_eq_ok_iff, readField]
  cases Numeral.readWord text with
  | ok found => simp
  | error fault => simp

/-- **The fields that a route is read from** are three, and they denote its numbers. -/
lemma ofFields_eq_ok_iff {fields : List (List Char)} {route : Route} :
    ofFields fields = .ok route ↔ ∃ a b c, fields = [a, b, c] ∧
      Numeral.Denotes a route.source.toNat ∧ Numeral.Denotes b route.destination.toNat ∧
        Numeral.Denotes c route.nextHop.toNat := by
  constructor
  · intro h
    unfold ofFields at h
    split at h
    · next a b c =>
      cases ha : readField 0 a with
      | error fault => simp [ha, bind, Except.bind] at h
      | ok source =>
        cases hb : readField 1 b with
        | error fault => simp [ha, hb, bind, Except.bind] at h
        | ok destination =>
          cases hc : readField 2 c with
          | error fault => simp [ha, hb, hc, bind, Except.bind] at h
          | ok nextHop =>
            simp only [ha, hb, hc] at h
            cases h
            exact ⟨a, b, c, rfl, readField_eq_ok_iff.mp ha, readField_eq_ok_iff.mp hb,
              readField_eq_ok_iff.mp hc⟩
    · cases h
  · rintro ⟨a, b, c, rfl, ha, hb, hc⟩
    rw [ofFields, readField_eq_ok_iff.mpr ha, readField_eq_ok_iff.mpr hb,
      readField_eq_ok_iff.mpr hc]
    rfl

section Records

variable {record : Csv.Record} {row : List Char} {number : ℕ} {route : Route}

/-- A record that was cut from a row is read from the fields of the row. -/
lemma ofRecord_eq (h : record.fields = (row.splitOn ',').map (·.map Symbol.char)) (number : ℕ) :
    ofRecord number record = match ofFields ((row.splitOn ',').map trimBlanks) with
      | .ok route => .ok route
      | .error fault => .error (.malformed record.line fault) := by
  obtain ⟨texts, htexts, htrims⟩ := Csv.exists_texts h
  rw [← htrims]
  cases hfields : ofFields (texts.map trimBlanks) with
  | ok route => simp only [ofRecord, htexts, hfields]
  | error fault => simp only [ofRecord, htexts, hfields]

/-- It is read if and only if the row stands for a route. -/
lemma ofRecord_eq_ok_iff (h : record.fields = (row.splitOn ',').map (·.map Symbol.char)) :
    ofRecord number record = .ok route ↔ IsWritten row route := by
  rw [ofRecord_eq h, IsWritten, ← ofFields_eq_ok_iff]
  cases ofFields ((row.splitOn ',').map trimBlanks) with
  | ok found => simp
  | error fault => simp

/-- Otherwise it is malformed. -/
lemma exists_ofRecord_error (h : record.fields = (row.splitOn ',').map (·.map Symbol.char))
    (hrow : ∀ route, ¬ IsWritten row route) (number : ℕ) :
    ∃ fault, ofRecord number record = .error (.malformed record.line fault) := by
  cases hfields : ofFields ((row.splitOn ',').map trimBlanks) with
  | ok route => exact absurd (ofFields_eq_ok_iff.mp hfields) (hrow route)
  | error fault => exact ⟨fault, by rw [ofRecord_eq h, hfields]⟩

end Records

/-- **Rows are read** if and only if each of them stands for a route. -/
lemma ofRecords_eq_ok_iff {records : List Csv.Record} {rows : List (List Char)} {number : ℕ}
    {routes : List Route} (h : records.map (·.fields) =
      rows.map fun row => (row.splitOn ',').map (·.map Symbol.char)) :
    ofRecords number records = .ok routes ↔ List.Forall₂ IsWritten rows routes := by
  induction rows generalizing records number routes with
  | nil =>
    obtain rfl := List.map_eq_nil_iff.mp h
    rw [ofRecords, List.forall₂_nil_left_iff, Except.ok.injEq, eq_comm]
  | cons row rows ih =>
    obtain ⟨record, rest, rfl, hrecord, hrest⟩ := List.map_eq_cons_iff.mp h
    rw [ofRecords, List.forall₂_cons_left_iff]
    constructor
    · intro hok
      cases hroute : ofRecord number record with
      | error fault => simp [hroute, bind, Except.bind] at hok
      | ok route =>
        cases hroutes : ofRecords (number + 1) rest with
        | error fault => simp [hroute, hroutes, bind, Except.bind] at hok
        | ok others =>
          simp only [hroute, hroutes] at hok
          cases hok
          exact ⟨route, others, (ofRecord_eq_ok_iff hrecord).mp hroute, (ih hrest).mp hroutes, rfl⟩
    · rintro ⟨route, others, hroute, hothers, rfl⟩
      rw [(ofRecord_eq_ok_iff hrecord).mpr hroute, (ih hrest).mpr hothers]
      rfl

/-- If some row stands for no route, some record is malformed. -/
lemma exists_ofRecords_error {records : List Csv.Record} {rows : List (List Char)}
    (h : records.map (·.fields) = rows.map fun row => (row.splitOn ',').map (·.map Symbol.char))
    (hrow : ∃ row ∈ rows, ∀ route, ¬ IsWritten row route) (number : ℕ) :
    ∃ line fault, ofRecords number records = .error (.malformed line fault) := by
  induction rows generalizing records number with
  | nil => simp at hrow
  | cons row rows ih =>
    obtain ⟨record, rest, rfl, hrecord, hrest⟩ := List.map_eq_cons_iff.mp h
    rw [ofRecords]
    by_cases hfirst : ∃ route, IsWritten row route
    · obtain ⟨route, hroute⟩ := hfirst
      have hothers : ∃ row ∈ rows, ∀ route, ¬ IsWritten row route := by
        obtain ⟨other, hmem, hother⟩ := hrow
        rcases List.mem_cons.mp hmem with rfl | hmem
        · exact absurd hroute (hother route)
        · exact ⟨other, hmem, hother⟩
      obtain ⟨line, fault, herror⟩ := ih hrest hothers (number + 1)
      rw [(ofRecord_eq_ok_iff hrecord).mpr hroute, herror]
      exact ⟨line, fault, rfl⟩
    · obtain ⟨fault, herror⟩ :=
        exists_ofRecord_error hrecord (not_exists.mp hfirst) number
      rw [herror]
      exact ⟨_, fault, rfl⟩

/-! ## Renderings -/

/-- A number in digits, with spaces and tabs around it. -/
def IsPadded (text : List Char) (n : ℕ) : Prop :=
  ∃ before after, text = before ++ Numeral.digits n ++ after ∧
    ∀ c ∈ before ++ after, c = ' ' ∨ c = '\t'

/-- The three numbers of a route with commas between them. -/
def IsLine (route : Route) (line : List Char) : Prop :=
  ∃ a b c, line = a ++ ',' :: (b ++ ',' :: c) ∧ IsPadded a route.source.toNat ∧
    IsPadded b route.destination.toNat ∧ IsPadded c route.nextHop.toNat

/-- What may end a line. -/
def lineEnds : List (List Char) := [['\r'], ['\n'], ['\r', '\n']]

/-- A text has a line for each route, and any number of empty lines. The last line need not be
ended. -/
inductive Rendering : List Route → List Char → Prop
  | nothing : Rendering [] []
  | blank {ending text : List Char} {routes : List Route} : ending ∈ lineEnds →
      Rendering routes text → Rendering routes (ending ++ text)
  | row {route : Route} {line ending text : List Char} {routes : List Route} : IsLine route line →
      ending ∈ lineEnds → Rendering routes text →
      Rendering (route :: routes) (line ++ ending ++ text)
  | last {route : Route} {line : List Char} : IsLine route line → Rendering [route] line

/-- A padded number consists of spaces, tabs and digits. -/
lemma IsPadded.chars {text : List Char} {n : ℕ} (h : IsPadded text n) {c : Char} (hc : c ∈ text) :
    c = ' ' ∨ c = '\t' ∨ c.isDigit = true := by
  obtain ⟨before, after, rfl, hpadding⟩ := h
  simp only [List.mem_append] at hc hpadding
  rcases hc with (hbefore | hdigits) | hafter
  · exact (hpadding c (Or.inl hbefore)).imp_right Or.inl
  · exact Or.inr (Or.inr (Nat.isDigit_of_mem_toDigits (by decide) (by decide) hdigits))
  · exact (hpadding c (Or.inr hafter)).imp_right Or.inl

/-- Digits are not blank. -/
lemma isBlank_eq_false_of_isDigit {c : Char} (h : c.isDigit = true) : isBlank c = false := by
  rw [Char.isDigit, Bool.and_eq_true, decide_eq_true_eq, decide_eq_true_eq] at h
  have hlow : 48 ≤ c.toNat := h.1
  have hhigh : c.toNat ≤ 57 := h.2
  simp only [isBlank, Bool.or_eq_false_iff, Bool.and_eq_false_iff, decide_eq_false_iff_not,
    beq_eq_false_iff_ne]
  omega

/-- The digits of a number denote it once the blanks around them are trimmed. -/
lemma denotes_trimBlanks {before after : List Char} (n : ℕ)
    (hbefore : ∀ c ∈ before, isBlank c = true) (hafter : ∀ c ∈ after, isBlank c = true) :
    Numeral.Denotes (trimBlanks (before ++ Numeral.digits n ++ after)) n := by
  have hdigit : ∀ c ∈ Numeral.digits n, isBlank c = false := fun c hc =>
    isBlank_eq_false_of_isDigit (Nat.isDigit_of_mem_toDigits (by decide) (by decide) hc)
  rw [trimBlanks_append_blanks _ hbefore hafter,
    trimBlanks_eq_self (fun c hc => hdigit c (List.mem_of_mem_head? hc))
      (fun c hc => hdigit c (List.mem_of_mem_getLast? hc))]
  exact Numeral.denotes_digits n

/-- So does a padded number. -/
lemma IsPadded.denotes {text : List Char} {n : ℕ} (h : IsPadded text n) :
    Numeral.Denotes (trimBlanks text) n := by
  obtain ⟨before, after, rfl, hpadding⟩ := h
  have hblank : ∀ c ∈ before ++ after, isBlank c = true := by
    intro c hc
    rcases hpadding c hc with rfl | rfl <;> decide
  exact denotes_trimBlanks n (fun c hc => hblank c (List.mem_append_left _ hc))
    (fun c hc => hblank c (List.mem_append_right _ hc))

/-- What a character of a rendering can be. -/
def IsRowChar (c : Char) : Prop := c = ' ' ∨ c = '\t' ∨ c = ',' ∨ c.isDigit = true

instance (c : Char) : Decidable (IsRowChar c) := inferInstanceAs (Decidable (_ ∨ _))

/-- A line consists of such characters. -/
lemma IsLine.chars {route : Route} {line : List Char} (h : IsLine route line) {c : Char}
    (hc : c ∈ line) : IsRowChar c := by
  obtain ⟨x, y, z, rfl, hx, hy, hz⟩ := h
  simp only [List.mem_append, List.mem_cons] at hc
  have hpadded : ∀ {text : List Char} {n : ℕ}, IsPadded text n → c ∈ text → IsRowChar c := by
    intro text n htext hmem
    rcases htext.chars hmem with hspace | htab | hdigit
    · exact Or.inl hspace
    · exact Or.inr (Or.inl htab)
    · exact Or.inr (Or.inr (Or.inr hdigit))
  rcases hc with hc | hc | hc | hc | hc
  · exact hpadded hx hc
  · exact Or.inr (Or.inr (Or.inl hc))
  · exact hpadded hy hc
  · exact Or.inr (Or.inr (Or.inl hc))
  · exact hpadded hz hc

/-- No such character ends a line. -/
lemma IsRowChar.isLineEnd {c : Char} (h : IsRowChar c) : Csv.isLineEnd c = false := by
  rcases h with rfl | rfl | rfl | hdigit
  · decide
  · decide
  · decide
  · rw [Csv.isLineEnd, Bool.or_eq_false_iff, beq_eq_false_iff_ne, beq_eq_false_iff_ne]
    constructor <;> rintro rfl <;> exact absurd hdigit (by decide)

/-- A line stands for its route. -/
lemma IsLine.isWritten {route : Route} {line : List Char} (h : IsLine route line) :
    IsWritten line route := by
  obtain ⟨x, y, z, rfl, hx, hy, hz⟩ := h
  have hcomma : ∀ {text : List Char} {n : ℕ}, IsPadded text n → ',' ∉ text := by
    intro text n htext hmem
    have hchars := htext.chars hmem
    revert hchars
    decide
  refine ⟨trimBlanks x, trimBlanks y, trimBlanks z, ?_, hx.denotes, hy.denotes, hz.denotes⟩
  rw [List.splitOn_append_cons_self, List.splitOn_append_cons_self,
    List.splitOn_eq_singleton (hcomma hx), List.splitOn_eq_singleton (hcomma hy),
    List.splitOn_eq_singleton (hcomma hz)]
  rfl

/-- A line is not empty. -/
lemma IsLine.ne_nil {route : Route} {line : List Char} (h : IsLine route line) : line ≠ [] := by
  obtain ⟨x, y, z, rfl, -, -, -⟩ := h
  simp

/-- After the end of a line the rows begin anew. -/
lemma rows_append_lineEnd {line ending : List Char} (hline : ∀ c ∈ line, Csv.isLineEnd c = false)
    (hending : ending ∈ lineEnds) (text : List Char) :
    Csv.rows (line ++ ending ++ text) = (if line = [] then [] else [line]) ++ Csv.rows text := by
  have hnil : ∀ c, Csv.isLineEnd c = true → Csv.rows (c :: text) = Csv.rows text :=
    fun c hc => @Csv.rows_append_cons [] (by simp) _ hc text
  rw [List.append_assoc]
  simp only [lineEnds, List.mem_cons, List.not_mem_nil, or_false] at hending
  rcases hending with rfl | rfl | rfl
  · exact Csv.rows_append_cons hline (by decide) text
  · exact Csv.rows_append_cons hline (by decide) text
  · rw [← hnil '\n' (by decide)]
    exact Csv.rows_append_cons hline (by decide) _

namespace Rendering

variable {routes : List Route} {text : List Char}

/-- **The rows of a rendering stand for its routes.** -/
lemma forall₂ (h : Rendering routes text) : List.Forall₂ IsWritten (Csv.rows text) routes := by
  induction h with
  | nothing => exact List.Forall₂.nil
  | blank hending _ ih =>
    rw [← List.nil_append (_ ++ _), ← List.append_assoc, rows_append_lineEnd (by simp) hending]
    exact ih
  | row hline hending _ ih =>
    rw [rows_append_lineEnd (fun c hc => (hline.chars hc).isLineEnd) hending,
      if_neg hline.ne_nil]
    exact List.Forall₂.cons hline.isWritten ih
  | last hline =>
    rw [Csv.rows_of_line (fun c hc => (hline.chars hc).isLineEnd), if_neg hline.ne_nil]
    exact List.Forall₂.cons hline.isWritten List.Forall₂.nil

/-- A rendering has no other characters than its lines and their ends. -/
lemma chars (h : Rendering routes text) {c : Char} (hc : c ∈ text) :
    IsRowChar c ∨ Csv.isLineEnd c = true := by
  have hend : ∀ {ending : List Char}, ending ∈ lineEnds → c ∈ ending →
      Csv.isLineEnd c = true := by
    intro ending hending hmem
    simp only [lineEnds, List.mem_cons, List.not_mem_nil, or_false] at hending
    rcases hending with rfl | rfl | rfl <;> simp at hmem <;> rcases hmem with rfl | rfl <;> rfl
  induction h with
  | nothing => cases hc
  | blank hending _ ih =>
    rcases List.mem_append.mp hc with hc | hc
    · exact Or.inr (hend hending hc)
    · exact ih hc
  | row hline hending _ ih =>
    simp only [List.mem_append] at hc
    rcases hc with (hc | hc) | hc
    · exact Or.inl (hline.chars hc)
    · exact Or.inr (hend hending hc)
    · exact ih hc
  | last hline => exact Or.inl (hline.chars hc)

end Rendering

end Route

namespace Snapshot

/-- A content is read from the rows of its text. -/
lemma exists_records {text : String} (hquote : '"' ∉ text.toList)
    (hmark : text.toList.head? ≠ some '\uFEFF') : ∃ records : List Csv.Record,
      Route.ofContent text.toUTF8 = Route.ofRecords 0 records ∧ records.map (·.fields) =
        (Csv.rows text.toList).map fun row => (row.splitOn ',').map (·.map Symbol.char) := by
  refine ⟨Csv.records (text.toList.map Symbol.char), ?_, Csv.map_fields_records hquote hmark⟩
  rw [Route.ofContent, Symbol.ofBytes_toUTF8, Symbol.ofText]

/-- A content is read if its rows are. -/
lemma parse_eq_ok_iff {path : Path} {content : ByteArray} {routes : List Route} :
    parse path content = .ok routes ↔ Route.ofContent content = .ok routes := by
  rw [parse]
  cases Route.ofContent content with
  | ok found => simp
  | error fault => cases fault <;> simp

section Texts

variable {text : String} (hquote : '"' ∉ text.toList) (hmark : text.toList.head? ≠ some '\uFEFF')

include hquote hmark

/-- A text is read if and only if its rows stand for routes. -/
lemma parse_toUTF8_eq_ok_iff (path : Path) (routes : List Route) :
    parse path text.toUTF8 = .ok routes ↔
      List.Forall₂ Route.IsWritten (Csv.rows text.toList) routes := by
  obtain ⟨records, hrecords, hfields⟩ := exists_records hquote hmark
  rw [parse_eq_ok_iff, hrecords]
  exact Route.ofRecords_eq_ok_iff hfields

/-- If some row stands for no route, a malformed row is reported. -/
lemma exists_parse_error (path : Path)
    (hrow : ∃ row ∈ Csv.rows text.toList, ∀ route, ¬ Route.IsWritten row route) :
    ∃ line fault, parse path text.toUTF8 = .error (.malformed path line fault) := by
  obtain ⟨records, hrecords, hfields⟩ := exists_records hquote hmark
  obtain ⟨line, fault, herror⟩ := Route.exists_ofRecords_error hfields hrow 0
  refine ⟨line, fault, ?_⟩
  rw [parse, hrecords, herror]

end Texts

/-- **A content is read if and only if its rows stand for routes**, and then as these routes. If
some row stands for none, a malformed row is reported. In particular the routes of a rendering are
read back. -/
theorem parse_exact (path : Path) :
    (∀ text : String, '"' ∉ text.toList → text.toList.head? ≠ some '\uFEFF' →
      (∀ routes, parse path text.toUTF8 = .ok routes ↔
        List.Forall₂ Route.IsWritten (Csv.rows text.toList) routes) ∧
      ((∃ row ∈ Csv.rows text.toList, ∀ route, ¬ Route.IsWritten row route) →
        ∃ line fault, parse path text.toUTF8 = .error (.malformed path line fault))) ∧
      ∀ (routes : List Route) (text : String), Route.Rendering routes text.toList →
        parse path text.toUTF8 = .ok routes := by
  refine ⟨fun text hquote hmark => ⟨parse_toUTF8_eq_ok_iff hquote hmark path,
    exists_parse_error hquote hmark path⟩, fun routes text h => ?_⟩
  have hchars : ∀ c ∈ text.toList, c ≠ '"' ∧ c ≠ '\uFEFF' := by
    intro c hc
    constructor <;> rintro rfl <;> have hchar := h.chars hc <;> revert hchar <;> decide
  have hquote : '"' ∉ text.toList := fun hmem => (hchars _ hmem).1 rfl
  have hmark : text.toList.head? ≠ some '\uFEFF' := fun hhead =>
    (hchars _ (List.mem_of_mem_head? hhead)).2 rfl
  exact (parse_toUTF8_eq_ok_iff hquote hmark path routes).mpr h.forall₂

/-- Rows with signs, zeros in front, blanks and all kinds of line ends. -/
def sampleText : String := "\r\n +7 ,\t08,4294967295\r\u205f1,2,3"

/-- Its rows are read, and so is a rendering without an end after its last row. -/
theorem parse_exact_sample :
    parse ⟨"f"⟩ sampleText.toUTF8 = .ok [⟨7, 8, 4294967295⟩, ⟨1, 2, 3⟩] ∧
      parse ⟨"f"⟩ "\n\t5 ,6,7".toUTF8 = .ok [⟨5, 6, 7⟩] := by
  obtain ⟨hread, hrendering⟩ := parse_exact ⟨"f"⟩
  have hall : ∀ {p : Char → Bool} {text : List Char}, text.all p = true →
      ∀ c ∈ text, p c = true := List.all_eq_true.mp
  constructor
  · refine ((hread sampleText (by decide) (by decide)).1 _).mpr ?_
    have hrows : Csv.rows sampleText.toList =
        [" +7 ,\t08,4294967295".toList, "\u205f1,2,3".toList] := by decide
    rw [hrows]
    refine List.Forall₂.cons ?_ (List.Forall₂.cons ?_ List.Forall₂.nil)
    · exact ⟨['+', '7'], ['0', '8'], "4294967295".toList, by decide,
        ⟨['7'], Or.inr rfl, by decide, hall (by decide), by decide⟩,
        ⟨['0', '8'], Or.inl rfl, by decide, hall (by decide), by decide⟩,
        ⟨"4294967295".toList, Or.inl rfl, by decide, hall (by decide), by decide⟩⟩
    · exact ⟨['1'], ['2'], ['3'], by decide,
        ⟨['1'], Or.inl rfl, by decide, hall (by decide), by decide⟩,
        ⟨['2'], Or.inl rfl, by decide, hall (by decide), by decide⟩,
        ⟨['3'], Or.inl rfl, by decide, hall (by decide), by decide⟩⟩
  · refine hrendering _ _ (@Route.Rendering.blank ['\n'] "\t5 ,6,7".toList _ (by decide)
      (.last ⟨['\t', '5', ' '], ['6'], ['7'], by decide,
        ⟨['\t'], [' '], by decide, by simp⟩, ⟨[], [], by decide, by simp⟩,
        ⟨[], [], by decide, by simp⟩⟩))

end Snapshot

end Constellation
