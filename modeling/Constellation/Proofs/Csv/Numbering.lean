import Mathlib.Data.List.DropRight
import Constellation.Proofs.Csv.Rows
set_option autoImplicit false

/-!
# The numbers of records

A record remembers the line where its reading began, and the reading of a record begins where the
one before it ends. This module says which number that is in a text whose lines end in line feeds.

## Main definitions

* `Csv.startLines` — where the records of a text begin, from the lines of the text.
* `Csv.startAfter` — where a record begins that comes after some lines.

## Main results

* `Csv.startAfter_self` — a record begins after the last line that is not empty.
* `Csv.Reader.lines_finish` — where the records of a reader that goes on with a text begin.
* `Csv.exists_records_split` — the records before and after the one that a line is cut to.

## Design

The line of a record is not the one that it stands on: empty lines before it are passed over while
it is already being read. Both numbers are therefore kept apart, as the reader does it.
-/

namespace Constellation

/-- What is dropped at the right end of a list is dropped after its first item. -/
lemma rdropWhile_cons {α : Type} (p : α → Bool) (a : α) (l : List α) :
    (a :: l).rdropWhile p =
      if l.rdropWhile p = [] then [a].rdropWhile p else a :: l.rdropWhile p := by
  rw [List.rdropWhile, List.reverse_cons, List.dropWhile_append]
  by_cases hl : l.reverse.dropWhile p = []
  · rw [if_pos (by simpa using hl), if_pos (by simpa [List.rdropWhile] using hl)]
    rfl
  · rw [if_neg (by simpa using hl), if_neg (by simpa [List.rdropWhile] using hl),
      List.reverse_append]
    rfl

/-- Nothing is dropped if the last item is to be kept. -/
lemma length_rdropWhile_eq_iff {α : Type} {p : α → Bool} {l : List α} :
    (l.rdropWhile p).length = l.length ↔ ∀ a, l.getLast? = some a → p a = false := by
  have heq : (l.rdropWhile p).length = l.length ↔ l.rdropWhile p = l :=
    ⟨(List.rdropWhile_prefix p l).eq_of_length, fun h => by rw [h]⟩
  rw [heq, List.rdropWhile_eq_self_iff]
  cases l using List.reverseRecOn with
  | nil => simp
  | append_singleton front a => simp

namespace Csv

/-! ## Lines -/

/-- Where the records of a text begin: the current record at the line `start`, and the first of the
given lines has the number `line`. -/
def startLines : (start line : ℕ) → List (List Char) → List ℕ
  | _, _, [] => []
  | start, line, piece :: rest =>
    if piece = [] then startLines start (line + 1) rest
    else start :: startLines (line + 1) (line + 1) rest

/-- Where the record begins that comes after the given lines. -/
def startAfter (start line : ℕ) (lines : List (List Char)) : ℕ :=
  if lines.rdropWhile List.isEmpty = [] then start
  else line + (lines.rdropWhile List.isEmpty).length

/-- An empty line is passed over. -/
lemma startAfter_nil_cons (start line : ℕ) (lines : List (List Char)) :
    startAfter start line ([] :: lines) = startAfter start (line + 1) lines := by
  rw [startAfter, startAfter, rdropWhile_cons]
  by_cases hlines : lines.rdropWhile List.isEmpty = []
  · rw [if_pos hlines, if_pos hlines]
    rfl
  · rw [if_neg hlines, if_neg hlines, if_neg (List.cons_ne_nil _ _), List.length_cons]
    omega

/-- After any other line a record begins. -/
lemma startAfter_cons (start line : ℕ) {piece : List Char} (hpiece : piece ≠ [])
    (lines : List (List Char)) :
    startAfter start line (piece :: lines) = startAfter (line + 1) (line + 1) lines := by
  rw [startAfter, startAfter, rdropWhile_cons]
  by_cases hlines : lines.rdropWhile List.isEmpty = []
  · have hlast : [piece].rdropWhile List.isEmpty = [piece] := by
      rw [List.rdropWhile_singleton, if_neg (by simpa using hpiece)]
    rw [if_pos hlines, if_pos hlines, hlast, if_neg (List.cons_ne_nil _ _)]
    rfl
  · rw [if_neg hlines, if_neg hlines, if_neg (List.cons_ne_nil _ _), List.length_cons]
    omega

/-- **A record begins after the last line that is not empty.** -/
lemma startAfter_self (line : ℕ) (lines : List (List Char)) :
    startAfter line line lines = line + (lines.rdropWhile List.isEmpty).length := by
  rw [startAfter]
  split
  · next hlines => rw [hlines]; rfl
  · rfl

/-- Where records begin after some lines. -/
lemma startLines_append (start line : ℕ) (front back : List (List Char)) :
    startLines start line (front ++ back) = startLines start line front ++
      startLines (startAfter start line front) (line + front.length) back := by
  induction front generalizing start line with
  | nil => rfl
  | cons piece front ih =>
    have hline : line + (piece :: front).length = line + 1 + front.length := by
      rw [List.length_cons]
      omega
    rw [List.cons_append, startLines, startLines, hline]
    by_cases hpiece : piece = []
    · rw [if_pos hpiece, if_pos hpiece, ih, hpiece, startAfter_nil_cons]
    · rw [if_neg hpiece, if_neg hpiece, ih, startAfter_cons start line hpiece, List.cons_append]

/-- There is a record for each line that is not empty. -/
lemma length_startLines (start line : ℕ) (lines : List (List Char)) :
    (startLines start line lines).length = (lines.filter fun piece => !piece.isEmpty).length := by
  induction lines generalizing start line with
  | nil => rfl
  | cons piece rest ih =>
    rw [startLines]
    by_cases hpiece : piece = []
    · rw [if_pos hpiece, ih, List.filter_cons_of_neg (by simpa using hpiece)]
    · rw [if_neg hpiece, List.length_cons, ih, List.filter_cons_of_pos (by simpa using hpiece),
        List.length_cons]

/-! ## The reader -/

section LineFeeds

variable {text : List Char} (hreturn : '\r' ∉ text)

include hreturn

/-- Without carriage returns, lines end in line feeds. -/
lemma isLineEnd_eq {c : Char} (hc : c ∈ text) : isLineEnd c = (c == '\n') := by
  have hne : (c == '\r') = false := beq_eq_false_iff_ne.mpr fun heq => hreturn (heq ▸ hc)
  rw [isLineEnd, hne, Bool.false_or]

/-- The rows of a text are its lines that are not empty. -/
lemma rows_eq : rows text = (text.splitOn '\n').filter fun piece => !piece.isEmpty := by
  have hsplit : text.splitOnP isLineEnd = text.splitOnP (· == '\n') := by
    induction text with
    | nil => rfl
    | cons c rest ih =>
      have hrest : '\r' ∉ rest := fun hmem => hreturn (List.mem_cons_of_mem c hmem)
      rw [List.splitOnP_cons_eq_if_modifyHead, List.splitOnP_cons_eq_if_modifyHead, ih hrest,
        isLineEnd_eq hreturn List.mem_cons_self]
  rw [rows, hsplit]
  rfl

end LineFeeds

namespace Reader

variable {r : Reader} {line : List Char}

/-- Where the records of a reader begin. -/
def starts (r : Reader) : List ℕ := r.records.reverse.map (·.line)

/-- Within a line, the reader stays on the line and begins no record. -/
lemma Holds.step_inside (h : r.Holds line) {c : Char} (hquote : c ≠ '"')
    (hc : isLineEnd c = false) : (r.step (.char c)).Holds (line ++ [c]) ∧
      (r.step (.char c)).starts = r.starts ∧ (r.step (.char c)).startLine = r.startLine ∧
        (r.step (.char c)).line = r.line := by
  have hfeed : Symbol.char c ≠ .char '\n' := by
    rintro heq
    obtain rfl := Symbol.char.inj heq
    exact absurd hc (by decide)
  have hend : ¬ (Symbol.char c = .char '\r' ∨ Symbol.char c = .char '\n') := by
    simpa [isLineEnd] using hc
  have hcount : (r.count (.char c)).line = r.line := if_neg hfeed
  by_cases hcomma : c = ','
  · subst hcomma
    refine ⟨h.comma.1, ?_⟩
    rw [h.step_eq hquote hc, stepOutside, if_pos rfl]
    exact ⟨rfl, rfl, hcount⟩
  · refine ⟨(h.keep hquote hcomma hc).1, ?_⟩
    rw [h.step_eq hquote hc, stepOutside, if_neg (by simpa using hcomma), if_neg hend]
    exact ⟨rfl, rfl, hcount⟩

/-- When the content ends, the current record has its line. -/
lemma Holds.lines_finish (h : r.Holds line) : r.finish.map (·.line) =
    r.starts ++ startLines r.startLine r.line [line] := by
  rcases h.place with ⟨rfl, hr⟩ | ⟨hne, hr⟩
  · simp [Reader.finish, hr, startLines, starts]
  · rw [startLines, if_neg hne]
    rcases hr with hr | hr <;> simp [Reader.finish, hr, endRecord, startLines, starts]

/-- **Where the records of a reader that goes on with a text begin**, where the line that it holds
comes before the text. -/
lemma lines_finish (text : List Char) (hquote : '"' ∉ text) (hreturn : '\r' ∉ text) {r : Reader}
    {line : List Char} (h : r.Holds line) :
    ((text.map Symbol.char).foldl step r).finish.map (·.line) =
      r.starts ++ startLines r.startLine r.line ((line ++ text).splitOn '\n') := by
  have hfeed : ∀ {line : List Char}, (∀ c ∈ line, isLineEnd c = false) → '\n' ∉ line :=
    fun hline hmem => absurd (hline '\n' hmem) (by decide)
  -- by induction on the text, while the reader holds what it has read of the current line
  induction text generalizing r line with
  | nil =>
    rw [List.map_nil, List.foldl_nil, List.append_nil, h.lines_finish,
      List.splitOn_eq_singleton (hfeed h.unended)]
  | cons c rest ih =>
    have hend := isLineEnd_eq hreturn (List.mem_cons_self : c ∈ c :: rest)
    rw [List.mem_cons, not_or] at hquote hreturn
    rw [List.map_cons, List.foldl_cons]
    by_cases hc : c = '\n'
    · subst hc
      rw [ih hquote.2 hreturn.2 (h.lineEnd hend).1, List.nil_append,
        List.splitOn_append_cons_self, List.splitOn_eq_singleton (hfeed h.unended),
        List.singleton_append, startLines, h.step_lineEnd hend]
      by_cases hline : line = []
      · rw [if_pos hline, if_pos hline]
        rfl
      · rw [if_neg hline, if_neg hline]
        simp [starts, endRecord, count]
    · have hinside : isLineEnd c = false := by rw [hend, beq_eq_false_iff_ne]; exact hc
      obtain ⟨hholds, hstarts, hstart, hlast⟩ := h.step_inside (Ne.symm hquote.1) hinside
      rw [ih hquote.2 hreturn.2 hholds, hstarts, hstart, hlast, List.append_assoc,
        List.singleton_append]

end Reader

section Records

variable {text : List Char} (hquote : '"' ∉ text) (hreturn : '\r' ∉ text)
  (hmark : text.head? ≠ some '\uFEFF')

include hquote hreturn hmark

/-- Where the records of a text begin. -/
lemma map_line_records :
    (records (text.map Symbol.char)).map (·.line) = startLines 1 1 (text.splitOn '\n') := by
  rw [records_eq hmark]
  exact Reader.lines_finish text hquote hreturn (Reader.holds_nil rfl rfl rfl)

/-- **The records before and after the one that a line is cut to.** -/
lemma exists_records_split {before after : List (List Char)} {row : List Char}
    (h : text.splitOn '\n' = before ++ row :: after) (hrow : row ≠ []) :
    ∃ front record back, records (text.map Symbol.char) = front ++ record :: back ∧
      front.map (·.fields) = (before.filter fun piece => !piece.isEmpty).map
        (fun row => (row.splitOn ',').map (·.map Symbol.char)) ∧
      record.fields = (row.splitOn ',').map (·.map Symbol.char) ∧
      record.line = (before.rdropWhile List.isEmpty).length + 1 := by
  have hfields := map_fields_records hquote hmark
  rw [rows_eq hreturn, h, List.filter_append, List.filter_cons_of_pos (by simpa using hrow),
    List.map_append, List.map_cons] at hfields
  have hlines := map_line_records hquote hreturn hmark
  rw [h, startLines_append, startLines, if_neg hrow, startAfter_self] at hlines
  obtain ⟨front, others, hsplit, hfront, hothers⟩ := List.map_eq_append_iff.mp hfields
  obtain ⟨record, back, rfl, hrecord, -⟩ := List.map_eq_cons_iff.mp hothers
  refine ⟨front, record, back, hsplit, hfront, hrecord, ?_⟩
  rw [hsplit, List.map_append, List.map_cons] at hlines
  have hlength : (front.map (·.line)).length = (startLines 1 1 before).length := by
    rw [length_startLines, List.length_map, ← List.length_map (f := (·.fields)), hfront,
      List.length_map]
  have hline := (List.cons.inj (List.append_inj hlines hlength).2).1
  rw [hline, Nat.add_comm]

end Records

end Csv

end Constellation
