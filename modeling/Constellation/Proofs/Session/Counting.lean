import Mathlib.Data.List.TakeWhile
import Mathlib.Data.Nat.Notation
import Mathlib.Tactic.Lemma
import Constellation.Session.Listing
import Constellation.Text.Numeral
set_option autoImplicit false

/-!
# Which sessions are counted

The lines of a listing are counted by a reader that takes each of them apart from the left. This
module says which lines these are, without saying how they are found, and that the count of a
listing of sessions is the number of those that are active.

## Main definitions

* `IsLabel`, `IsActiveWord` — the front of a session's line, and the words of active states.
* `ListsActive` — a line can be split so that it lists an active session.
* `ListedSession`, `ListedSession.line` — a session and its line in a listing.
* `listingOf` — a listing of sessions between other lines.

## Main results

* `sessionRemarks?_eq_some_iff` — the front of a line can be split off in one way only.
* `isActiveSession_iff` — a line is counted if and only if it lists an active session.
* `countSessions_intercalate` — listings are counted line by line, whatever ends their lines.
* `countSessions_exact` — the number of active sessions in a text, and in a listing of sessions.

## Design

The pieces of a line are given by an existential statement, so all ways to split a line are
considered. That the reader only tries one of them is justified piece by piece: a run of characters
ends where the next piece begins, because that piece begins with a character that the run cannot
hold. The text between the front and the state is arbitrary, and only the end of the line decides.
-/

namespace Constellation

/-! ## The grammar of a line -/

/-- A nonempty run of characters that satisfy `p`. -/
def IsRun (p : Char → Bool) (text : List Char) : Prop := text ≠ [] ∧ ∀ c ∈ text, p c = true

/-- The front of a session's line: blanks, a process number, a dot, a name and one blank. -/
def IsLabel (text : List Char) : Prop :=
  ∃ indent process name blank, text = indent ++ process ++ ['.'] ++ name ++ [blank] ∧
    IsRun isBlank indent ∧ IsRun isDecimalDigit process ∧ IsRun (fun c => !isBlank c) name ∧
      isBlank blank = true

/-- The word of an active state, in small or capital letters. Where a session is shared, another
word comes before it. -/
def IsActiveWord (word : List Char) : Prop :=
  ∃ multi ∈ ["", "multi, "], ∃ state ∈ ["detached", "attached"],
    word.map Char.toLower = (multi ++ state).toList

instance : DecidablePred IsActiveWord := fun word =>
  inferInstanceAs (Decidable (∃ multi ∈ _, ∃ state ∈ _, word.map Char.toLower = _))

/-- A line can be split so that it lists an active session: after its front there is any text, the
state of the session in parentheses, and nothing but blanks. -/
def ListsActive (line : List Char) : Prop :=
  ∃ label remarks word padding, line = label ++ remarks ++ '(' :: (word ++ ')' :: padding) ∧
    IsLabel label ∧ IsActiveWord word ∧ ∀ c ∈ padding, isBlank c = true

/-! ## Reading the front of a line -/

/-- A run is skipped up to the first character that it cannot hold. -/
lemma skipSome_eq_some_iff {p : Char → Bool} {text rest : List Char} :
    skipSome p text = some rest ↔
      ∃ run, text = run ++ rest ∧ IsRun p run ∧ ∀ c ∈ rest.head?, p c = false := by
  constructor
  · intro h
    cases text with
    | nil => cases h
    | cons c text =>
      rw [skipSome] at h
      split at h
      · next hc =>
        obtain rfl := Option.some.inj h
        refine ⟨c :: text.takeWhile p, ?_, ⟨by simp, ?_⟩, ?_⟩
        · rw [List.cons_append, List.takeWhile_append_dropWhile]
        · exact List.forall_mem_cons.mpr ⟨hc, fun d hd => List.mem_takeWhile_imp hd⟩
        · intro d hd
          have hnot := List.head?_dropWhile_not p text
          rw [Option.mem_def.mp hd] at hnot
          exact hnot
      · cases h
  · rintro ⟨run, rfl, ⟨hne, hrun⟩, hrest⟩
    obtain ⟨c, run, rfl⟩ := List.exists_cons_of_ne_nil hne
    rw [List.forall_mem_cons] at hrun
    have hstop : rest.dropWhile p = rest := by
      cases rest with
      | nil => rfl
      | cons d rest => rw [List.dropWhile_cons, hrest d rfl, if_neg Bool.false_ne_true]
    rw [List.cons_append, skipSome, if_pos hrun.1, List.dropWhile_append_of_pos hrun.2, hstop]

/-- A single character is skipped. -/
lemma skipOne_eq_some_iff {p : Char → Bool} {text rest : List Char} :
    skipOne p text = some rest ↔ ∃ c, text = c :: rest ∧ p c = true := by
  cases text with
  | nil => simp [skipOne]
  | cons c text =>
    rw [skipOne]
    constructor
    · intro h
      split at h
      · next hc => exact ⟨c, congrArg _ (Option.some.inj h), hc⟩
      · cases h
    · rintro ⟨d, heq, hd⟩
      obtain ⟨rfl, rfl⟩ := List.cons.inj heq
      rw [if_pos hd]

/-- The code points of blanks. -/
def blankCodes : List ℕ :=
  [0x09, 0x0a, 0x0b, 0x0c, 0x0d, 0x20, 0x85, 0xa0, 0x1680, 0x2000, 0x2001, 0x2002, 0x2003, 0x2004,
    0x2005, 0x2006, 0x2007, 0x2008, 0x2009, 0x200a, 0x2028, 0x2029, 0x202f, 0x205f, 0x3000]

/-- A blank has one of these code points. -/
lemma mem_blankCodes {c : Char} (h : isBlank c = true) : c.toNat ∈ blankCodes := by
  simp only [isBlank, Bool.or_eq_true, Bool.and_eq_true, decide_eq_true_eq, beq_iff_eq] at h
  simp only [blankCodes, List.mem_cons, List.not_mem_nil, or_false]
  omega

/-- Decimal digits of any script are not blank. -/
lemma isBlank_eq_false_of_isDecimalDigit {c : Char} (h : isDecimalDigit c = true) :
    isBlank c = false := by
  have hnone : ∀ n ∈ blankCodes,
      (decimalZeros.any fun first => first ≤ n && n < first + 10) = false := by decide
  by_contra hblank
  rw [isDecimalDigit, hnone _ (mem_blankCodes (Bool.not_eq_false _ ▸ hblank))] at h
  cases h

/-- **The front of a line can be split off in one way only**, in which no piece could be longer. -/
lemma sessionRemarks?_eq_some_iff {line remarks : List Char} :
    sessionRemarks? line = some remarks ↔ ∃ label, line = label ++ remarks ∧ IsLabel label := by
  simp only [sessionRemarks?, Option.bind_eq_bind, Option.bind_eq_some_iff, skipSome_eq_some_iff,
    skipOne_eq_some_iff]
  constructor
  · rintro ⟨_, ⟨indent, rfl, hindent, -⟩, _, ⟨process, rfl, hprocess, -⟩, _, ⟨dot, rfl, hdot⟩, _,
      ⟨name, rfl, hname, -⟩, blank, rfl, hblank⟩
    obtain rfl : dot = '.' := by simpa using hdot
    exact ⟨indent ++ process ++ ['.'] ++ name ++ [blank], by simp,
      indent, process, name, blank, rfl, hindent, hprocess, hname, hblank⟩
  · rintro ⟨_, rfl, indent, process, name, blank, rfl, hindent, hprocess, hname, hblank⟩
    obtain ⟨digit, digits, rfl⟩ := List.exists_cons_of_ne_nil hprocess.1
    refine ⟨digit :: digits ++ '.' :: (name ++ blank :: remarks),
      ⟨indent, by simp, hindent, ?_⟩, '.' :: (name ++ blank :: remarks),
      ⟨digit :: digits, rfl, hprocess, ?_⟩, name ++ blank :: remarks, ⟨'.', rfl, rfl⟩,
      blank :: remarks, ⟨name, rfl, hname, ?_⟩, blank, rfl, hblank⟩
    · intro c hc
      obtain rfl : digit = c := by simpa using hc
      exact isBlank_eq_false_of_isDecimalDigit (hprocess.2 digit List.mem_cons_self)
    · intro c hc
      obtain rfl : '.' = c := by simpa using hc
      decide
    · intro c hc
      obtain rfl : blank = c := by simpa using hc
      rw [hblank]
      rfl

/-! ## Reading the state of a session -/

/-- What is no small letter is the small form of nothing else. -/
lemma eq_of_lowered_eq {c d : Char} (hd : d.toNat < 'a'.toNat) (h : lowered c = d) : c = d := by
  change dite ('A'.val ≤ c.val ∧ c.val ≤ 'Z'.val) _ _ = d at h
  split at h
  · next hupper =>
    have hlow : 65 ≤ c.toNat := hupper.1
    have hhigh : c.toNat ≤ 90 := hupper.2
    have hcode : d.toNat = (c.toNat + 32) % 4294967296 := by
      rw [← h]
      exact UInt32.toNat_add _ _
    have ha : 'a'.toNat = 97 := rfl
    omega
  · exact h

/-- The active states are the active words in parentheses. -/
lemma mem_activeStates_iff {text : List Char} : text ∈ activeStates ↔
    ∃ multi ∈ ["", "multi, "], ∃ state ∈ ["detached", "attached"],
      text = '(' :: ((multi ++ state).toList ++ [')']) := by
  have hstates : activeStates = (["", "multi, "].flatMap fun multi =>
      ["detached", "attached"].map fun state => '(' :: ((multi ++ state).toList ++ [')'])) := rfl
  rw [hstates]
  simp only [List.mem_flatMap, List.mem_map, eq_comm]

/-- The small form of a text is an active state if the text is an active word in parentheses. -/
lemma lowered_mem_activeStates_iff {text : List Char} : text.map lowered ∈ activeStates ↔
    ∃ word, text = '(' :: (word ++ [')']) ∧ IsActiveWord word := by
  rw [mem_activeStates_iff]
  constructor
  · rintro ⟨multi, hmulti, state, hstate, htext⟩
    obtain ⟨opening, rest, rfl, hopening, hrest⟩ := List.map_eq_cons_iff.mp htext
    obtain ⟨word, closing, rfl, hword, hclosing⟩ := List.map_eq_append_iff.mp hrest
    obtain ⟨close, rfl, hclose⟩ := List.map_eq_singleton_iff.mp hclosing
    rw [eq_of_lowered_eq (by decide) hopening, eq_of_lowered_eq (by decide) hclose]
    exact ⟨word, rfl, multi, hmulti, state, hstate, hword⟩
  · rintro ⟨word, rfl, multi, hmulti, state, hstate, hword⟩
    refine ⟨multi, hmulti, state, hstate, ?_⟩
    rw [← hword, List.map_cons, List.map_append]
    rfl

/-- A text without the blanks at its end. -/
lemma reverse_trimLeading_reverse {text : List Char} {c : Char} (hc : isBlank c = false)
    {padding : List Char} (hpadding : ∀ d ∈ padding, isBlank d = true) :
    (trimLeading (text ++ c :: padding).reverse).reverse = text ++ [c] := by
  have hreverse : ∀ d ∈ padding.reverse, isBlank d = true :=
    fun d hd => hpadding d (List.mem_reverse.mp hd)
  rw [List.reverse_append, List.reverse_cons, List.append_assoc, trimLeading,
    List.dropWhile_append_of_pos hreverse, List.singleton_append, List.dropWhile_cons, hc,
    if_neg Bool.false_ne_true, List.reverse_cons, List.reverse_reverse]

/-- **A text ends in an active state** if it can be split there, with nothing but blanks after
it. -/
lemma endsInActiveState_iff {text : List Char} : endsInActiveState text = true ↔
    ∃ remarks word padding, text = remarks ++ '(' :: (word ++ ')' :: padding) ∧
      IsActiveWord word ∧ ∀ c ∈ padding, isBlank c = true := by
  simp only [endsInActiveState, List.any_eq_true, List.isSuffixOf_iff_suffix]
  constructor
  · rintro ⟨state, hstate, remarks, hsuffix⟩
    obtain ⟨before, ending, hbefore, hremarks, hending⟩ := List.map_eq_append_iff.mp hsuffix.symm
    obtain ⟨word, rfl, hword⟩ := lowered_mem_activeStates_iff.mp (hending.symm ▸ hstate)
    refine ⟨before, word, (text.reverse.takeWhile isBlank).reverse, ?_, hword, ?_⟩
    · have hsplit : text = (trimLeading text.reverse).reverse ++
          (text.reverse.takeWhile isBlank).reverse := by
        rw [← List.reverse_append, trimLeading, List.takeWhile_append_dropWhile,
          List.reverse_reverse]
      rw [hbefore] at hsplit
      simpa using hsplit
    · intro c hc
      exact List.mem_takeWhile_imp (List.mem_reverse.mp hc)
  · rintro ⟨remarks, word, padding, rfl, hword, hpadding⟩
    refine ⟨_, lowered_mem_activeStates_iff.mpr ⟨word, rfl, hword⟩, remarks.map lowered, ?_⟩
    have hsplit : remarks ++ '(' :: (word ++ ')' :: padding) =
        remarks ++ '(' :: word ++ ')' :: padding := by simp
    rw [hsplit, reverse_trimLeading_reverse (by decide) hpadding]
    simp

/-! ## Counting lines -/

/-- **A line is counted** if and only if it lists an active session. -/
lemma isActiveSession_iff {line : List Char} : isActiveSession line = true ↔ ListsActive line := by
  rw [isActiveSession, ListsActive]
  constructor
  · intro h
    cases hremarks : sessionRemarks? line with
    | none =>
      rw [hremarks] at h
      cases h
    | some rest =>
      rw [hremarks] at h
      obtain ⟨label, rfl, hlabel⟩ := sessionRemarks?_eq_some_iff.mp hremarks
      obtain ⟨remarks, word, padding, rfl, hword, hpadding⟩ := endsInActiveState_iff.mp h
      exact ⟨label, remarks, word, padding, by simp, hlabel, hword, hpadding⟩
  · rintro ⟨label, remarks, word, padding, rfl, hlabel, hword, hpadding⟩
    rw [List.append_assoc, sessionRemarks?_eq_some_iff.mpr ⟨label, rfl, hlabel⟩]
    exact endsInActiveState_iff.mpr ⟨remarks, word, padding, rfl, hword, hpadding⟩

instance : DecidablePred ListsActive := fun _ => decidable_of_iff _ isActiveSession_iff

/-- A line that does not begin with a blank lists no session. -/
lemma isActiveSession_eq_false {line : List Char} (h : ∀ c ∈ line.head?, isBlank c = false) :
    isActiveSession line = false := by
  cases line with
  | nil => rfl
  | cons c line =>
    have hskip : skipSome isBlank (c :: line) = none := by
      rw [skipSome, h c rfl, if_neg Bool.false_ne_true]
    simp [isActiveSession, sessionRemarks?, hskip]

/-- A blank at the end of a line does not matter. -/
lemma isActiveSession_concat (line : List Char) {c : Char} (hc : isBlank c = true) :
    isActiveSession (line ++ [c]) = isActiveSession line := by
  rw [Bool.eq_iff_iff, isActiveSession_iff, isActiveSession_iff]
  constructor
  · rintro ⟨label, remarks, word, padding, hline, hlabel, hword, hpadding⟩
    rcases List.eq_nil_or_concat padding with rfl | ⟨front, last, rfl⟩
    · have hlast : line ++ [c] = label ++ remarks ++ '(' :: word ++ [')'] := by simpa using hline
      obtain rfl := (List.cons.inj (List.append_inj' hlast rfl).2).1
      cases hc
    · have hlast : line ++ [c] = label ++ remarks ++ '(' :: (word ++ ')' :: front) ++ [last] := by
        simpa using hline
      refine ⟨label, remarks, word, front, (List.append_inj' hlast rfl).1, hlabel, hword, ?_⟩
      exact fun d hd => hpadding d (by simp [hd])
  · rintro ⟨label, remarks, word, padding, rfl, hlabel, hword, hpadding⟩
    refine ⟨label, remarks, word, padding ++ [c], by simp, hlabel, hword, fun d hd => ?_⟩
    rcases List.mem_append.mp hd with hd | hd
    · exact hpadding d hd
    · exact List.mem_singleton.mp hd ▸ hc

/-- So a carriage return at the end of a line does not matter. -/
lemma isActiveSession_dropReturn (line : List Char) :
    isActiveSession (dropReturn line) = isActiveSession line := by
  rw [dropReturn]
  split
  · next hreturn =>
    obtain ⟨front, rfl⟩ := List.getLast?_eq_some_iff.mp hreturn
    rw [List.dropLast_concat, isActiveSession_concat front (by decide)]
  · rfl

/-- A listing is counted piece by piece between its line feeds. -/
lemma countSessions_eq_countP (listing : List Char) :
    countSessions listing = (listing.splitOn '\n').countP isActiveSession := by
  obtain ⟨front, last, hpieces⟩ : ∃ front last, listing.splitOn '\n' = front ++ [last] :=
    ⟨_, _, (List.dropLast_concat_getLast (List.splitOn_ne_nil '\n' listing)).symm⟩
  have hlast : ([last].filter fun piece => !piece.isEmpty).countP isActiveSession =
      [last].countP isActiveSession := by
    cases last <;> rfl
  have hreturns : isActiveSession ∘ dropReturn = isActiveSession :=
    funext isActiveSession_dropReturn
  rw [countSessions, lines, hpieces]
  simp only [List.dropLast_concat, List.getLast?_concat, Option.toList_some, List.countP_append,
    List.countP_map, hlast, hreturns]

/-- **Listings are counted line by line.** -/
lemma countSessions_append_cons (front rest : List Char) :
    countSessions (front ++ '\n' :: rest) = countSessions front + countSessions rest := by
  simp only [countSessions_eq_countP, List.splitOn_append_cons_self, List.countP_append]

/-- A single line is counted or not. -/
lemma countSessions_of_line {line : List Char} (h : '\n' ∉ line) :
    countSessions line = if isActiveSession line then 1 else 0 := by
  rw [countSessions_eq_countP, List.splitOn_eq_singleton h, List.countP_singleton]

/-- What may end the lines of a listing. -/
def listingEnds : List (List Char) := [['\n'], ['\r', '\n']]

/-- **The lines of a listing** are counted one by one, whatever ends them. -/
lemma countSessions_intercalate {ending : List Char} (hending : ending ∈ listingEnds)
    {lines : List (List Char)} (hlines : ∀ line ∈ lines, '\n' ∉ line) :
    countSessions (ending.intercalate lines) = lines.countP isActiveSession := by
  induction lines with
  | nil => rfl
  | cons line rest ih =>
    rw [List.forall_mem_cons] at hlines
    cases rest with
    | nil =>
      rw [List.intercalate_singleton, countSessions_of_line hlines.1, List.countP_singleton]
    | cons next rest =>
      have hfirst : countSessions (line ++ ending ++ ending.intercalate (next :: rest)) =
          (if isActiveSession line then 1 else 0) +
            countSessions (ending.intercalate (next :: rest)) := by
        simp only [listingEnds, List.mem_cons, List.not_mem_nil, or_false] at hending
        rcases hending with rfl | rfl
        · rw [List.append_assoc, List.singleton_append, countSessions_append_cons,
            countSessions_of_line hlines.1]
        · have hreturn : '\n' ∉ line ++ ['\r'] := by simpa using hlines.1
          have hsplit : ∀ text, line ++ ['\r', '\n'] ++ text = line ++ ['\r'] ++ '\n' :: text := by
            simp
          rw [hsplit, countSessions_append_cons, countSessions_of_line hreturn,
            isActiveSession_concat line (by decide)]
      rw [List.intercalate_cons_cons, hfirst, ih hlines.2]
      simp only [List.countP_cons]
      omega

/-! ## Listings of sessions -/

/-- There is no parenthesis in the word of an active state. -/
lemma IsActiveWord.notMem {word : List Char} (h : IsActiveWord word) : '(' ∉ word := by
  obtain ⟨multi, hmulti, state, hstate, hword⟩ := h
  have hnone : ∀ multi ∈ ["", "multi, "], ∀ state ∈ ["detached", "attached"],
      '('.toLower ∉ (multi ++ state).toList := by decide
  intro hmem
  exact hnone multi hmulti state hstate (hword ▸ List.mem_map_of_mem hmem)

/-- The state in a line is what comes after the last parenthesis that is opened. -/
lemma eq_of_append_state {front before text word padding : List Char} (htext : '(' ∉ text)
    (hword : '(' ∉ word) (hpadding : ∀ c ∈ padding, isBlank c = true)
    (h : front ++ '(' :: (text ++ [')']) = before ++ '(' :: (word ++ ')' :: padding)) :
    text = word := by
  have hnil : padding = [] := by
    rcases List.eq_nil_or_concat padding with hnil | ⟨padding, last, rfl⟩
    · exact hnil
    · have hlast : front ++ '(' :: text ++ [')'] =
          before ++ '(' :: (word ++ ')' :: padding) ++ [last] := by simpa using h
      obtain rfl := (List.cons.inj (List.append_inj' hlast rfl).2).1
      exact absurd (hpadding ')' (by simp)) (by decide)
  have hcut : front ++ '(' :: text = before ++ '(' :: word := by
    have hclose : front ++ '(' :: text ++ [')'] = before ++ '(' :: word ++ [')'] := by
      simpa [hnil] using h
    exact (List.append_inj' hclose rfl).1
  -- neither word has a parenthesis in it, so both are what comes after the last one
  have hpieces := congrArg (fun line : List Char => (line.splitOn '(').getLast?) hcut
  simpa only [List.splitOn_append_cons_self, List.splitOn_eq_singleton htext,
    List.splitOn_eq_singleton hword, List.getLast?_concat, Option.some.injEq] using hpieces

/-- The word of a state that is not active. -/
structure InactiveWord where
  /-- The word. -/
  text : List Char
  /-- It does not end the line. -/
  unended : '\n' ∉ text
  /-- It does not begin another state. -/
  unopened : '(' ∉ text
  /-- It is not the word of an active state. -/
  inactive : ¬ IsActiveWord text

/-- What a session is doing. -/
inductive SessionState
  /-- Somebody looks at it, perhaps among others. -/
  | attached (multi : Bool)
  /-- Nobody looks at it, but it may be shared. -/
  | detached (multi : Bool)
  /-- Its process is gone. -/
  | dead
  /-- It is out of reach for some other reason. -/
  | other (word : InactiveWord)

namespace SessionState

/-- The word of a state. -/
def text : SessionState → List Char
  | attached false => "Attached".toList
  | attached true => "Multi, attached".toList
  | detached false => "Detached".toList
  | detached true => "Multi, detached".toList
  | dead => "Dead ???".toList
  | other word => word.text

/-- Whether a session is attached or detached. -/
def isActive : SessionState → Bool
  | attached _ => true
  | detached _ => true
  | dead => false
  | other _ => false

/-- The word of a state stays in its line and in its parentheses. -/
lemma notMem_text (state : SessionState) : '\n' ∉ state.text ∧ '(' ∉ state.text := by
  cases state with
  | attached multi => cases multi <;> decide
  | detached multi => cases multi <;> decide
  | dead => decide
  | other word => exact ⟨word.unended, word.unopened⟩

/-- The words of active states are those of the states that are active. -/
lemma isActiveWord_text_iff (state : SessionState) :
    IsActiveWord state.text ↔ state.isActive = true := by
  cases state with
  | attached multi => cases multi <;> decide
  | detached multi => cases multi <;> decide
  | dead => decide
  | other word => exact iff_of_false word.inactive Bool.false_ne_true

end SessionState

/-- A session as it is listed. -/
structure ListedSession where
  /-- The number of its process. -/
  process : ℕ
  /-- Its name. -/
  name : List Char
  /-- When it was started, if that is told. -/
  started : Option (List Char)
  /-- What it is doing. -/
  state : SessionState
  /-- The name is not empty. -/
  name_ne_nil : name ≠ []
  /-- There is no blank in it. -/
  name_blankless : ∀ c ∈ name, isBlank c = false
  /-- The date does not end the line. -/
  started_unended : ∀ date ∈ started, '\n' ∉ date

namespace ListedSession

variable (session : ListedSession)

/-- The front of the line. -/
def label : List Char :=
  ['\t'] ++ Numeral.digits session.process ++ ['.'] ++ session.name ++ ['\t']

/-- The date of the start, if it is told. -/
def remarks : List Char :=
  match session.started with
  | none => []
  | some date => '(' :: (date ++ [')', '\t'])

/-- The line of a session. -/
def line : List Char := session.label ++ session.remarks ++ '(' :: (session.state.text ++ [')'])

/-- The front of the line is one. -/
lemma isLabel_label : IsLabel session.label := by
  refine ⟨['\t'], Numeral.digits session.process, session.name, '\t', rfl, ?_, ?_, ?_, by decide⟩
  · exact ⟨by simp, List.forall_mem_singleton.mpr (by decide)⟩
  · exact ⟨Nat.toDigits_ne_nil, fun c hc => isDecimalDigit_of_isDigit
      (Nat.isDigit_of_mem_toDigits (by decide) (by decide) hc)⟩
  · exact ⟨session.name_ne_nil, fun c hc => by simp [session.name_blankless c hc]⟩

/-- The line of a session is a single line. -/
lemma lineFeed_notMem_line : '\n' ∉ session.line := by
  have hdigits : '\n' ∉ Numeral.digits session.process := fun hmem =>
    absurd (Nat.isDigit_of_mem_toDigits (by decide) (by decide) hmem) (by decide)
  have hname : '\n' ∉ session.name := fun hmem =>
    absurd (session.name_blankless _ hmem) (by decide)
  have hremarks : '\n' ∉ session.remarks := by
    rw [remarks]
    cases hstarted : session.started with
    | none => simp
    | some date => simpa using session.started_unended date hstarted
  simp [line, label, hdigits, hname, hremarks, session.state.notMem_text.1]

/-- **A session is counted** if and only if it is attached or detached. -/
lemma isActiveSession_line : isActiveSession session.line = session.state.isActive := by
  rw [Bool.eq_iff_iff, isActiveSession_iff, ← session.state.isActiveWord_text_iff]
  constructor
  · rintro ⟨label, remarks, word, padding, hline, -, hword, hpadding⟩
    rwa [eq_of_append_state session.state.notMem_text.2 hword.notMem hpadding hline]
  · intro hword
    exact ⟨session.label, session.remarks, session.state.text, [], rfl, session.isLabel_label,
      hword, by simp⟩

end ListedSession

/-- A listing of sessions between other lines. -/
def listingOf (ending : List Char) (header : List (List Char)) (sessions : List ListedSession)
    (footer : List (List Char)) : List Char :=
  ending.intercalate (header ++ sessions.map ListedSession.line ++ footer)

/-- A line that is empty or begins with something else than a blank. -/
def IsRemark (line : List Char) : Prop := '\n' ∉ line ∧ ∀ c ∈ line.head?, isBlank c = false

instance : DecidablePred IsRemark := fun line =>
  decidable_of_iff ('\n' ∉ line ∧ (line.head?.all fun c => !isBlank c) = true)
    (by simp [IsRemark, Option.all_eq_true])

/-- Such a line lists no session. -/
lemma IsRemark.isActiveSession_eq_false {line : List Char} (h : IsRemark line) :
    isActiveSession line = false := Constellation.isActiveSession_eq_false h.2

/-- **Which sessions are counted.** A text has as many active sessions as it has lines that can be
split so that they list one. In a listing of any sessions in any order, between lines that do not
begin with a blank, these are the sessions that are attached or detached.

**Proof sketch.** A line is counted if and only if it can be split in this way
(`isActiveSession_iff`), and a carriage return at its end does not matter, so the lines may be cut
at line feeds alone (`countSessions_eq_countP`). The line of a session has a front and a state in
parentheses, and no other split of it ends in another state
(`ListedSession.isActiveSession_line`). -/
theorem countSessions_exact (listing : List Char) :
    countSessions listing = ((listing.splitOn '\n').map dropReturn).countP (ListsActive ·) ∧
    ∀ ending ∈ listingEnds, ∀ header footer, ∀ sessions : List ListedSession,
      (∀ line ∈ header ++ footer, IsRemark line) →
      countSessions (listingOf ending header sessions footer) =
        sessions.countP (·.state.isActive) := by
  constructor
  · have hlists : (fun line => decide (ListsActive line)) ∘ dropReturn = isActiveSession := by
      funext line
      rw [Function.comp_apply, ← isActiveSession_dropReturn, Bool.eq_iff_iff, decide_eq_true_iff,
        isActiveSession_iff]
    rw [countSessions_eq_countP, List.countP_map, hlists]
  · intro ending hending header footer sessions hremarks
    have hnone : ∀ lines : List (List Char), (∀ line ∈ lines, IsRemark line) →
        lines.countP isActiveSession = 0 := fun lines hlines =>
      List.countP_eq_zero.mpr fun line hline => by
        simp [(hlines line hline).isActiveSession_eq_false]
    rw [List.forall_mem_append] at hremarks
    rw [listingOf, countSessions_intercalate hending, List.countP_append, List.countP_append,
      hnone header hremarks.1, hnone footer hremarks.2, List.countP_map, Nat.zero_add, Nat.add_zero]
    · exact congrArg (List.countP · sessions) (funext ListedSession.isActiveSession_line)
    · intro line hline
      simp only [List.mem_append, List.mem_map] at hline
      rcases hline with (hheader | ⟨session, -, rfl⟩) | hfooter
      · exact (hremarks.1 line hheader).1
      · exact session.lineFeed_notMem_line
      · exact (hremarks.2 line hfooter).1

/-- A session whose name and date look like states. -/
def ListedSession.confusing (process : ℕ) (state : SessionState) : ListedSession where
  process := process
  name := "7.sim(attached)".toList
  started := some "19/10/26 (Detached)".toList
  state := state
  name_ne_nil := by decide
  name_blankless := by
    have hname : ("7.sim(attached)".toList.all fun c => !isBlank c) = true := by decide
    exact fun c hc => by simpa using List.all_eq_true.mp hname c hc
  started_unended := by decide

/-- Such sessions are counted by their states alone. -/
theorem countSessions_exact_confusing :
    (∀ line ∈ ["There are screens on:".toList] ++ ["3 Sockets in /run.".toList, []],
      IsRemark line) ∧
    countSessions (listingOf ['\r', '\n'] ["There are screens on:".toList]
      [.confusing 11 (.attached false), .confusing 12 .dead, .confusing 13 (.detached true)]
      ["3 Sockets in /run.".toList, []]) = 2 := by
  have hremarks : ∀ line ∈ ["There are screens on:".toList] ++ ["3 Sockets in /run.".toList, []],
      IsRemark line := by decide
  exact ⟨hremarks, (countSessions_exact []).2 _ (by decide) _ _ _ hremarks⟩

end Constellation
