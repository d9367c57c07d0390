import Constellation.Proofs.Snapshot.Grammar
set_option autoImplicit false

/-!
# Pairs are written like routes

The pairs that are watched are given on the command line, where a text is cut at its first comma. A
row of a snapshot is cut at every comma. That both agree is due to the numbers between the commas,
in which no further comma can be.

## Main definitions

* `RoutePair.IsWritten` — a text has two fields that denote a pair.

## Main results

* `RoutePair.ofText_eq_ok_iff` — a text is read as the pair that is written in it.
* `Route.isWritten_append_iff` — which texts stand for a route once a field is put after them.
* `RoutePair.ofText_agrees` — a text is read as a pair if and only if it can be read as a route with
  a next hop put after it.
-/

namespace Constellation

/-! ## Commas and blanks -/

/-- Only blanks are trimmed off. -/
lemma mem_trimBlanks {text : List Char} {c : Char} (hc : c ∈ text) (hblank : isBlank c = false) :
    c ∈ trimBlanks text := by
  have hkept : ∀ {text : List Char}, c ∈ text → c ∈ trimLeading text := by
    intro text hmem
    rw [← List.takeWhile_append_dropWhile (p := isBlank) (l := text), List.mem_append] at hmem
    refine hmem.resolve_left fun htaken => ?_
    rw [List.mem_takeWhile_imp htaken] at hblank
    cases hblank
  rw [trimBlanks, List.mem_reverse]
  exact hkept (List.mem_reverse.mpr (hkept hc))

/-- There is no comma in a text that denotes a number without the blanks around it. -/
lemma Numeral.Denotes.comma_notMem {text : List Char} {n : ℕ} (h : Denotes (trimBlanks text) n) :
    ',' ∉ text := by
  intro hmem
  have hcomma := mem_trimBlanks hmem (by decide)
  obtain ⟨digits, htext, -, hdigits, -⟩ := h
  have hdigit : ',' ∉ digits := fun hc => absurd (hdigits _ hc) (by decide)
  rcases htext with htext | htext
  · rw [htext] at hcomma
    exact hdigit hcomma
  · rw [htext, List.mem_cons] at hcomma
    exact hcomma.elim (by decide) hdigit

namespace RoutePair

/-- A text has two fields between commas, which denote the numbers of a pair without the blanks
around them. -/
def IsWritten (text : List Char) (pair : RoutePair) : Prop :=
  ∃ a b, text.splitOn ',' = [a, b] ∧ Numeral.Denotes (trimBlanks a) pair.source.toNat ∧
    Numeral.Denotes (trimBlanks b) pair.destination.toNat

variable {text : List Char} {pair : RoutePair}

/-- A part of a pair is read as the number that it denotes without the blanks around it. -/
lemma readPart_eq_ok_iff {node : NodeId} :
    readPart text = .ok node ↔ Numeral.Denotes (trimBlanks text) node.toNat := by
  rw [← Numeral.readWord_eq_ok_iff, readPart]
  cases Numeral.readWord (trimBlanks text) with
  | ok found => simp
  | error fault => simp

/-- A text is cut at its first comma, and both of its parts are read. -/
lemma ofText_append_comma_eq_ok_iff {first : List Char} (hfirst : ',' ∉ first) (rest : List Char) :
    ofText (first ++ ',' :: rest) = .ok pair ↔
      readPart first = .ok pair.source ∧ readPart rest = .ok pair.destination := by
  have hpass : ∀ c ∈ first, (c != ',') = true := fun c hc =>
    bne_iff_ne.mpr fun heq => hfirst (heq ▸ hc)
  rw [ofText, List.dropWhile_append_of_pos hpass, List.takeWhile_append_of_pos hpass,
    List.dropWhile_cons_of_neg (by simp), List.takeWhile_cons_of_neg (by simp), List.append_nil]
  dsimp only
  cases readPart first with
  | error fault => exact iff_of_false (fun h => by cases h) fun h => by cases h.1
  | ok source =>
    cases readPart rest with
    | error fault => exact iff_of_false (fun h => by cases h) fun h => by cases h.2
    | ok destination =>
      obtain ⟨pairSource, pairDestination⟩ := pair
      show Except.ok (RoutePair.mk source destination) = _ ↔ _
      simp only [Except.ok.injEq, RoutePair.mk.injEq]

/-- A text without a comma is no pair. -/
lemma ofText_of_notMem (h : ',' ∉ text) : ofText text = .error (.noComma (String.ofList text)) := by
  have hdrop : text.dropWhile (· != ',') = [] := List.dropWhile_eq_nil_iff.mpr fun c hc =>
    bne_iff_ne.mpr fun heq => h (heq ▸ hc)
  rw [ofText, hdrop]

/-- **A text is read as a pair** if and only if the pair is written in it. -/
lemma ofText_eq_ok_iff : ofText text = .ok pair ↔ IsWritten text pair := by
  rw [IsWritten]
  by_cases hcomma : ',' ∈ text
  · obtain ⟨first, rest, rfl, hfirst⟩ := List.eq_append_cons_of_mem hcomma
    rw [ofText_append_comma_eq_ok_iff hfirst, readPart_eq_ok_iff, readPart_eq_ok_iff,
      List.splitOn_append_cons_self_of_not_mem hfirst]
    constructor
    · rintro ⟨hsource, hdestination⟩
      exact ⟨first, rest, by rw [List.splitOn_eq_singleton hdestination.comma_notMem], hsource,
        hdestination⟩
    · rintro ⟨a, b, hsplit, ha, hb⟩
      obtain ⟨rfl, hrest⟩ := List.cons.inj hsplit
      have hjoin : [','].intercalate (rest.splitOn ',') = rest := List.intercalate_splitOn ','
      rw [hrest, List.intercalate_singleton] at hjoin
      exact ⟨ha, hjoin ▸ hb⟩
  · rw [ofText_of_notMem hcomma, List.splitOn_eq_singleton hcomma]
    simp

end RoutePair

/-! ## One more field -/

/-- **A text stands for a route once a field is put after it** if and only if the pair of the route
is written in it, and the field that is put after it denotes the next hop. -/
lemma Route.isWritten_append_iff {text field : List Char} (hfield : ',' ∉ field) {route : Route} :
    Route.IsWritten (text ++ ',' :: field) route ↔ RoutePair.IsWritten text route.pair ∧
      Numeral.Denotes (trimBlanks field) route.nextHop.toNat := by
  rw [Route.IsWritten, List.splitOn_append_cons_self, List.splitOn_eq_singleton hfield,
    List.map_append, List.map_singleton]
  constructor
  · rintro ⟨a, b, c, hfields, ha, hb, hc⟩
    change _ ++ [_] = [a, b] ++ [c] at hfields
    obtain ⟨hpair, hlast⟩ := List.append_inj' hfields rfl
    obtain ⟨first, rest, hsplit, rfl, hrest⟩ := List.map_eq_cons_iff.mp hpair
    obtain ⟨second, others, rfl, rfl, hothers⟩ := List.map_eq_cons_iff.mp hrest
    obtain rfl := List.map_eq_nil_iff.mp hothers
    rw [(List.cons.inj hlast).1]
    exact ⟨⟨first, second, hsplit, ha, hb⟩, hc⟩
  · rintro ⟨⟨a, b, hsplit, ha, hb⟩, hc⟩
    exact ⟨_, _, _, by rw [hsplit]; rfl, ha, hb, hc⟩

namespace RoutePair

/-- **A pair is written like the beginning of a route.** A text without quotes and line ends is read
as a pair if and only if it is read as the route of this pair once a next hop of zero is put after
it. The numbers of a pair with a comma between them are read back, whatever blanks are around them.

**Proof sketch.** Without line ends the text is a single row (`Csv.rows_of_line`), so both sides are
about its fields. The row has three of them if the text has two (`Route.isWritten_append_iff`). That
the text is cut at its first comma only makes no difference, since there is none in a number
(`Numeral.Denotes.comma_notMem`). -/
theorem ofText_agrees (path : Path) :
    (∀ text : String, '"' ∉ text.toList → '\r' ∉ text.toList → '\n' ∉ text.toList →
      text.toList.head? ≠ some '\uFEFF' → ∀ a b : NodeId, ofText text.toList = .ok ⟨a, b⟩ ↔
        Snapshot.parse path (text ++ ",0").toUTF8 = .ok [⟨a, b, 0⟩]) ∧
    ∀ (a b : NodeId) (beforeA afterA beforeB afterB : List Char),
      (∀ c ∈ beforeA ++ afterA ++ beforeB ++ afterB, isBlank c = true) →
      ofText (beforeA ++ Numeral.digits a.toNat ++ afterA ++ ',' ::
        (beforeB ++ Numeral.digits b.toNat ++ afterB)) = .ok ⟨a, b⟩ := by
  constructor
  · intro text hquote hreturn hfeed hmark a b
    have hchars : (text ++ ",0").toList = text.toList ++ [',', '0'] := String.toList_append
    have hquote' : '"' ∉ (text ++ ",0").toList := by
      rw [hchars, List.mem_append]
      exact fun hmem => hmem.elim hquote (by decide)
    have hmark' : (text ++ ",0").toList.head? ≠ some '\uFEFF' := by
      rw [hchars]
      cases hlist : text.toList with
      | nil => decide
      | cons c rest => rwa [hlist] at hmark
    have hline : ∀ c ∈ text.toList ++ [',', '0'], Csv.isLineEnd c = false := by
      intro c hc
      rw [Csv.isLineEnd, Bool.or_eq_false_iff, beq_eq_false_iff_ne, beq_eq_false_iff_ne]
      rw [List.mem_append] at hc
      constructor <;> rintro rfl
      · exact hc.elim hreturn (by decide)
      · exact hc.elim hfeed (by decide)
    have hzero : Numeral.Denotes (trimBlanks ['0']) (0 : NodeId).toNat :=
      Route.denotes_trimBlanks 0 (List.forall_mem_nil _) (List.forall_mem_nil _)
    rw [Snapshot.parse_toUTF8_eq_ok_iff hquote' hmark', hchars, Csv.rows_of_line hline,
      if_neg (by simp), List.forall₂_cons, and_iff_left List.Forall₂.nil,
      Route.isWritten_append_iff (by decide), and_iff_left hzero, ofText_eq_ok_iff, Route.pair]
  · intro a b beforeA afterA beforeB afterB hblank
    simp only [List.mem_append, or_imp, forall_and] at hblank
    obtain ⟨⟨⟨hbeforeA, hafterA⟩, hbeforeB⟩, hafterB⟩ := hblank
    have ha := Route.denotes_trimBlanks a.toNat hbeforeA hafterA
    have hb := Route.denotes_trimBlanks b.toNat hbeforeB hafterB
    exact (ofText_append_comma_eq_ok_iff ha.comma_notMem _).mpr
      ⟨readPart_eq_ok_iff.mpr ha, readPart_eq_ok_iff.mpr hb⟩

/-- A pair with a sign, zeros in front, and blanks that are no spaces. -/
def paddedText : String := "\t+007,\u205f4294967295 "

/-- It is read as a pair and as the beginning of a route, and its numbers may even be on lines of
their own. -/
theorem ofText_agrees_padded :
    '"' ∉ paddedText.toList ∧ '\r' ∉ paddedText.toList ∧ '\n' ∉ paddedText.toList ∧
    paddedText.toList.head? ≠ some '\uFEFF' ∧
    ofText paddedText.toList = .ok ⟨7, 4294967295⟩ ∧
    Snapshot.parse ⟨"f"⟩ (paddedText ++ ",0").toUTF8 = .ok [⟨7, 4294967295, 0⟩] ∧
    isBlank '\n' = true ∧ ofText "7,\n4294967295\n".toList = .ok ⟨7, 4294967295⟩ := by
  obtain ⟨hagrees, hpadded⟩ := ofText_agrees ⟨"f"⟩
  have hread : ofText paddedText.toList = .ok ⟨7, 4294967295⟩ := by decide
  have hroute := (hagrees paddedText (by decide) (by decide) (by decide) (by decide) _ _).mp hread
  exact ⟨by decide, by decide, by decide, by decide, hread, hroute, by decide,
    hpadded 7 4294967295 [] [] ['\n'] ['\n'] (List.all_eq_true.mp (by decide))⟩

end RoutePair

end Constellation
