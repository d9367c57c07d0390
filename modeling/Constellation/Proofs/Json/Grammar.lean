import Constellation.Proofs.Json.Tokens
set_option autoImplicit false

/-!
# The grammar of JSON texts

What a JSON text is, said by rules that know nothing of a reader: where gaps may stand, and how
lists and records are put together. The reader gets through every such text up to its end.

## Main definitions

* `Json.Part` — what a piece of a text can be: a value, a value with gaps around it, items, members.
* `Json.Spells` — a text spells a part.
* `Json.Part.IsRead` — a part is read from a text, whatever follows.

## Main results

* `Json.Spells.isComplete` — no text of the grammar says anything damaged.
* `Json.Spells.isRead` — what a text spells is read from it.
* `Json.Document.ofText_of_spells` — the whole text of a value says just that value.

## Design

There is one relation for values, items and members together, so that proofs about texts go by a
single induction with one case per rule. A value is read exactly up to its end. With gaps around it,
what remains is a gap more than what follows, and every caller of the reader passes over gaps. The
reader needs fuel for each level and each item, and twice the characters of a text are enough,
because a separator stands between two items and brackets around them.
-/

namespace Constellation

namespace Json

variable {text rest gap : List Char}

/-! ## Gaps -/

/-- What may stand between two tokens. -/
def IsSpacing (gap : List Char) : Prop := ∀ c ∈ gap, isGap c = true

/-- No character at all is a gap. -/
lemma isSpacing_nil : IsSpacing [] := by simp [IsSpacing]

/-- A gap in front of a token is passed over. -/
lemma IsSpacing.skipGap_append (h : IsSpacing gap) (text : List Char) :
    skipGap (gap ++ text) = skipGap text :=
  List.dropWhile_append_of_pos h

/-- A gap in front of a value is passed over. -/
lemma IsSpacing.readValue_append (h : IsSpacing gap) (fuel : ℕ) (text : List Char) :
    readValue fuel (gap ++ text) = readValue fuel text := by
  cases fuel with
  | zero => rfl
  | succ fuel => rw [readValue, readValue, h.skipGap_append]

/-- A gap does not go on with a number. -/
lemma IsSpacing.stops_append (h : IsSpacing gap) (hrest : Stops rest) : Stops (gap ++ rest) := by
  cases gap with
  | nil => exact hrest
  | cons c gap =>
    have hc : isGap c = true := h c List.mem_cons_self
    simp only [isGap, Bool.or_eq_true, decide_eq_true_eq] at hc
    rcases hc with ((rfl | rfl) | rfl) | rfl <;> exact stops_cons (by decide)

/-- A token is found where it stands. -/
lemma skipGap_cons {c : Char} (h : isGap c = false) : skipGap (c :: rest) = c :: rest := by
  simp [skipGap, h]

/-- A number starts with its sign or a digit, which is neither a gap nor the mark of another
value. -/
lemma IsNumeral.exists_cons (h : IsNumeral text) : ∃ c tail, text = c :: tail ∧ isGap c = false ∧
    ∀ d : Char, d ≠ '-' → d.isDigit = false → c ≠ d := by
  obtain ⟨c, tail, rfl, hc⟩ := Number.exists_cons_of_read h.read
  have hother : ∀ d : Char, d ≠ '-' → d.isDigit = false → c ≠ d := by
    rintro d hminus hdigit rfl
    simp [hminus, hdigit] at hc
  refine ⟨c, tail, rfl, ?_, hother⟩
  simp [isGap, hother ' ', hother '\n', hother '\t', hother '\r']

/-! ## Values, items and members -/

/-- What a piece of a text can be. -/
inductive Part
  /-- A value. -/
  | value (r : Reading)
  /-- A value with gaps around it. -/
  | slot (r : Reading)
  /-- The items of a list that is not empty, with the commas between them. -/
  | items (rs : List Reading)
  /-- The members of a record that is not empty, with the commas between them. -/
  | members (ms : List (Reading × Reading))

/-- A text spells a part. -/
inductive Spells : List Char → Part → Prop
  | null : Spells ['n', 'u', 'l', 'l'] (.value .null)
  | yes : Spells ['t', 'r', 'u', 'e'] (.value (.boolean true))
  | no : Spells ['f', 'a', 'l', 's', 'e'] (.value (.boolean false))
  | number {text : List Char} (h : IsNumeral text) :
    Spells text (.value (.number (Number.valueOf text)))
  | text {parts : List (List Char)} {units : List Unit16} (h : List.Forall₂ IsUnit parts units) :
    Spells ('"' :: (parts.flatten ++ ['"'])) (.value (.text ((joinUnits units).map String.ofList)))
  | emptyList {gap : List Char} (h : IsSpacing gap) :
    Spells ('[' :: (gap ++ [']'])) (.value (.list [] true))
  | list {text : List Char} {rs : List Reading} (h : Spells text (.items rs)) :
    Spells ('[' :: (text ++ [']'])) (.value (.list rs true))
  | emptyRecord {gap : List Char} (h : IsSpacing gap) :
    Spells ('{' :: (gap ++ ['}'])) (.value (.record [] true))
  | record {text : List Char} {ms : List (Reading × Reading)} (h : Spells text (.members ms)) :
    Spells ('{' :: (text ++ ['}'])) (.value (.record ms true))
  | slot {before text after : List Char} {r : Reading} (hbefore : IsSpacing before)
    (h : Spells text (.value r)) (hafter : IsSpacing after) :
    Spells (before ++ text ++ after) (.slot r)
  | item {text : List Char} {r : Reading} (h : Spells text (.slot r)) : Spells text (.items [r])
  | items {text more : List Char} {r : Reading} {rs : List Reading} (h : Spells text (.slot r))
    (hmore : Spells more (.items rs)) : Spells (text ++ ',' :: more) (.items (r :: rs))
  | member {key text : List Char} {name : Option String} {r : Reading}
    (hkey : Spells key (.slot (.text name))) (h : Spells text (.slot r)) :
    Spells (key ++ ':' :: text) (.members [(.text name, r)])
  | members {key text more : List Char} {name : Option String} {r : Reading}
    {ms : List (Reading × Reading)} (hkey : Spells key (.slot (.text name)))
    (h : Spells text (.slot r)) (hmore : Spells more (.members ms)) :
    Spells (key ++ ':' :: (text ++ ',' :: more)) (.members ((.text name, r) :: ms))

/-- A value needs no gaps around it. -/
lemma Spells.bare {r : Reading} (h : Spells text (.value r)) : Spells text (.slot r) := by
  have := Spells.slot isSpacing_nil h isSpacing_nil
  rwa [List.nil_append, List.append_nil] at this

/-- What is undamaged in a part. -/
def Part.IsComplete : Part → Prop
  | value r => r.isComplete = true
  | slot r => r.isComplete = true
  | items rs => Reading.allComplete rs = true
  | members ms => Reading.allMembersComplete ms = true

/-- A part is read from its text, with whatever follows that does not go on with a number. Behind
the items of a list and the members of a record stands their closing bracket. -/
def Part.IsRead (text : List Char) : Part → Prop
  | value r => ∀ (fuel : ℕ) (rest : List Char), 2 * text.length ≤ fuel → Stops rest →
    readValue fuel (text ++ rest) = (r, rest)
  | slot r => ∀ (fuel : ℕ) (rest : List Char), 2 * text.length ≤ fuel → Stops rest →
    ∃ gap, IsSpacing gap ∧ readValue fuel (text ++ rest) = (r, gap ++ rest)
  | items rs => ∀ (fuel : ℕ) (rest : List Char), 2 * text.length < fuel →
    readItems fuel (text ++ ']' :: rest) = (rs, true, rest)
  | members ms => ∀ (fuel : ℕ) (rest : List Char), 2 * text.length < fuel →
    readMembers fuel (text ++ '}' :: rest) = (ms, true, rest)

/-- **No text says anything damaged.** -/
lemma Spells.isComplete {part : Part} (h : Spells text part) : part.IsComplete := by
  induction h with
  | null | yes | no | number | text | emptyList | emptyRecord => rfl
  | list _ ih | record _ ih => exact Bool.and_eq_true_iff.mpr ⟨ih, rfl⟩
  | slot _ _ _ ih => exact ih
  | item _ ih => exact Bool.and_eq_true_iff.mpr ⟨ih, rfl⟩
  | items _ _ ih ihmore => exact Bool.and_eq_true_iff.mpr ⟨ih, ihmore⟩
  | member _ _ _ ih => exact Bool.and_eq_true_iff.mpr ⟨ih, rfl⟩
  | members _ _ _ _ ih ihmore => exact Bool.and_eq_true_iff.mpr ⟨ih, ihmore⟩

/-- Every part starts with a character that is neither a gap nor a closing bracket. -/
lemma Spells.skipGap_append {part : Part} (h : Spells text part) (rest : List Char) :
    ∃ c tail, skipGap (text ++ rest) = c :: tail ∧ c ≠ ']' ∧ c ≠ '}' := by
  induction h generalizing rest with
  | null | yes | no => exact ⟨_, _, skipGap_cons (by decide), by decide, by decide⟩
  | text | emptyList | list | emptyRecord | record =>
    exact ⟨_, _, skipGap_cons (by decide), by decide, by decide⟩
  | number h =>
    obtain ⟨c, tail, rfl, hgap, hother⟩ := h.exists_cons
    exact ⟨c, _, skipGap_cons hgap, hother ']' (by decide) (by decide),
      hother '}' (by decide) (by decide)⟩
  | @slot before text after r hbefore _ _ ih =>
    rw [List.append_assoc, List.append_assoc, hbefore.skipGap_append]
    exact ih _
  | item _ ih => exact ih rest
  | items _ _ ih _ =>
    rw [List.append_assoc]
    exact ih _
  | member _ _ ih _ =>
    rw [List.append_assoc]
    exact ih _
  | members _ _ _ ih _ _ =>
    rw [List.append_assoc]
    exact ih _

/-! ## What each rule does for the reader -/

namespace Part

variable {before after more key : List Char} {name : Option String} {r : Reading}
  {rs : List Reading} {ms : List (Reading × Reading)}

/-- A number is read as a value. -/
lemma isRead_number (h : IsNumeral text) : IsRead text (value (.number (Number.valueOf text))) := by
  intro fuel rest hfuel hstop
  have hread := Number.read_append hstop h.read
  obtain ⟨c, tail, rfl, hgap, hother⟩ := h.exists_cons
  rw [List.length_cons] at hfuel
  obtain ⟨fuel, rfl⟩ := Nat.exists_eq_succ_of_ne_zero (show fuel ≠ 0 by omega)
  rw [List.cons_append] at hread ⊢
  rw [readValue, skipGap_cons hgap]
  split
  · next heq => cases heq
  · next heq => exact absurd (List.cons.inj heq).1 (hother '"' (by decide) (by decide))
  · next heq => exact absurd (List.cons.inj heq).1 (hother '[' (by decide) (by decide))
  · next heq => exact absurd (List.cons.inj heq).1 (hother '{' (by decide) (by decide))
  · next heq =>
    obtain ⟨rfl, rfl⟩ := List.cons.inj heq
    rw [if_neg (hother 'n' (by decide) (by decide)), if_neg (hother 't' (by decide) (by decide)),
      if_neg (hother 'f' (by decide) (by decide)), hread]

/-- A string is read as a value. -/
lemma isRead_text {parts : List (List Char)} {units : List Unit16}
    (h : List.Forall₂ IsUnit parts units) : IsRead ('"' :: (parts.flatten ++ ['"']))
      (value (.text ((joinUnits units).map String.ofList))) := by
  intro fuel rest hfuel _
  rw [List.length_cons] at hfuel
  obtain ⟨fuel, rfl⟩ := Nat.exists_eq_succ_of_ne_zero (show fuel ≠ 0 by omega)
  rw [List.cons_append, List.append_assoc, List.singleton_append, readValue,
    skipGap_cons (by decide)]
  simp only [readText, readUnits_flatten h]

/-- A list without items is read. -/
lemma isRead_emptyList (h : IsSpacing gap) :
    IsRead ('[' :: (gap ++ [']'])) (value (.list [] true)) := by
  intro fuel rest hfuel _
  rw [List.length_cons] at hfuel
  obtain ⟨fuel, rfl⟩ := Nat.exists_eq_succ_of_ne_zero (show fuel ≠ 0 by omega)
  simp only [List.cons_append, List.append_assoc, List.nil_append, readValue,
    skipGap_cons (show isGap '[' = false by decide), h.skipGap_append,
    skipGap_cons (show isGap ']' = false by decide)]

/-- A record without members is read. -/
lemma isRead_emptyRecord (h : IsSpacing gap) :
    IsRead ('{' :: (gap ++ ['}'])) (value (.record [] true)) := by
  intro fuel rest hfuel _
  rw [List.length_cons] at hfuel
  obtain ⟨fuel, rfl⟩ := Nat.exists_eq_succ_of_ne_zero (show fuel ≠ 0 by omega)
  simp only [List.cons_append, List.append_assoc, List.nil_append, readValue,
    skipGap_cons (show isGap '{' = false by decide), h.skipGap_append,
    skipGap_cons (show isGap '}' = false by decide)]

/-- A list is read when its items are. -/
lemma isRead_list (h : Spells text (items rs)) (hread : IsRead text (items rs)) :
    IsRead ('[' :: (text ++ [']'])) (value (.list rs true)) := by
  intro fuel rest hfuel _
  rw [List.length_cons, List.length_append] at hfuel
  obtain ⟨fuel, rfl⟩ := Nat.exists_eq_succ_of_ne_zero (show fuel ≠ 0 by omega)
  obtain ⟨c, tail, hstart, hbracket, -⟩ := h.skipGap_append (']' :: rest)
  simp only [List.cons_append, List.append_assoc, List.nil_append, readValue,
    skipGap_cons (show isGap '[' = false by decide)]
  split
  · next heq => exact absurd (List.cons.inj (hstart.symm.trans heq)).1 hbracket
  · rw [hread fuel rest (by omega)]

/-- A record is read when its members are. -/
lemma isRead_record (h : Spells text (members ms)) (hread : IsRead text (members ms)) :
    IsRead ('{' :: (text ++ ['}'])) (value (.record ms true)) := by
  intro fuel rest hfuel _
  rw [List.length_cons, List.length_append] at hfuel
  obtain ⟨fuel, rfl⟩ := Nat.exists_eq_succ_of_ne_zero (show fuel ≠ 0 by omega)
  obtain ⟨c, tail, hstart, -, hbrace⟩ := h.skipGap_append ('}' :: rest)
  simp only [List.cons_append, List.append_assoc, List.nil_append, readValue,
    skipGap_cons (show isGap '{' = false by decide)]
  split
  · next heq => exact absurd (List.cons.inj (hstart.symm.trans heq)).1 hbrace
  · rw [hread fuel rest (by omega)]

/-- Gaps around a value do not matter. -/
lemma isRead_slot (hbefore : IsSpacing before) (h : IsRead text (value r))
    (hafter : IsSpacing after) : IsRead (before ++ text ++ after) (slot r) := by
  intro fuel rest hfuel hstop
  simp only [List.length_append] at hfuel
  refine ⟨after, hafter, ?_⟩
  rw [List.append_assoc, List.append_assoc, hbefore.readValue_append]
  exact h fuel _ (by omega) (hafter.stops_append hstop)

/-- The last item of a list is read. -/
lemma isRead_item (h : IsRead text (slot r)) : IsRead text (items [r]) := by
  intro fuel rest hfuel
  obtain ⟨fuel, rfl⟩ := Nat.exists_eq_succ_of_ne_zero (show fuel ≠ 0 by omega)
  obtain ⟨gap, hgap, hread⟩ := h fuel (']' :: rest) (by omega) (stops_cons (by decide))
  simp only [readItems, hread, hgap.skipGap_append, skipGap_cons (show isGap ']' = false by decide)]

/-- One more item of a list is read. -/
lemma isRead_items (h : IsRead text (slot r)) (hmore : IsRead more (items rs)) :
    IsRead (text ++ ',' :: more) (items (r :: rs)) := by
  intro fuel rest hfuel
  rw [List.length_append, List.length_cons] at hfuel
  obtain ⟨fuel, rfl⟩ := Nat.exists_eq_succ_of_ne_zero (show fuel ≠ 0 by omega)
  obtain ⟨gap, hgap, hread⟩ := h fuel (',' :: (more ++ ']' :: rest)) (by omega)
    (stops_cons (by decide))
  simp only [List.append_assoc, List.cons_append, readItems, hread, hgap.skipGap_append,
    skipGap_cons (show isGap ',' = false by decide), hmore fuel rest (by omega)]

/-- The last member of a record is read. -/
lemma isRead_member (hkey : IsRead key (slot (.text name))) (h : IsRead text (slot r)) :
    IsRead (key ++ ':' :: text) (members [(.text name, r)]) := by
  intro fuel rest hfuel
  rw [List.length_append, List.length_cons] at hfuel
  obtain ⟨fuel, rfl⟩ := Nat.exists_eq_succ_of_ne_zero (show fuel ≠ 0 by omega)
  obtain ⟨gap, hgap, hname⟩ := hkey fuel (':' :: (text ++ '}' :: rest)) (by omega)
    (stops_cons (by decide))
  obtain ⟨gap', hgap', hread⟩ := h fuel ('}' :: rest) (by omega) (stops_cons (by decide))
  simp only [List.append_assoc, List.cons_append, readMembers, hname, hgap.skipGap_append,
    skipGap_cons (show isGap ':' = false by decide), hread, hgap'.skipGap_append,
    skipGap_cons (show isGap '}' = false by decide)]

/-- One more member of a record is read. -/
lemma isRead_members (hkey : IsRead key (slot (.text name))) (h : IsRead text (slot r))
    (hmore : IsRead more (members ms)) :
    IsRead (key ++ ':' :: (text ++ ',' :: more)) (members ((.text name, r) :: ms)) := by
  intro fuel rest hfuel
  simp only [List.length_append, List.length_cons] at hfuel
  obtain ⟨fuel, rfl⟩ := Nat.exists_eq_succ_of_ne_zero (show fuel ≠ 0 by omega)
  obtain ⟨gap, hgap, hname⟩ := hkey fuel (':' :: (text ++ ',' :: (more ++ '}' :: rest)))
    (by omega) (stops_cons (by decide))
  obtain ⟨gap', hgap', hread⟩ := h fuel (',' :: (more ++ '}' :: rest)) (by omega)
    (stops_cons (by decide))
  simp only [List.append_assoc, List.cons_append, readMembers, hname, hgap.skipGap_append,
    skipGap_cons (show isGap ':' = false by decide), hread, hgap'.skipGap_append,
    skipGap_cons (show isGap ',' = false by decide), hmore fuel rest (by omega)]

end Part

/-- **What a text spells is read from it**, whatever follows. -/
lemma Spells.isRead {part : Part} (h : Spells text part) : part.IsRead text := by
  induction h with
  | null | yes | no =>
    intro fuel rest hfuel _
    obtain ⟨fuel, rfl⟩ := Nat.exists_eq_succ_of_ne_zero (show fuel ≠ 0 by
      simp only [List.length_cons] at hfuel
      omega)
    rfl
  | number h => exact Part.isRead_number h
  | text h => exact Part.isRead_text h
  | emptyList h => exact Part.isRead_emptyList h
  | list h ih => exact Part.isRead_list h ih
  | emptyRecord h => exact Part.isRead_emptyRecord h
  | record h ih => exact Part.isRead_record h ih
  | slot hbefore _ hafter ih => exact Part.isRead_slot hbefore ih hafter
  | item _ ih => exact Part.isRead_item ih
  | items _ _ ih ihmore => exact Part.isRead_items ih ihmore
  | member _ _ ihkey ih => exact Part.isRead_member ihkey ih
  | members _ _ _ ihkey ih ihmore => exact Part.isRead_members ihkey ih ihmore

/-- **The whole text of a value says just that value**, with any gaps around it. -/
lemma Document.ofText_of_spells {r : Reading} (h : Spells text (.slot r)) :
    Document.ofText text = ⟨r, true⟩ := by
  obtain ⟨gap, hgap, hread⟩ := h.isRead (2 * text.length + 2) [] (by omega) stops_nil
  rw [List.append_nil] at hread
  simp only [Document.ofText, hread, hgap.skipGap_append]
  rfl

end Json

end Constellation
