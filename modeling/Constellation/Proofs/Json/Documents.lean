import Constellation.Proofs.Json.Grammar
set_option autoImplicit false

/-!
# Reading back stored values

## Main definitions

* `Json.reading` — what the text of a value says.
* `Json.Storable` — all numbers of a value survive being written and read.

## Main results

* `Json.Storable.spells` — the text of a storable value is one of the grammar, and spells it.
* `Json.Storable.spells_pretty` — the same for its whole text.

## Design

The writer is compared with the grammar and not with the reader: the line breaks that it puts
between tokens are gaps, its escapes are units of strings, and its digits are numbers. That the
reader gets through the result is then a fact about the grammar.
-/

namespace Constellation

namespace Json

mutual

/-- What the text of a value says. -/
def reading : Json → Reading
  | null => .null
  | boolean b => .boolean b
  | natural n => .number (.natural n)
  | real x => .number (.real x)
  | text s => .text (some s)
  | list items => .list (readings items) true
  | record members => .record (memberReadings members) true

/-- What the texts of items say. -/
def readings : List Json → List Reading
  | [] => []
  | item :: items => reading item :: readings items

/-- What the texts of members say. -/
def memberReadings : List (String × Json) → List (Reading × Reading)
  | [] => []
  | (name, value) :: members => (.text (some name), reading value) :: memberReadings members

end

/-- All numbers of a value survive: integers have 64 bits, and doubles are read back. -/
inductive Storable : Json → Prop
  | null : Storable null
  | boolean (b : Bool) : Storable (boolean b)
  | natural {n : ℕ} (h : n < Numeral.longBound) : Storable (natural n)
  | real {x : Float} (h : ReadsBack x) : Storable (real x)
  | text (s : String) : Storable (text s)
  | list {items : List Json} (h : ∀ item ∈ items, Storable item) : Storable (list items)
  | record {members : List (String × Json)} (h : ∀ member ∈ members, Storable member.2) :
    Storable (record members)

/-- The readings of items are those of the single items. -/
lemma readings_eq_map (items : List Json) : readings items = items.map reading := by
  induction items with
  | nil => rfl
  | cons item items ih => rw [readings, List.map_cons, ih]

/-- The readings of members are those of the single members. -/
lemma memberReadings_eq_map (members : List (String × Json)) :
    memberReadings members =
      members.map fun member => (.text (some member.1), reading member.2) := by
  induction members with
  | nil => rfl
  | cons member members ih => rw [memberReadings, List.map_cons, ih]

variable {v : Json} {depth : ℕ}

/-! ## Gaps and strings -/

/-- A line break is a gap. -/
lemma isSpacing_newline (depth : ℕ) : IsSpacing (newline depth) := by
  intro c hc
  rcases List.mem_cons.mp hc with rfl | hspace
  · decide
  · rw [(List.mem_replicate.mp hspace).2]
    decide

/-- **A quoted text spells that text.** -/
lemma spells_quote (s : String) : Spells (quote s.toList) (.value (.text (some s))) := by
  have hunits : List.Forall₂ IsUnit (s.toList.map escape) (s.toList.map .char) :=
    List.forall₂_map_left_iff.mpr <| List.forall₂_map_right_iff.mpr <|
      List.forall₂_same.mpr fun c _ => isUnit_escape c
  have := Spells.text hunits
  rwa [joinUnits_map_char, Option.map_some, String.ofList_toList, ← List.flatMap_def] at this

/-! ## Lists and records -/

/-- The items of a list that is not empty are spelled when each of them is. -/
lemma spells_writeItems (depth outer : ℕ) {items : List Json} :
    ∀ item : Json, (∀ v ∈ item :: items, Spells (v.write depth) (.value v.reading)) →
      Spells (newline depth ++ (item.write depth ++ (writeItems depth items ++ newline outer)))
        (.items (item.reading :: readings items)) := by
  induction items with
  | nil =>
    intro item h
    have := Spells.slot (isSpacing_newline depth) (h item List.mem_cons_self)
      (isSpacing_newline outer)
    rw [List.append_assoc] at this
    exact .item this
  | cons next items ih =>
    intro item h
    have hitem := Spells.slot (isSpacing_newline depth) (h item List.mem_cons_self) isSpacing_nil
    have := Spells.items hitem (ih next fun v hv => h v (List.mem_cons_of_mem _ hv))
    simpa only [writeItems, readings, List.append_assoc, List.cons_append, List.nil_append]
      using this

/-- The members of a record that is not empty are spelled when their values are. -/
lemma spells_writeMembers (depth outer : ℕ) {members : List (String × Json)} :
    ∀ (name : String) (value : Json),
      (∀ member ∈ (name, value) :: members,
        Spells (member.2.write depth) (.value member.2.reading)) →
      Spells (newline depth ++ (quote name.toList ++ (':' :: ' ' :: (value.write depth ++
          (writeMembers depth members ++ newline outer)))))
        (.members ((.text (some name), value.reading) :: memberReadings members)) := by
  have hspace : IsSpacing [' '] := List.forall_mem_singleton.mpr (by decide)
  induction members with
  | nil =>
    intro name value h
    have hkey := Spells.slot (isSpacing_newline depth) (spells_quote name) isSpacing_nil
    have hvalue := Spells.slot hspace (h (name, value) List.mem_cons_self)
      (isSpacing_newline outer)
    have := Spells.member hkey hvalue
    simpa only [writeMembers, memberReadings, List.append_assoc, List.cons_append,
      List.nil_append] using this
  | cons member members ih =>
    intro name value h
    obtain ⟨next, other⟩ := member
    have hkey := Spells.slot (isSpacing_newline depth) (spells_quote name) isSpacing_nil
    have hvalue := Spells.slot hspace (h (name, value) List.mem_cons_self) isSpacing_nil
    have := Spells.members hkey hvalue
      (ih next other fun v hv => h v (List.mem_cons_of_mem _ hv))
    simpa only [writeMembers, memberReadings, List.append_assoc, List.cons_append,
      List.nil_append] using this

/-! ## Values -/

/-- **The text of a value whose numbers survive spells that value.** -/
lemma Storable.spells (h : v.Storable) (depth : ℕ) :
    Spells (v.write depth) (.value v.reading) := by
  induction h generalizing depth with
  | null => exact .null
  | boolean b =>
    cases b with
    | true => exact .yes
    | false => exact .no
  | natural h =>
    have hread := Number.read_digits h
    have := Spells.number (isNumeral_iff.mpr ⟨_, hread⟩)
    rwa [Number.valueOf_of_read hread] at this
  | real h =>
    have := Spells.number (isNumeral_iff.mpr ⟨_, h⟩)
    rwa [Number.valueOf_of_read h] at this
  | text s => exact spells_quote s
  | @list items _ ih =>
    cases items with
    | nil => exact .emptyList isSpacing_nil
    | cons item items =>
      have := Spells.list (spells_writeItems (depth + 1) depth item fun v hv => ih v hv (depth + 1))
      simpa only [write, reading, readings, List.append_assoc, List.cons_append] using this
  | @record members _ ih =>
    cases members with
    | nil => exact .emptyRecord isSpacing_nil
    | cons member members =>
      obtain ⟨name, value⟩ := member
      have := Spells.record (spells_writeMembers (depth + 1) depth name value
        fun v hv => ih v hv (depth + 1))
      simpa only [write, reading, memberReadings, List.append_assoc, List.cons_append,
        List.nil_append] using this

/-- The whole text of a value whose numbers survive spells that value. -/
lemma Storable.spells_pretty (h : v.Storable) : Spells v.pretty.toList (.slot v.reading) := by
  rw [pretty, String.toList_ofList]
  exact (h.spells 0).bare

end Json

end Constellation
