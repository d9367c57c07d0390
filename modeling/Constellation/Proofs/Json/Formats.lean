import Mathlib.Data.List.Forall2
import Constellation.Json.Format
import Constellation.Proofs.Json.Documents
set_option autoImplicit false

/-!
# Formats that keep values

## Main definitions

* `Json.Format.Keeps` — what a format writes for a value can be stored and stands for that value.
* `Json.Field.Restores` — a field can be stored, and reading it back copies it.

## Main results

* `Json.Format.Keeps.decode_encode` — a value that is kept is decoded from its text.
* `Json.Format.keeps_list` — a list is kept when its items are.
* `Json.RecordFormat.keeps` — a structure is kept when its fields are.

## Design

A structure is read field by field into a blank one. Each field contributes a function that copies
its part of the stored structure, and that the copies together give the whole structure holds by
definition for every structure whose fields are all listed.
-/

namespace Constellation

namespace Json

/-! ## Formats -/

namespace Format

variable {α : Type} {format : Format α} {a : α}

/-- A format keeps a value: the value can be stored, and what is stored stands for it. -/
structure Keeps (format : Format α) (a : α) : Prop where
  /-- All numbers of the stored form survive. -/
  storable : (format.write a).Storable
  /-- The stored form stands for the value. -/
  restored : format.read (format.write a).reading = .ok a

/-- What a text spells is decoded as the format reads it. -/
lemma decode_of_spells {text : List Char} {r : Reading} (h : Spells text (.slot r)) :
    format.decode text = format.read r := by
  simp only [decode, Document.ofText_of_spells h]
  cases format.read r <;> rfl

/-- **What a format keeps is decoded from its text.** -/
lemma Keeps.decode_encode (h : format.Keeps a) :
    format.decode (format.encode a).toList = .ok a := by
  rw [encode, decode_of_spells h.storable.spells_pretty, h.restored]

/-- Truth values are kept. -/
lemma keeps_boolean (b : Bool) : boolean.Keeps b := ⟨.boolean b, rfl⟩

/-- Texts are kept, whatever characters they have. -/
lemma keeps_text (s : String) : text.Keeps s := ⟨.text s, rfl⟩

/-- Doubles are kept if they are read back. -/
lemma keeps_real {x : Float} (h : ReadsBack x) : real.Keeps x := ⟨.real h, rfl⟩

/-- Numbers of 32 bits are kept. -/
lemma keeps_word (n : UInt32) : word.Keeps n := by
  have hlt : n.toNat < Numeral.wordBound := n.toNat_lt
  refine ⟨.natural (hlt.trans (by decide)), ?_⟩
  simp [word, reading, readNatural, hlt, Except.map]

/-- Numbers of 64 bits are kept. -/
lemma keeps_long (n : UInt64) : long.Keeps n := by
  have hlt : n.toNat < Numeral.longBound := n.toNat_lt
  refine ⟨.natural hlt, ?_⟩
  simp [long, reading, readNatural, hlt, Except.map]

/-- A value that is found by its name is kept by name. -/
lemma keeps_variant {name : α → String} {all : List α}
    (h : (all.map fun a => (name a, a)).lookup (name a) = some a) : (variant name all).Keeps a := by
  refine ⟨.text _, ?_⟩
  simp only [variant, reading, readVariant, lookUp, h]

/-- **A list is kept** when its items are. -/
lemma keeps_list {as : List α} (h : ∀ a ∈ as, format.Keeps a) : (list format).Keeps as := by
  have hitems : readItems format.read (readings (as.map format.write)) = .ok as := by
    induction as with
    | nil => rfl
    | cons a as ih =>
      simp only [List.map_cons, readings, readItems, (h a List.mem_cons_self).restored,
        ih fun b hb => h b (List.mem_cons_of_mem _ hb)]
      rfl
  refine ⟨.list ?_, ?_⟩
  · intro item hitem
    obtain ⟨a, ha, rfl⟩ := List.mem_map.mp hitem
    exact (h a ha).storable
  · simp only [list, reading, hitems]
    rfl

end Format

/-! ## Structures -/

variable {α β : Type} {a : α}

namespace Field

/-- A field restores its part of a structure: that part can be stored, and reading it back copies it
into any other structure. -/
structure Restores (field : Field α) (a : α) (copy : α → α) : Prop where
  /-- All numbers of the stored form survive. -/
  storable : (field.write a).Storable
  /-- The stored form is copied. -/
  copied : ∀ b, field.assign (field.write a).reading b = .ok (copy b)

/-- A field whose format keeps its value restores it. -/
lemma restores_of {name : String} {format : Format β} {get : α → β} {set : β → α → α}
    (h : format.Keeps (get a)) :
    (Field.of name format get set).Restores a fun b => set (get a) b := by
  refine ⟨h.storable, fun b => ?_⟩
  simp only [Field.of, h.restored]
  rfl

/-- Whether a field may be left out does not matter when it is given. -/
lemma Restores.orBlank {field : Field α} {copy : α → α} (h : field.Restores a copy) :
    field.orBlank.Restores a copy := ⟨h.storable, h.copied⟩

end Field

namespace RecordFormat

variable {format : RecordFormat α}

/-- A field is found by its name. -/
lemma find?_name {fields : List (Field α)} (hnodup : (fields.map (·.name)).Nodup) {field : Field α}
    (h : field ∈ fields) : fields.find? (fun f => f.name == field.name) = some field := by
  induction fields with
  | nil => cases h
  | cons first fields ih =>
    rw [List.map_cons, List.nodup_cons] at hnodup
    rcases List.mem_cons.mp h with rfl | h
    · rw [List.find?_cons_of_pos (by simp)]
    · have hne : first.name ≠ field.name := fun heq =>
        hnodup.1 (heq ▸ List.mem_map_of_mem h)
      rw [List.find?_cons_of_neg (by simpa using hne), ih hnodup.2 h]

/-- **The members of a stored structure are copied one after the other.** Here `done` are the fields
that have been read. -/
lemma readMembers_write (hnodup : (format.fields.map (·.name)).Nodup) {fields : List (Field α)}
    {copies : List (α → α)}
    (hfields : List.Forall₂ (fun field copy => field.Restores a copy) fields copies) :
    ∀ (done : List (Field α)) (b : α), format.fields = done ++ fields →
      format.readMembers (memberReadings (fields.map fun field => (field.name, field.write a)))
          (done.map (·.name)).reverse b =
        .ok ((format.fields.map (·.name)).reverse, copies.foldl (fun b copy => copy b) b) := by
  induction hfields with
  | nil =>
    intro done b hdone
    rw [List.append_nil] at hdone
    rw [hdone]
    rfl
  | @cons field copy fields copies hfield _ ih =>
    intro done b hdone
    have hmem : field ∈ format.fields := by
      rw [hdone]
      exact List.mem_append_right _ List.mem_cons_self
    have hnew : field.name ∉ (done.map (·.name)).reverse := by
      rw [hdone, List.map_append, List.map_cons] at hnodup
      rw [List.mem_reverse]
      exact fun h => (List.nodup_append.mp hnodup).2.2 _ h _ List.mem_cons_self rfl
    have hrest := ih (done ++ [field]) (copy b) (by rw [hdone, List.append_assoc]; rfl)
    rw [List.map_append, List.reverse_append] at hrest
    simp only [List.map_cons, memberReadings, readMembers, find?_name hnodup hmem]
    rw [if_neg (by simpa using hnew), hfield.copied b]
    exact hrest

/-- Nothing is missing once all fields have been given that have to be. -/
lemma missing?_eq_none {seen : List String}
    (h : ∀ field ∈ format.fields, field.optional = false → field.name ∈ seen) :
    format.missing? seen = none := by
  rw [missing?, Option.map_eq_none_iff, List.find?_eq_none]
  intro field hfield
  have := h field hfield
  cases hoptional : field.optional <;> simp_all

/-- **A structure is kept** when each of its fields restores its part and all parts together are the
structure. -/
lemma keeps {copies : List (α → α)} (hnodup : (format.fields.map (·.name)).Nodup)
    (hfields : List.Forall₂ (fun field copy => field.Restores a copy) format.fields copies)
    (hwhole : copies.foldl (fun b copy => copy b) format.blank = a) : format.toFormat.Keeps a := by
  have hstorable : ∀ field ∈ format.fields, (field.write a).Storable :=
    ((List.forall₂_and_left _ _).mp (hfields.imp fun _ _ h => ⟨h.storable, h⟩)).1
  refine ⟨.record ?_, ?_⟩
  · intro member hmember
    obtain ⟨field, hfield, rfl⟩ := List.mem_map.mp hmember
    exact hstorable field hfield
  · have hmembers : format.readMembers
        (memberReadings (format.fields.map fun field => (field.name, field.write a))) []
        format.blank = .ok ((format.fields.map (·.name)).reverse, a) := by
      have hread := readMembers_write hnodup hfields [] format.blank rfl
      rw [hwhole] at hread
      exact hread
    have hmissing : format.missing? (format.fields.map (·.name)).reverse = none :=
      missing?_eq_none fun field hfield _ => List.mem_reverse.mpr (List.mem_map_of_mem hfield)
    simp only [toFormat, write, reading, read, hmembers, bind, Except.bind, Bool.not_true,
      Bool.false_eq_true, if_false, hmissing]
    rfl

end RecordFormat

end Json

end Constellation
