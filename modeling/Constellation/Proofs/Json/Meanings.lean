import Mathlib.Data.Finset.Dedup
import Mathlib.Data.Finset.Lattice.Lemmas
import Constellation.Proofs.Json.Formats
set_option autoImplicit false

/-!
# Records in any order

A record may give its members in any order, may leave some of them out, and may have others that
nobody knows. What is read depends only on which members are given and on what they say.

## Main definitions

* `Json.Meaning` — what a reading has to say, such as a certain number or text.
* `Json.Gives` — members give the values of some fields, each once, among unknown members.
* `Json.Format.Admits` — a format reads a value from whatever means that value.
* `Json.RecordFormat.Follows` — what a structure looks like depends on the fields given so far.

## Main results

* `Json.RecordFormat.Follows.read` — members in any order are read as the fields that they give.
* `Json.RecordFormat.exists_error_of_twice` — a field that is given twice is a fault.
* `Json.RecordFormat.exists_error_of_assign` — so is a field that cannot be set to what is given.

## Design

What a value looks like in a text is said by its meaning and not by its format, which is what is to
be tested. Reading a record goes through its members from left to right, so the structure that has
been read is described as a function of the set of fields given so far: each member adds its field
to this set, and the set does not remember an order.
-/

namespace Constellation

namespace Json

/-- What a reading has to say. -/
abbrev Meaning := Reading → Prop

/-- Members give the fields `given`, each once, in any order and among unknown members. The key of
an unknown member is any other text, and its value may be anything. -/
inductive Gives (entries : List (String × Meaning)) :
    (given : Finset String) → List (Reading × Reading) → Prop
  | nil : Gives entries ∅ []
  | field {given : Finset String} {members : List (Reading × Reading)} {name : String}
    {meaning : Meaning} {value : Reading} (hentry : (name, meaning) ∈ entries)
    (hvalue : meaning value) (hnew : name ∉ given) (h : Gives entries given members) :
    Gives entries (insert name given) ((.text (some name), value) :: members)
  | other {given : Finset String} {members : List (Reading × Reading)} {key : String}
    {value : Reading} (hkey : key ∉ entries.map Prod.fst) (h : Gives entries given members) :
    Gives entries given ((.text (some key), value) :: members)

namespace Meaning

/-- A truth value. -/
def boolean (b : Bool) : Meaning := fun r => r = .boolean b

/-- A text, however its characters are escaped. -/
def text (s : String) : Meaning := fun r => r = .text (some s)

/-- A natural number. -/
def natural (n : ℕ) : Meaning := fun r => r = .number (.natural n)

/-- A number that is read as a double, such as the decimal that is printed for it. -/
def real (x : Float) : Meaning := fun r => Format.real.read r = .ok x

/-- A list of items. -/
def list {α : Type} (meaning : α → Meaning) (as : List α) : Meaning := fun r =>
  ∃ items, List.Forall₂ meaning as items ∧ r = .list items true

/-- A record of texts with certain keys, in any order. -/
def dictionary (entries : List (String × String)) : Meaning := fun r =>
  ∃ members : List (Reading × Reading),
    members.Perm (entries.map fun entry => (.text (some entry.1), .text (some entry.2))) ∧
      r = .record members true

/-- A record that gives at least the required fields, in any order and among unknown members. -/
def record (entries : List (String × Meaning)) (required : Finset String) : Meaning := fun r =>
  ∃ given members, Gives entries given members ∧ required ⊆ given ∧ r = .record members true

end Meaning

/-- Members with different names give their values in the order in which they stand. -/
lemma gives_of_nodup {γ : Type} {entries : List (String × Meaning)} {name : γ → String}
    {value : γ → Reading} {cs : List γ} (hnodup : (cs.map name).Nodup)
    (h : ∀ c ∈ cs, ∃ meaning, (name c, meaning) ∈ entries ∧ meaning (value c)) :
    Gives entries (cs.map name).toFinset (cs.map fun c => (.text (some (name c)), value c)) := by
  induction cs with
  | nil => exact .nil
  | cons c cs ih =>
    rw [List.map_cons, List.nodup_cons] at hnodup
    obtain ⟨meaning, hentry, hvalue⟩ := h c List.mem_cons_self
    rw [List.map_cons, List.map_cons, List.toFinset_cons]
    exact .field hentry hvalue (by simpa using hnodup.1)
      (ih hnodup.2 fun d hd => h d (List.mem_cons_of_mem _ hd))

/-! ## Formats -/

namespace Format

variable {α : Type} {format : Format α}

/-- A format reads a value from whatever means it. -/
def Admits (format : Format α) (meaning : Meaning) (a : α) : Prop :=
  ∀ r, meaning r → r.isComplete = true → format.read r = .ok a

/-- Truth values are admitted. -/
lemma admits_boolean (b : Bool) : boolean.Admits (.boolean b) b := by
  rintro _ rfl -
  rfl

/-- Texts are admitted. -/
lemma admits_text (s : String) : text.Admits (.text s) s := by
  rintro _ rfl -
  rfl

/-- Doubles are admitted. -/
lemma admits_real (x : Float) : real.Admits (.real x) x := fun _ h _ => h

/-- Numbers of 32 bits are admitted. -/
lemma admits_word (n : UInt32) : word.Admits (.natural n.toNat) n := by
  rintro _ rfl -
  exact (keeps_word n).restored

/-- Numbers of 64 bits are admitted. -/
lemma admits_long (n : UInt64) : long.Admits (.natural n.toNat) n := by
  rintro _ rfl -
  exact (keeps_long n).restored

/-- What is kept as a text is admitted by that text. -/
lemma admits_of_keeps_text {a : α} {s : String} (h : format.Keeps a)
    (hwrite : format.write a = .text s) : format.Admits (.text s) a := by
  rintro _ rfl -
  have := h.restored
  rwa [hwrite] at this

/-- **A list is admitted** when its items are. -/
lemma admits_list {meaning : α → Meaning} {as : List α}
    (h : ∀ a ∈ as, format.Admits (meaning a) a) :
    (list format).Admits (.list meaning as) as := by
  rintro _ ⟨items, hitems, rfl⟩ hcomplete
  replace hcomplete : Reading.allComplete items = true := by
    simpa [Reading.isComplete] using hcomplete
  have hread : readItems format.read items = .ok as := by
    induction hitems with
    | nil => rfl
    | @cons a item as items hitem _ ih =>
      have hboth : item.isComplete = true ∧ Reading.allComplete items = true := by
        simpa [Reading.allComplete] using hcomplete
      simp only [readItems, h a List.mem_cons_self item hitem hboth.1,
        ih (fun b hb => h b (List.mem_cons_of_mem _ hb)) hboth.2]
      rfl
  simp only [list, hread]
  rfl

end Format

/-- What is stored for a list means it, if what is stored for its items means them. -/
lemma Meaning.list_map {α : Type} {meaning : α → Meaning} {write : α → Json} (as : List α)
    (h : ∀ a, meaning a (write a).reading) :
    Meaning.list meaning as (reading (.list (as.map write))) := by
  refine ⟨_, ?_, rfl⟩
  rw [readings_eq_map, List.map_map, List.forall₂_map_right_iff]
  exact List.forall₂_same.mpr fun a _ => h a

/-! ## Structures -/

variable {α β : Type}

/-- What stands on the right of related lists has its partner on the left. -/
lemma exists_mem_of_forall₂ {R : α → β → Prop} {as : List α} {bs : List β}
    (h : List.Forall₂ R as bs) {b : β} (hb : b ∈ bs) : ∃ a ∈ as, R a b := by
  induction h with
  | nil => cases hb
  | @cons a _ as _ hfirst _ ih =>
    rcases List.mem_cons.mp hb with rfl | hb
    · exact ⟨a, List.mem_cons_self, hfirst⟩
    · obtain ⟨a, ha, hrel⟩ := ih hb
      exact ⟨a, List.mem_cons_of_mem _ ha, hrel⟩

/-- A field moves a structure on: when it is set to what means its value, the structure is that of
one more field given. -/
structure Field.Moves (state : Finset String → α) (field : Field α) (entry : String × Meaning) :
    Prop where
  /-- The field and its meaning have the same name. -/
  name_eq : field.name = entry.1
  /-- The field can be set, and then it is given. -/
  assign_eq : ∀ given r, entry.2 r → r.isComplete = true →
    field.assign r (state given) = .ok (state (insert entry.1 given))

/-- A field moves a structure on if its format admits its meaning. -/
lemma Field.moves_of {state : Finset String → α} {name : String} {meaning : Meaning}
    {format : Format β} {get : α → β} {set : β → α → α} {b : β} (h : format.Admits meaning b)
    (hset : ∀ given, set b (state given) = state (insert name given)) :
    (Field.of name format get set).Moves state (name, meaning) := by
  refine ⟨rfl, fun given r hmeaning hcomplete => ?_⟩
  simp only [Field.of, h r hmeaning hcomplete, Except.map, hset]

/-- Whether a field may be left out does not matter when it is given. -/
lemma Field.Moves.orBlank {state : Finset String → α} {field : Field α} {entry : String × Meaning}
    (h : field.Moves state entry) : field.orBlank.Moves state entry := ⟨h.name_eq, h.assign_eq⟩

namespace RecordFormat

variable {format : RecordFormat α} {entries : List (String × Meaning)} {state : Finset String → α}
  {given required : Finset String} {members : List (Reading × Reading)} {seen : List String}

/-- What a structure looks like depends on the fields given so far: at first it is blank, and each
field moves it on. -/
structure Follows (format : RecordFormat α) (entries : List (String × Meaning))
    (state : Finset String → α) : Prop where
  /-- Different fields have different names. -/
  nodup : (format.fields.map (·.name)).Nodup
  /-- Nothing is given at first. -/
  blank : state ∅ = format.blank
  /-- Each field moves the structure on. -/
  moves : List.Forall₂ (fun field entry => field.Moves state entry) format.fields entries

/-- The names of the fields are those of their meanings. -/
lemma Follows.map_name (h : format.Follows entries state) :
    format.fields.map (·.name) = entries.map Prod.fst := by
  rw [← List.forall₂_eq_eq_eq, List.forall₂_map_left_iff, List.forall₂_map_right_iff]
  exact h.moves.imp fun _ _ hmoves => hmoves.name_eq

/-- The field with a meaning is found by its name. -/
lemma Follows.exists_find? (h : format.Follows entries state) {name : String} {meaning : Meaning}
    (hentry : (name, meaning) ∈ entries) : ∃ field,
      format.fields.find? (fun field => field.name == name) = some field ∧
        field.Moves state (name, meaning) := by
  obtain ⟨field, hfield, hmoves⟩ := exists_mem_of_forall₂ h.moves hentry
  have hfind := find?_name h.nodup hfield
  rw [show field.name = name from hmoves.name_eq] at hfind
  exact ⟨field, hfind, hmoves⟩

/-- **Members in any order are read as the fields that they give.** Here `seen` are the fields given
by the members before them. -/
lemma Follows.readMembers (h : format.Follows entries state) (hgives : Gives entries given members)
    (hcomplete : Reading.allMembersComplete members = true)
    (hnew : ∀ name ∈ given, name ∉ seen) : ∃ seen' : List String,
      seen'.toFinset = seen.toFinset ∪ given ∧
        format.readMembers members seen (state seen.toFinset) =
          .ok (seen', state (seen.toFinset ∪ given)) := by
  induction hgives generalizing seen with
  | nil => exact ⟨seen, (Finset.union_empty _).symm, by rw [Finset.union_empty]; rfl⟩
  | @field given members name meaning value hentry hvalue hfresh _ ih =>
    have hboth : value.isComplete = true ∧ Reading.allMembersComplete members = true := by
      simpa [Reading.allMembersComplete, Reading.isText] using hcomplete
    obtain ⟨field, hfind, hmoves⟩ := h.exists_find? hentry
    have hunseen : name ∉ seen := hnew name (Finset.mem_insert_self name given)
    have hnew' : ∀ other ∈ given, other ∉ name :: seen := fun other hother => by
      rw [List.mem_cons, not_or]
      exact ⟨fun heq => hfresh (heq ▸ hother), hnew other (Finset.mem_insert_of_mem hother)⟩
    obtain ⟨seen', hseen', hread⟩ := ih hboth.2 hnew'
    rw [List.toFinset_cons, Finset.insert_union_comm] at hseen' hread
    refine ⟨seen', hseen', ?_⟩
    simp only [RecordFormat.readMembers, hfind]
    rw [if_neg (by simpa using hunseen), hmoves.assign_eq _ _ hvalue hboth.1]
    exact hread
  | @other given members key value hkey _ ih =>
    have hboth : value.isComplete = true ∧ Reading.allMembersComplete members = true := by
      simpa [Reading.allMembersComplete, Reading.isText] using hcomplete
    have hfind : format.fields.find? (fun field => field.name == key) = none := by
      rw [List.find?_eq_none]
      intro field hfield heq
      refine hkey (h.map_name ▸ ?_)
      exact (beq_iff_eq.mp heq) ▸ List.mem_map_of_mem hfield
    obtain ⟨seen', hseen', hread⟩ := ih hboth.2 hnew
    refine ⟨seen', hseen', ?_⟩
    simp only [RecordFormat.readMembers, hfind, hboth.1, if_true]
    exact hread

/-- **A record is read as the fields that it gives** if it gives all fields that have to be
given. -/
lemma Follows.read (h : format.Follows entries state) (hgives : Gives entries given members)
    (hcomplete : Reading.allMembersComplete members = true)
    (hrequired : ∀ field ∈ format.fields, field.optional = false → field.name ∈ given) :
    format.read (.record members true) = .ok (state given) := by
  have hnew : ∀ name ∈ given, name ∉ ([] : List String) := fun _ _ => List.not_mem_nil
  obtain ⟨seen, hseen, hread⟩ := h.readMembers hgives hcomplete hnew
  rw [List.toFinset_nil, Finset.empty_union] at hseen hread
  have hmissing : format.missing? seen = none := missing?_eq_none fun field hfield hoptional => by
    rw [← List.mem_toFinset, hseen]
    exact hrequired field hfield hoptional
  rw [h.blank] at hread
  simp only [RecordFormat.read, hread, bind, Except.bind, Bool.not_true, Bool.false_eq_true,
    if_false, hmissing]
  rfl

/-- **A structure is admitted** when it is what all required fields make of the blank one, whatever
other fields are given. -/
lemma Follows.admits (h : format.Follows entries state) {a : α}
    (hrequired : ∀ field ∈ format.fields, field.optional = false → field.name ∈ required)
    (hstate : ∀ given, required ⊆ given → state given = a) :
    format.toFormat.Admits (.record entries required) a := by
  rintro _ ⟨given, members, hgives, hsubset, rfl⟩ hcomplete
  have hcomplete : Reading.allMembersComplete members = true := by
    simpa [Reading.isComplete] using hcomplete
  rw [← hstate given hsubset]
  exact h.read hgives hcomplete fun field hfield hoptional =>
    hsubset (hrequired field hfield hoptional)

/-- The fields of a structure are stored as what their meanings say. -/
def IsMeant (format : RecordFormat α) (a : α) (entries : List (String × Meaning)) : Prop :=
  List.Forall₂ (fun field entry => field.name = entry.1 ∧ entry.2 (field.write a).reading)
    format.fields entries

/-- **Stored fields give their values**, whichever of the fields they are. -/
lemma IsMeant.gives {a : α} (h : format.IsMeant a entries)
    (hnodup : (format.fields.map (·.name)).Nodup) {fields : List (Field α)}
    (hfields : fields.Sublist format.fields) :
    Gives entries (fields.map (·.name)).toFinset
      (memberReadings (fields.map fun field => (field.name, field.write a))) := by
  rw [memberReadings_eq_map, List.map_map]
  refine gives_of_nodup ((hfields.map _).nodup hnodup) fun field hfield => ?_
  obtain ⟨⟨name, meaning⟩, hentry, heq, hmeaning⟩ :=
    exists_mem_of_forall₂ h.flip (hfields.subset hfield)
  obtain rfl : field.name = name := heq
  exact ⟨meaning, hentry, hmeaning⟩

/-- What is stored for a structure means it, if all fields that are required are its own. -/
lemma IsMeant.record {a : α} (h : format.IsMeant a entries)
    (hnodup : (format.fields.map (·.name)).Nodup)
    (hrequired : required ⊆ (format.fields.map (·.name)).toFinset) :
    Meaning.record entries required (format.toFormat.write a).reading :=
  ⟨_, _, h.gives hnodup (List.Sublist.refl _), hrequired, rfl⟩

/-! ## Faults -/

/-- What reading one more member does: it sets a field that has not been given before, or passes
over an unknown member. -/
lemma readMembers_cons {member : Reading × Reading} {a a' : α} {seen' : List String}
    (hread : format.readMembers (member :: members) seen a = .ok (seen', a')) :
    ∃ key value, member = (.text (some key), value) ∧
      ((∃ field b, format.fields.find? (fun field => field.name == key) = some field ∧
          key ∉ seen ∧ field.assign value a = .ok b ∧
          format.readMembers members (key :: seen) b = .ok (seen', a')) ∨
        format.fields.find? (fun field => field.name == key) = none ∧
          format.readMembers members seen a = .ok (seen', a')) := by
  obtain ⟨key, value⟩ := member
  cases key with
  | damaged | null | boolean | number | list | record => cases hread
  | text name =>
    cases name with
    | none => cases hread
    | some key =>
      refine ⟨key, value, rfl, ?_⟩
      unfold RecordFormat.readMembers at hread
      cases hfind : format.fields.find? (fun field => field.name == key) with
      | none =>
        simp only [hfind] at hread
        split at hread
        · exact .inr ⟨rfl, hread⟩
        · cases hread
      | some field =>
        simp only [hfind] at hread
        split at hread
        · cases hread
        · next hunseen =>
          cases hassign : field.assign value a with
          | error problem =>
            rw [hassign] at hread
            cases hread
          | ok b =>
            rw [hassign] at hread
            exact .inl ⟨field, b, rfl, by simpa using hunseen, hassign, hread⟩

variable {name : String} {field : Field α}

/-- **Members that are read** have set each of their fields, and none that was given before. -/
lemma exists_assign_of_readMembers {a a' : α} {seen' : List String}
    (hfind : format.fields.find? (fun field => field.name == name) = some field)
    (hread : format.readMembers members seen a = .ok (seen', a')) {value : Reading}
    (hmember : (.text (some name), value) ∈ members) :
    name ∉ seen ∧ ∃ b b', field.assign value b = .ok b' := by
  induction members generalizing seen a with
  | nil => cases hmember
  | cons member members ih =>
    obtain ⟨key, first, rfl, hstep⟩ := readMembers_cons hread
    rcases List.mem_cons.mp hmember with hfirst | hmember
    · obtain ⟨rfl, rfl⟩ : name = key ∧ value = first := by simpa using hfirst
      rcases hstep with ⟨known, b, hknown, hunseen, hassign, -⟩ | ⟨hunknown, -⟩
      · obtain rfl : field = known := Option.some.inj (hfind.symm.trans hknown)
        exact ⟨hunseen, a, b, hassign⟩
      · rw [hunknown] at hfind
        cases hfind
    · rcases hstep with ⟨known, b, -, -, -, hrest⟩ | ⟨-, hrest⟩
      · obtain ⟨hnew, hset⟩ := ih hrest hmember
        exact ⟨fun hmem => hnew (List.mem_cons_of_mem _ hmem), hset⟩
      · exact ih hrest hmember

/-- Members that are read give no field twice. -/
lemma not_sublist_of_readMembers {a a' : α} {seen' : List String}
    (hfind : format.fields.find? (fun field => field.name == name) = some field)
    (hread : format.readMembers members seen a = .ok (seen', a')) (v w : Reading) :
    ¬ List.Sublist [(.text (some name), v), (.text (some name), w)] members := by
  intro htwice
  induction members generalizing seen a with
  | nil => cases htwice
  | cons member members ih =>
    obtain ⟨key, first, rfl, hstep⟩ := readMembers_cons hread
    cases htwice with
    | cons _ htwice =>
      rcases hstep with ⟨known, b, -, -, -, hrest⟩ | ⟨-, hrest⟩
      · exact ih hrest htwice
      · exact ih hrest htwice
    | cons_cons _ hsecond =>
      rcases hstep with ⟨known, b, -, -, -, hrest⟩ | ⟨hunknown, -⟩
      · have hmember := List.singleton_sublist.mp hsecond
        exact (exists_assign_of_readMembers hfind hrest hmember).1 List.mem_cons_self
      · rw [hunknown] at hfind
        cases hfind

/-- What is read from a record is read from its members. -/
lemma exists_readMembers_of_read {r : α} (hread : format.read (.record members true) = .ok r) :
    ∃ seen, format.readMembers members [] format.blank = .ok (seen, r) := by
  cases hmembers : format.readMembers members [] format.blank with
  | error problem =>
    simp only [RecordFormat.read, hmembers] at hread
    cases hread
  | ok pair =>
    obtain ⟨seen, b⟩ := pair
    simp only [RecordFormat.read, hmembers, bind, Except.bind, Bool.not_true, Bool.false_eq_true,
      if_false] at hread
    split at hread
    · cases hread
    · cases hread
      exact ⟨seen, rfl⟩

/-- **A field that is given twice is a fault**, wherever it stands and whatever it is set to. -/
lemma exists_error_of_twice
    (hfind : format.fields.find? (fun field => field.name == name) = some field) {v w : Reading}
    (htwice : List.Sublist [(.text (some name), v), (.text (some name), w)] members) :
    ∃ problem, format.read (.record members true) = .error problem := by
  cases hread : format.read (.record members true) with
  | error problem => exact ⟨problem, rfl⟩
  | ok a =>
    obtain ⟨seen, hmembers⟩ := exists_readMembers_of_read hread
    exact absurd htwice (not_sublist_of_readMembers hfind hmembers v w)

/-- **A field that cannot be set to what is given is a fault.** -/
lemma exists_error_of_assign
    (hfind : format.fields.find? (fun field => field.name == name) = some field) {value : Reading}
    (hmember : (.text (some name), value) ∈ members)
    (hassign : ∀ b, ∃ problem, field.assign value b = .error problem) :
    ∃ problem, format.read (.record members true) = .error problem := by
  cases hread : format.read (.record members true) with
  | error problem => exact ⟨problem, rfl⟩
  | ok a =>
    obtain ⟨seen, hmembers⟩ := exists_readMembers_of_read hread
    obtain ⟨-, b, b', hset⟩ := exists_assign_of_readMembers hfind hmembers hmember
    obtain ⟨problem, hfault⟩ := hassign b
    rw [hfault] at hset
    cases hset

end RecordFormat

/-- A list with an item that is not read is not read either. -/
lemma Format.exists_error_of_item {format : Format α} {items : List Reading} {item : Reading}
    (hitem : item ∈ items) (hfault : ∃ problem, format.read item = .error problem) :
    ∃ problem, (Format.list format).read (.list items true) = .error problem := by
  have hitems : ∃ problem, Format.readItems format.read items = .error problem := by
    obtain ⟨problem, hproblem⟩ := hfault
    induction items with
    | nil => cases hitem
    | cons first items ih =>
      cases hfirst : format.read first with
      | error other => exact ⟨other, by simp only [Format.readItems, hfirst]; rfl⟩
      | ok a =>
        rcases List.mem_cons.mp hitem with rfl | hitem
        · rw [hproblem] at hfirst
          cases hfirst
        · obtain ⟨other, hother⟩ := ih hitem
          exact ⟨other, by simp only [Format.readItems, hfirst, hother]; rfl⟩
  obtain ⟨problem, hproblem⟩ := hitems
  exact ⟨problem, by simp only [Format.list, hproblem]; rfl⟩

end Json

end Constellation
