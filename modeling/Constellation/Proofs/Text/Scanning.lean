import Mathlib.Data.List.Basic
import Mathlib.Data.Nat.Notation
import Mathlib.Tactic.Lemma
import Constellation.Text.Substitution
set_option autoImplicit false

/-!
# Replacing one after the other, and all at once

Replacements that are made one after the other read what the earlier ones have inserted. This module
says when they still come to the same as a single scan of the text, in which each occurrence of a
key is replaced and what is inserted is not read again.

## Main definitions

* `scan` — a single scan of a text for several keys.
* `IsBracketed` — keys in brackets, which cannot overlap.
* `Completes` — a value makes an occurrence of a key together with text around it.

## Main results

* `scan_induction` — at each place of a text a scan finds a key or copies a character.
* `scan_replaceFrom` — a value that completes no other key can be inserted before the others are
  looked for.
* `foldl_replaceAll` — replacements that are made one after the other are a single scan if no value
  completes a later key.
* `exists_scan_ne` — if some value does, there is a text that tells both apart.
-/

namespace Constellation

/-! ## Scanning -/

/-- Replaces the keys that occur in what follows the next `skip` characters, which belong to an
occurrence that has been replaced already. -/
def scanFrom (replacements : List (List Char × List Char)) : (skip : ℕ) → List Char → List Char
  | _, [] => []
  | skip + 1, _ :: rest => scanFrom replacements skip rest
  | 0, c :: rest =>
    match replacements.find? fun r => r.1.isPrefixOf (c :: rest) with
    | some (key, value) => value ++ scanFrom replacements (key.length - 1) rest
    | none => c :: scanFrom replacements 0 rest

/-- Replaces each occurrence of a key by its value in a single scan from left to right. -/
def scan (replacements : List (List Char × List Char)) (text : List Char) : List Char :=
  scanFrom replacements 0 text

/-- A key in brackets, with no bracket in between. -/
def IsBracketed (key : List Char) : Prop :=
  ∃ name, key = '[' :: name ++ [']'] ∧ '[' ∉ name ∧ ']' ∉ name

instance (key : List Char) : Decidable (IsBracketed key) :=
  decidable_of_iff (key = '[' :: (key.drop 1).dropLast ++ [']'] ∧
      '[' ∉ (key.drop 1).dropLast ∧ ']' ∉ (key.drop 1).dropLast) (by
    constructor
    · exact fun h => ⟨_, h⟩
    · rintro ⟨name, rfl, h⟩
      simpa using h)

/-- A value makes an occurrence of a key together with a beginning and an end of the key around it,
neither of which is the whole key. -/
def Completes (value key : List Char) : Prop :=
  ∃ front back, front <+: key ∧ front ≠ key ∧ back <:+ key ∧ back ≠ key ∧
    key <:+: front ++ value ++ back

variable {key value other text rest : List Char} {replacements : List (List Char × List Char)}

/-! ## Steps of a scan -/

/-- What has been replaced already is passed over. -/
lemma scanFrom_append (passed rest : List Char) :
    scanFrom replacements passed.length (passed ++ rest) = scan replacements rest := by
  induction passed with
  | nil => rfl
  | cons c passed ih =>
    rw [List.length_cons, List.cons_append, scanFrom]
    exact ih

/-- The same holds for a single replacement. -/
lemma replaceFrom_append (passed rest : List Char) :
    replaceFrom key value passed.length (passed ++ rest) = replaceFrom key value 0 rest := by
  induction passed with
  | nil => rfl
  | cons c passed ih =>
    rw [List.length_cons, List.cons_append, replaceFrom]
    exact ih

/-- A key that is found is replaced. -/
lemma scan_of_find? (hne : key ≠ [])
    (h : (replacements.find? fun r => r.1.isPrefixOf (key ++ rest)) = some (key, value)) :
    scan replacements (key ++ rest) = value ++ scan replacements rest := by
  obtain ⟨c, name, rfl⟩ := List.exists_cons_of_ne_nil hne
  rw [List.cons_append] at h
  rw [scan, List.cons_append, scanFrom, h]
  exact congrArg (value ++ ·) (scanFrom_append name rest)

/-- A character is copied if no key is found. -/
lemma scan_cons {c : Char}
    (h : ∀ r ∈ replacements, ¬ r.1 <+: c :: rest) :
    scan replacements (c :: rest) = c :: scan replacements rest := by
  have hnone : (replacements.find? fun r => r.1.isPrefixOf (c :: rest)) = none := by
    rw [List.find?_eq_none]
    intro r hr hprefixed
    exact h r hr (List.isPrefixOf_iff_prefix.mp hprefixed)
  rw [scan, scanFrom, hnone]
  rfl

/-- Without keys the text stays as it is. -/
lemma scan_nil (text : List Char) : scan [] text = text := by
  induction text with
  | nil => rfl
  | cons c rest ih => rw [scan_cons (by simp), ih]

/-- A single key is replaced where it is found. -/
lemma replaceFrom_key (hne : key ≠ []) (rest : List Char) :
    replaceFrom key value 0 (key ++ rest) = value ++ replaceFrom key value 0 rest := by
  obtain ⟨c, name, rfl⟩ := List.exists_cons_of_ne_nil hne
  have hfound : (c :: name).isPrefixOf (c :: (name ++ rest)) = true :=
    List.isPrefixOf_iff_prefix.mpr (List.prefix_append (c :: name) rest)
  rw [List.cons_append, replaceFrom, if_pos hfound]
  exact congrArg (value ++ ·) (replaceFrom_append name rest)

/-- Elsewhere the text is copied. -/
lemma replaceFrom_cons {c : Char} (h : ¬ key <+: c :: rest) :
    replaceFrom key value 0 (c :: rest) = c :: replaceFrom key value 0 rest := by
  rw [replaceFrom, if_neg fun hfound => h (List.isPrefixOf_iff_prefix.mp hfound)]

/-! ## Keys in brackets -/

namespace IsBracketed

/-- A key in brackets is not empty. -/
lemma ne_nil (h : IsBracketed key) : key ≠ [] := by
  obtain ⟨name, rfl, -⟩ := h
  simp

/-- It begins with a bracket. -/
lemma eq_of_isPrefix_cons (h : IsBracketed key) {c : Char} (hfound : key <+: c :: rest) :
    c = '[' := by
  obtain ⟨name, rfl, -⟩ := h
  exact (List.cons_prefix_cons.mp hfound).1.symm

/-- A beginning that is not the whole key does not have its last bracket. -/
lemma notMem_of_isPrefix (h : IsBracketed key) {front : List Char} (hfront : front <+: key)
    (hne : front ≠ key) : ']' ∉ front := by
  obtain ⟨name, rfl, -, hname⟩ := h
  intro hmem
  rcases List.prefix_concat_iff.mp hfront with heq | hshort
  · exact hne heq
  · have hmem := hshort.subset hmem
    simp [hname] at hmem

/-- An end that is not the whole key does not have its first bracket. -/
lemma notMem_of_isSuffix (h : IsBracketed key) {back : List Char} (hback : back <:+ key)
    (hne : back ≠ key) : '[' ∉ back := by
  obtain ⟨name, rfl, hname, -⟩ := h
  intro hmem
  rcases List.suffix_cons_iff.mp hback with heq | hshort
  · exact hne heq
  · have hmem := hshort.subset hmem
    simp [hname] at hmem

/-- A key has a bracket at its beginning. -/
lemma open_mem (h : IsBracketed key) : '[' ∈ key := by
  obtain ⟨name, rfl, -⟩ := h
  simp

/-- It has one at its end. -/
lemma close_mem (h : IsBracketed key) : ']' ∈ key := by
  obtain ⟨name, rfl, -⟩ := h
  simp

/-- Keys at the same place are the same. -/
lemma eq_of_isPrefix (h : IsBracketed key) (h' : IsBracketed other) (hkey : key <+: text)
    (hother : other <+: text) : key = other := by
  by_contra hne
  rcases List.prefix_or_prefix_of_prefix hkey hother with hstart | hstart
  · exact h'.notMem_of_isPrefix hstart hne h.close_mem
  · exact h.notMem_of_isPrefix hstart (Ne.symm hne) h'.close_mem

/-- What follows a key does not matter for finding it. -/
lemma find?_isPrefixOf (h : IsBracketed other) (hkeys : ∀ r ∈ replacements, IsBracketed r.1)
    (rest : List Char) : (replacements.find? fun r => r.1.isPrefixOf (other ++ rest)) =
      replacements.find? fun r => r.1 == other := by
  induction replacements with
  | nil => rfl
  | cons r replacements ih =>
    rw [List.forall_mem_cons] at hkeys
    have hsame : r.1.isPrefixOf (other ++ rest) = (r.1 == other) := by
      rw [Bool.eq_iff_iff, List.isPrefixOf_iff_prefix, beq_iff_eq]
      constructor
      · exact fun hfound => hkeys.1.eq_of_isPrefix h hfound (List.prefix_append other rest)
      · rintro rfl
        exact List.prefix_append _ rest
    rw [List.find?_cons, List.find?_cons, hsame, ih hkeys.2]

/-- A key does not begin within another one. -/
lemma replaceFrom_append_of_notMem (h : IsBracketed key) {passed : List Char}
    (hpassed : '[' ∉ passed) (rest : List Char) : replaceFrom key value 0 (passed ++ rest) =
      passed ++ replaceFrom key value 0 rest := by
  induction passed with
  | nil => rfl
  | cons c passed ih =>
    rw [List.mem_cons, not_or] at hpassed
    rw [List.cons_append, replaceFrom_cons fun hfound =>
      hpassed.1 (h.eq_of_isPrefix_cons hfound).symm, ih hpassed.2, List.cons_append]

/-- Looking for a key leaves other keys as they are. -/
lemma replaceFrom_other (h : IsBracketed key) (h' : IsBracketed other) (hne : key ≠ other)
    (rest : List Char) : replaceFrom key value 0 (other ++ rest) =
      other ++ replaceFrom key value 0 rest := by
  have hfirst : ¬ key <+: other ++ rest := fun hfound =>
    hne (h.eq_of_isPrefix h' hfound (List.prefix_append other rest))
  obtain ⟨name, rfl, hname, -⟩ := h'
  have hrest : '[' ∉ name ++ [']'] := by simp [hname]
  have hsplit : '[' :: name ++ [']'] ++ rest = '[' :: (name ++ [']'] ++ rest) := rfl
  rw [hsplit] at hfirst ⊢
  rw [replaceFrom_cons hfirst, h.replaceFrom_append_of_notMem hrest]
  rfl

end IsBracketed

/-- **What a scan does is proved along the text**: at each place either some key is found, and the
scan goes on behind it, or a character is copied. -/
lemma scan_induction {motive : List Char → Prop} (hkeys : ∀ r ∈ replacements, IsBracketed r.1)
    (nil : motive [])
    (found : ∀ key value rest,
      (replacements.find? fun r => r.1.isPrefixOf (key ++ rest)) = some (key, value) →
        motive rest → motive (key ++ rest))
    (copied : ∀ c rest, (∀ r ∈ replacements, ¬ r.1 <+: c :: rest) → motive rest →
      motive (c :: rest)) (text : List Char) : motive text := by
  induction hlength : text.length using Nat.strongRecOn generalizing text with
  | _ n ih =>
    cases text with
    | nil => exact nil
    | cons c rest =>
      cases hfind : replacements.find? fun r => r.1.isPrefixOf (c :: rest) with
      | some r =>
        obtain ⟨key, value⟩ := r
        have hprefixed := List.find?_some hfind
        obtain ⟨tail, htail⟩ := List.isPrefixOf_iff_prefix.mp hprefixed
        have hshorter : tail.length < n := by
          have hpos := List.length_pos_iff.mpr (hkeys _ (List.mem_of_find?_eq_some hfind)).ne_nil
          rw [← hlength, ← htail, List.length_append]
          omega
        rw [← htail] at hfind ⊢
        exact found key value tail hfind (ih _ hshorter tail rfl)
      | none =>
        have hshorter : rest.length < n := by
          rw [← hlength, List.length_cons]
          omega
        refine copied c rest (fun r hr hprefixed => ?_) (ih _ hshorter rest rfl)
        exact List.find?_eq_none.mp hfind r hr (List.isPrefixOf_iff_prefix.mpr hprefixed)

/-! ## Values that complete no key -/

/-- A key that begins within a value and what follows it is completed by the value. -/
lemma completes_of_isPrefix (hkey : IsBracketed key) {before after : List Char}
    (hafter : after ≠ []) (h : key <+: after ++ rest) : Completes (before ++ after) key := by
  have hnil : [] ≠ key := hkey.ne_nil.symm
  obtain ⟨tail, htail⟩ := h
  rcases List.append_eq_append_iff.mp htail with ⟨inside, rfl, -⟩ | ⟨back, rfl, -⟩
  · exact ⟨[], [], List.nil_prefix, hnil, List.nil_suffix, hnil, before, inside, by simp⟩
  · refine ⟨[], back, List.nil_prefix, hnil, List.suffix_append after back, ?_, before, [], by simp⟩
    intro heq
    exact hafter (List.self_eq_append_left.mp heq)

/-- A key that begins before a value, and does not end there, is completed by the value. -/
lemma completes_of_isPrefix_append (hkey : IsBracketed key) {front : List Char}
    (hfront : front ≠ []) (h : key <+: front ++ value ++ rest) (hnot : ¬ key <+: front) :
    Completes value key := by
  obtain ⟨tail, htail⟩ := h
  rw [List.append_assoc] at htail
  rcases List.append_eq_append_iff.mp htail with ⟨inside, rfl, -⟩ | ⟨last, rfl, hrest⟩
  · exact absurd (List.prefix_append key inside) hnot
  · have hne : front ≠ front ++ last := fun heq => hnot ⟨[], by rw [← heq, List.append_nil]⟩
    rcases List.append_eq_append_iff.mp hrest with ⟨back, rfl, -⟩ | ⟨inside, rfl, -⟩
    · refine ⟨front, back, List.prefix_append _ _, hne, ?_, ?_, [], [], by simp⟩
      · exact ⟨front ++ value, by simp⟩
      · intro heq
        have hlength := congrArg List.length heq
        have hpos := List.length_pos_iff.mpr hfront
        simp only [List.length_append] at hlength
        omega
    · exact ⟨front, [], List.prefix_append _ _, hne, List.nil_suffix, hkey.ne_nil.symm, [], inside,
        by simp⟩

/-- A value that completes no key is copied. -/
lemma scan_append_of_not_completes (hkeys : ∀ r ∈ replacements, IsBracketed r.1)
    (h : ∀ r ∈ replacements, ¬ Completes value r.1) (rest : List Char) :
    scan replacements (value ++ rest) = value ++ scan replacements rest := by
  have hsuffix : ∀ before after, value = before ++ after →
      scan replacements (after ++ rest) = after ++ scan replacements rest := by
    intro before after hvalue
    induction after generalizing before with
    | nil => rfl
    | cons c after ih =>
      have hnone : ∀ r ∈ replacements, ¬ r.1 <+: c :: (after ++ rest) := fun r hr hfound =>
        h r hr (hvalue ▸ completes_of_isPrefix (hkeys r hr) (List.cons_ne_nil c after) hfound)
      rw [List.cons_append, scan_cons hnone, ih (before ++ [c]) (by simp [hvalue]),
        List.cons_append]
  exact hsuffix [] value rfl

/-- The first occurrence of a key is replaced first. -/
lemma replaceFrom_cases (value : List Char) (hne : key ≠ []) (text : List Char) :
    replaceFrom key value 0 text = text ∨ ∃ before after, text = before ++ key ++ after ∧
      replaceFrom key value 0 text = before ++ value ++ replaceFrom key value 0 after := by
  induction text with
  | nil => exact Or.inl rfl
  | cons c text ih =>
    by_cases hfound : key <+: c :: text
    · right
      obtain ⟨after, hafter⟩ := hfound
      refine ⟨[], after, hafter.symm, ?_⟩
      rw [← hafter, replaceFrom_key hne]
      rfl
    · rw [replaceFrom_cons hfound]
      rcases ih with hsame | ⟨before, after, rfl, hreplaced⟩
      · exact Or.inl (congrArg (c :: ·) hsame)
      · exact Or.inr ⟨c :: before, after, rfl, congrArg (c :: ·) hreplaced⟩

/-- A value that does not complete a key makes no occurrence of it. -/
lemma not_isPrefix_cons_replaceFrom (hne : key ≠ []) (hother : IsBracketed other)
    (hcompletes : ¬ Completes value other) {c : Char} (h : ¬ other <+: c :: rest) :
    ¬ other <+: c :: replaceFrom key value 0 rest := by
  rcases replaceFrom_cases value hne rest with hsame | ⟨before, after, rfl, hreplaced⟩
  · rwa [hsame]
  · intro hfound
    rw [hreplaced, ← List.cons_append, ← List.cons_append] at hfound
    refine hcompletes (completes_of_isPrefix_append hother (List.cons_ne_nil c before) hfound ?_)
    intro hbefore
    apply h
    rw [← List.cons_append, ← List.cons_append, List.append_assoc]
    exact hbefore.trans (List.prefix_append _ _)

/-! ## One after the other -/

/-- **A value that completes no other key can be inserted first.** -/
lemma scan_replaceFrom (hkey : IsBracketed key) (hkeys : ∀ r ∈ replacements, IsBracketed r.1)
    (hfresh : ∀ r ∈ replacements, r.1 ≠ key) (h : ∀ r ∈ replacements, ¬ Completes value r.1)
    (text : List Char) : scan replacements (replaceFrom key value 0 text) =
      scan ((key, value) :: replacements) text := by
  have hall : ∀ r ∈ (key, value) :: replacements, IsBracketed r.1 :=
    List.forall_mem_cons.mpr ⟨hkey, hkeys⟩
  induction text using scan_induction hall with
  | nil => rfl
  | found other inserted rest hfind ih =>
    have hother : IsBracketed other := hall _ (List.mem_of_find?_eq_some hfind)
    rw [scan_of_find? hother.ne_nil hfind, ← ih]
    rw [List.find?_cons] at hfind
    split at hfind
    · cases hfind
      rw [replaceFrom_key hkey.ne_nil, scan_append_of_not_completes hkeys h]
    · have hmem := List.mem_of_find?_eq_some hfind
      -- behind the key there is another text now, in which the same key is found
      have hthere := (hother.find?_isPrefixOf hkeys (replaceFrom key value 0 rest)).trans
        ((hother.find?_isPrefixOf hkeys rest).symm.trans hfind)
      rw [hkey.replaceFrom_other hother (hfresh _ hmem).symm, scan_of_find? hother.ne_nil hthere]
  | copied c rest hnone ih =>
    have hfirst := (List.forall_mem_cons.mp hnone).1
    rw [scan_cons hnone, ← ih, replaceFrom_cons hfirst, scan_cons fun r hr =>
      not_isPrefix_cons_replaceFrom hkey.ne_nil (hkeys r hr) (h r hr)
        (hnone r (List.mem_cons_of_mem _ hr))]

/-- **Replacements that are made one after the other are a single scan** if no value completes a
later key.

**Proof sketch.** Induction on the replacements: those after the first one are a single scan of the
text that the first one leaves, and the first one can be made in that scan (`scan_replaceFrom`). -/
lemma foldl_replaceAll (hkeys : ∀ r ∈ replacements, IsBracketed r.1)
    (hnodup : (replacements.map Prod.fst).Nodup)
    (h : replacements.Pairwise fun earlier later => ¬ Completes earlier.2 later.1)
    (text : List Char) :
    replacements.foldl (fun text r => replaceAll r.1 r.2 text) text = scan replacements text := by
  induction replacements generalizing text with
  | nil => exact (scan_nil text).symm
  | cons r replacements ih =>
    rw [List.forall_mem_cons] at hkeys
    rw [List.map_cons, List.nodup_cons] at hnodup
    rw [List.pairwise_cons] at h
    have hfresh : ∀ other ∈ replacements, other.1 ≠ r.1 := fun other hother heq =>
      hnodup.1 (List.mem_map.mpr ⟨other, hother, heq⟩)
    have hall : replaceAll r.1 r.2 text = replaceFrom r.1 r.2 0 text := by
      rw [replaceAll, if_neg (by simpa using hkeys.1.ne_nil)]
    rw [List.foldl_cons, ih hkeys.2 hnodup.2 h.2, hall,
      scan_replaceFrom hkeys.1 hkeys.2 hfresh h.1]

/-- What does not have a character occurs before it or after it. -/
lemma isInfix_of_append_cons {before after left right : List Char} {c : Char} (hout : c ∉ key)
    (h : before ++ key ++ after = left ++ c :: right) : key <:+: left ∨ key <:+: right := by
  rcases List.append_eq_append_iff.mp h with ⟨inside, rfl, -⟩ | ⟨last, hlast, hright⟩
  · exact Or.inl ⟨before, inside, rfl⟩
  · cases last with
    | nil =>
      rw [List.append_nil] at hlast
      exact Or.inl ⟨before, [], by rw [hlast, List.append_nil]⟩
    | cons d last =>
      obtain ⟨rfl, rfl⟩ := List.cons.inj hright
      rcases List.append_eq_append_iff.mp hlast with ⟨inside, rfl, rfl⟩ | ⟨first, rfl, hfirst⟩
      · simp at hout
      · cases first with
        | nil =>
          rw [List.nil_append] at hfirst
          rw [← hfirst] at hout
          simp at hout
        | cons d first =>
          obtain ⟨-, rfl⟩ := List.cons.inj hfirst
          exact Or.inr ⟨first, after, rfl⟩

/-- **A value completes no key** if it has no bracket, and a character that the key does not
have. -/
lemma not_completes (hkey : IsBracketed key) (hopen : '[' ∉ value) (hclose : ']' ∉ value) {c : Char}
    (hc : c ∈ value) (hout : c ∉ key) : ¬ Completes value key := by
  rintro ⟨front, back, hfront, hnefront, hback, hneback, before, after, hwithin⟩
  have hfirst := hkey.notMem_of_isSuffix hback hneback
  have hlast := hkey.notMem_of_isPrefix hfront hnefront
  obtain ⟨left, right, rfl⟩ := List.append_of_mem hc
  have hsplit : before ++ key ++ after = (front ++ left) ++ c :: (right ++ back) := by
    rw [hwithin]
    simp
  rcases isInfix_of_append_cons hout hsplit with hleft | hright
  · have hmem := hleft.subset hkey.close_mem
    simp_all
  · have hmem := hright.subset hkey.open_mem
    simp_all

/-! ## Values that complete a key -/

/-- No key begins in the beginning of another one before a bracket. -/
lemma not_isPrefix_append (hkey : IsBracketed key) {front : List Char} (hne : front ≠ [])
    (hfront : ']' ∉ front) (rest : List Char) : ¬ key <+: front ++ '[' :: rest := by
  have hlast := hkey.close_mem
  rintro ⟨tail, htail⟩
  rcases List.append_eq_append_iff.mp htail with ⟨inside, rfl, -⟩ | ⟨last, rfl, hlastEq⟩
  · exact hfront (List.mem_append_left _ hlast)
  · cases last with
    | nil =>
      rw [List.append_nil] at hlast
      exact hfront hlast
    | cons c last =>
      obtain ⟨rfl, -⟩ := List.cons.inj hlastEq
      refine hkey.notMem_of_isSuffix (List.suffix_append front _) ?_ List.mem_cons_self
      intro heq
      exact hne (List.self_eq_append_left.mp heq)

/-- A scan copies the beginning of a key before a bracket. -/
lemma scan_append_bracket (hkeys : ∀ r ∈ replacements, IsBracketed r.1) {front : List Char}
    (hfront : ']' ∉ front) (rest : List Char) :
    scan replacements (front ++ '[' :: rest) = front ++ scan replacements ('[' :: rest) := by
  induction front with
  | nil => rfl
  | cons c front ih =>
    have hnone : ∀ r ∈ replacements, ¬ r.1 <+: c :: (front ++ '[' :: rest) := fun r hr =>
      not_isPrefix_append (hkeys r hr) (List.cons_ne_nil c front) hfront rest
    rw [List.mem_cons, not_or] at hfront
    rw [List.cons_append, scan_cons hnone, ih hfront.2, List.cons_append]

/-- It copies a text without a bracket. -/
lemma scan_of_notMem (hkeys : ∀ r ∈ replacements, IsBracketed r.1) (h : '[' ∉ text) :
    scan replacements text = text := by
  induction text with
  | nil => rfl
  | cons c rest ih =>
    rw [List.mem_cons, not_or] at h
    rw [scan_cons fun r hr hfound => h.1 ((hkeys r hr).eq_of_isPrefix_cons hfound).symm, ih h.2]

/-- **Each key that is replaced takes a bracket away.** -/
lemma count_scan (hkeys : ∀ r ∈ replacements, IsBracketed r.1)
    (hvalues : ∀ r ∈ replacements, '[' ∉ r.2) (text : List Char) :
    (scan replacements text).count '[' ≤ text.count '[' ∧
      ((∃ r ∈ replacements, r.1 <:+: text) →
        (scan replacements text).count '[' < text.count '[') := by
  induction text using scan_induction hkeys with
  | nil =>
    refine ⟨Nat.le_refl _, ?_⟩
    rintro ⟨r, hr, hwithin⟩
    exact absurd (List.infix_nil.mp hwithin) (hkeys r hr).ne_nil
  | found key value rest hfind ih =>
    have hmem := List.mem_of_find?_eq_some hfind
    have hpos : 0 < key.count '[' := List.count_pos_iff.mpr (hkeys _ hmem).open_mem
    have hless : (scan replacements (key ++ rest)).count '[' < (key ++ rest).count '[' := by
      rw [scan_of_find? (hkeys _ hmem).ne_nil hfind, List.count_append, List.count_append,
        List.count_eq_zero.mpr (hvalues _ hmem)]
      omega
    exact ⟨Nat.le_of_lt hless, fun _ => hless⟩
  | copied c rest hnone ih =>
    obtain ⟨hle, hlt⟩ := ih
    rw [scan_cons hnone, List.count_cons, List.count_cons]
    refine ⟨by omega, ?_⟩
    rintro ⟨r, hr, hwithin⟩
    have hrest := (List.infix_cons_iff.mp hwithin).resolve_left (hnone r hr)
    have hless := hlt ⟨r, hr, hrest⟩
    omega

/-- A key between a beginning and an end of another one is replaced, and nothing else is. -/
lemma scan_between (hkeys : ∀ r ∈ replacements, IsBracketed r.1)
    (hfirst : (replacements.find? fun r => r.1 == key) = some (key, value))
    {front back : List Char} (hfront : ']' ∉ front) (hback : '[' ∉ back) :
    scan replacements (front ++ key ++ back) = front ++ value ++ back := by
  have hkey : IsBracketed key := hkeys _ (List.mem_of_find?_eq_some hfirst)
  have hfound := (hkey.find?_isPrefixOf hkeys back).trans hfirst
  have hcopied : scan replacements (front ++ (key ++ back)) =
      front ++ scan replacements (key ++ back) := by
    obtain ⟨name, rfl, -⟩ := hkey
    exact scan_append_bracket hkeys hfront _
  rw [List.append_assoc, hcopied, scan_of_find? hkey.ne_nil hfound, scan_of_notMem hkeys hback,
    List.append_assoc]

/-- **A value that completes a key is not just inserted**: there is a text that tells this apart
from a single scan. -/
lemma exists_scan_ne (hkey : IsBracketed key) (hkeys : ∀ r ∈ replacements, IsBracketed r.1)
    (hvalues : ∀ r ∈ replacements, '[' ∉ r.2) {r : List Char × List Char} (hr : r ∈ replacements)
    (h : Completes value r.1) : ∃ text, scan replacements (scan [(key, value)] text) ≠
      scan ((key, value) :: replacements) text := by
  obtain ⟨front, back, hfront, hnefront, hback, hneback, hwithin⟩ := h
  have hfront := (hkeys r hr).notMem_of_isPrefix hfront hnefront
  have hback := (hkeys r hr).notMem_of_isSuffix hback hneback
  refine ⟨front ++ key ++ back, ?_⟩
  have hfirst : ∀ others : List (List Char × List Char),
      (((key, value) :: others).find? fun r => r.1 == key) = some (key, value) := fun others =>
    List.find?_cons_of_pos (beq_self_eq_true key)
  rw [scan_between (by simpa using hkey) (hfirst []) hfront hback,
    scan_between (List.forall_mem_cons.mpr ⟨hkey, hkeys⟩) (hfirst replacements) hfront hback]
  intro heq
  have hless := (count_scan hkeys hvalues _).2 ⟨r, hr, hwithin⟩
  rw [heq] at hless
  exact Nat.lt_irrefl _ hless

end Constellation
