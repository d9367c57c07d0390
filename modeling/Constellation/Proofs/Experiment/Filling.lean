import Constellation.Proofs.Experiment.Separation
import Constellation.Proofs.FileTree.Bringing
import Constellation.Proofs.Text.Scanning
set_option autoImplicit false

/-!
# What becomes of a template

The placeholders of a template are replaced one after the other. All values but the network of a run
are inserted as if this were done in a single scan. The network is inserted first, and it is free
text: whatever it completes to a placeholder is filled in its turn.

## Main definitions

* `scanText` — a single scan of a text for several keys.
* `IsInert` — a value that takes no part in any placeholder.
* `Run.fill` — what becomes of a template for a run.

## Main results

* `Binary64.isInert_write` — a double is inert in every layout.
* `Run.isInert_of_mem_tail` — so are all values of a run but its network.
* `Run.substituteText_placeholders` — what replacing one after the other comes to.
* `Run.fill_eq_scanText_iff` — which networks are only inserted.
* `Materializer.materialize_fills` — what the configuration file of a run holds.
* `Materializer.materialize_nested` — a network that is a placeholder is replaced itself.
-/

namespace Constellation

/-! ## Inert values -/

/-- A digit, a small letter or a point, none of which is in any placeholder. -/
def isForeign (c : Char) : Bool := c.isDigit || c.isLower || c == '.'

/-- A value that takes no part in any placeholder: it has no bracket, and a character that no
placeholder has. -/
structure IsInert (value : List Char) : Prop where
  /-- There is no opening bracket. -/
  opening : '[' ∉ value
  /-- There is no closing bracket. -/
  closing : ']' ∉ value
  /-- There is a character that no placeholder has. -/
  foreign : ∃ c ∈ value, isForeign c = true

instance (value : List Char) : Decidable (IsInert value) :=
  decidable_of_iff ('[' ∉ value ∧ ']' ∉ value ∧ value.any isForeign = true)
    ⟨fun h => ⟨h.1, h.2.1, List.any_eq_true.mp h.2.2⟩,
      fun h => ⟨h.opening, h.closing, List.any_eq_true.mpr h.foreign⟩⟩

namespace IsInert

variable {key value front back : List Char}

/-- An inert value completes no placeholder. -/
lemma not_completes (h : IsInert value) (hkey : IsBracketed key)
    (hchars : ∀ c ∈ key, isForeign c = false) : ¬ Completes value key := by
  obtain ⟨c, hc, hforeign⟩ := h.foreign
  refine Constellation.not_completes hkey h.opening h.closing hc fun hmem => ?_
  rw [hchars c hmem] at hforeign
  cases hforeign

/-- An inert value stays inert if text without brackets is put before it. -/
lemma append (hopening : '[' ∉ front) (hclosing : ']' ∉ front) (h : IsInert back) :
    IsInert (front ++ back) where
  opening := List.not_mem_append hopening h.opening
  closing := List.not_mem_append hclosing h.closing
  foreign := by
    obtain ⟨c, hc, hforeign⟩ := h.foreign
    exact ⟨c, List.mem_append_right front hc, hforeign⟩

end IsInert

namespace Binary64

/-- Numbers in decimal notation have no brackets. -/
lemma isInert_of_isNotationChar {text : List Char} (h : ∀ c ∈ text, isNotationChar c = true)
    (hforeign : ∃ c ∈ text, isForeign c = true) : IsInert text where
  opening := fun hmem => absurd (h _ hmem) (by decide)
  closing := fun hmem => absurd (h _ hmem) (by decide)
  foreign := hforeign

/-- A decimal is inert, since it has a point or an exponent. -/
lemma Decimal.isInert_write (layout : Layout) (d : Decimal) : IsInert (d.write layout) := by
  have hdigits : ∀ c ∈ Numeral.digits d.digits, isNotationChar c = true := fun c hc =>
    isNotationChar_of_mem_digits hc
  rw [Decimal.write]
  split
  · refine isInert_of_isNotationChar (isNotationChar_of_mem_positional hdigits) ⟨'.', ?_, rfl⟩
    rw [positional]
    split <;> simp
  · refine isInert_of_isNotationChar (isNotationChar_of_mem_scientific layout hdigits)
      ⟨'e', ?_, rfl⟩
    unfold scientific
    simp

/-- **A double is inert** in every layout. -/
lemma isInert_write (layout : Layout) (x : Float) : IsInert (write layout x).toList := by
  have hsign : ∀ {text : List Char}, IsInert text →
      IsInert ((if isNegative x then "-" else "").toList ++ text) := by
    intro text htext
    refine htext.append ?_ ?_ <;>
    · split <;> decide
  rw [write]
  split
  · next magnitude _ =>
    rw [String.toList_append, String.toList_ofList]
    refine hsign ?_
    rw [Finite.write]
    split
    · decide
    · exact Decimal.isInert_write layout _
  · split
    · rw [String.toList_append]
      exact hsign (by decide)
    · decide

end Binary64

/-- The digits of a number are inert. -/
lemma isInert_digits (n : ℕ) : IsInert (Nat.toDigits 10 n) := by
  refine Binary64.isInert_of_isNotationChar
    (fun c hc => Binary64.isNotationChar_of_mem_digits hc) ?_
  obtain ⟨c, rest, hdigits⟩ := List.exists_cons_of_ne_nil (Nat.toDigits_ne_nil (n := n) (b := 10))
  have hmem : c ∈ Nat.toDigits 10 n := hdigits ▸ List.mem_cons_self
  have hdigit : c.isDigit = true := Nat.isDigit_of_mem_toDigits (by decide) (by decide) hmem
  exact ⟨c, hmem, by simp [isForeign, hdigit]⟩

/-- So is the text of a number of 64 bits. -/
lemma isInert_toString (n : UInt64) : IsInert (toString n).toList := by
  have hdigits : (toString n).toList = Nat.toDigits 10 n.toNat := Nat.toList_repr
  rw [hdigits]
  exact isInert_digits n.toNat

/-- The directory with the routes has an inert name. -/
lemma Experiment.isInert_dynamicState (e : Experiment) : IsInert e.dynamicState.toList := by
  have hinterval := isInert_toString e.updateIntervalMs
  have hend := isInert_toString e.endTimeS
  have hname : e.dynamicState.toList = "dynamic_state_".toList ++
      ((toString e.updateIntervalMs).toList ++ ("ms_for_".toList ++
        ((toString e.endTimeS).toList ++ "s".toList))) := by
    unfold dynamicState
    simp only [String.toList_append, List.append_assoc]
    rfl
  rw [hname]
  exact IsInert.append (by decide) (by decide) (IsInert.append hinterval.opening hinterval.closing
    (IsInert.append (by decide) (by decide) (IsInert.append hend.opening hend.closing (by decide))))

/-! ## Filling -/

/-- A single scan of a text, in which each occurrence of a key is replaced by its value. What is
inserted is not read again. -/
def scanText (replacements : List (String × String)) (text : String) : String :=
  String.ofList (scan (replacements.map (Prod.map String.toList String.toList)) text.toList)

/-- The first replacement is made first. -/
lemma substituteText_cons (r : String × String) (replacements : List (String × String))
    (text : String) : Files.substituteText (r :: replacements) text =
      Files.substituteText replacements (Files.substituteText [r] text) := by
  simp only [Files.substituteText, List.foldl_cons, List.foldl_nil, String.toList_ofList]

/-- **Replacements that are made one after the other are a single scan** if no value completes a
later key. -/
lemma substituteText_eq_scanText {replacements : List (String × String)}
    (hkeys : ∀ r ∈ replacements, IsBracketed r.1.toList)
    (hnodup : (replacements.map Prod.fst).Nodup)
    (h : replacements.Pairwise fun earlier later => ¬ Completes earlier.2.toList later.1.toList)
    (text : String) : Files.substituteText replacements text = scanText replacements text := by
  have hnodup' :
      ((replacements.map (Prod.map String.toList String.toList)).map Prod.fst).Nodup := by
    rw [List.map_map]
    have hmap := hnodup.map fun _ _ heq => String.toList_injective heq
    rwa [List.map_map] at hmap
  rw [Files.substituteText, scanText, ← foldl_replaceAll (List.forall_mem_map.mpr hkeys) hnodup'
    (List.pairwise_map.mpr h), List.foldl_map]
  rfl

namespace Run

variable {run : Run}

/-- The placeholders are keys in brackets. -/
lemma isBracketed_of_mem_placeholders {p : String × String} (h : p ∈ run.placeholders) :
    IsBracketed p.1.toList := by
  have hkeys : ((blank.placeholders.map Prod.fst).all fun key =>
      decide (IsBracketed key.toList)) = true := by decide
  have hmem : p.1 ∈ run.placeholders.map Prod.fst := List.mem_map_of_mem h
  exact of_decide_eq_true (List.all_eq_true.mp hkeys p.1 hmem)

/-- They have no foreign characters, so an inert value completes none of them. -/
lemma not_completes_of_isInert {value : List Char} (hvalue : IsInert value) {p : String × String}
    (h : p ∈ run.placeholders) : ¬ Completes value p.1.toList := by
  have hkeys : ((blank.placeholders.map Prod.fst).all fun key =>
      key.toList.all fun c => !isForeign c) = true := by decide
  have hmem : p.1 ∈ run.placeholders.map Prod.fst := List.mem_map_of_mem h
  refine hvalue.not_completes (isBracketed_of_mem_placeholders h) fun c hc => ?_
  have hchar := List.all_eq_true.mp (List.all_eq_true.mp hkeys p.1 hmem) c hc
  simpa using hchar

/-- No placeholder is there twice. -/
lemma nodup_placeholders (run : Run) : (run.placeholders.map Prod.fst).Nodup := by
  show (blank.placeholders.map Prod.fst).Nodup
  decide

/-- What becomes of a template for a run: the network is inserted, and then the other placeholders
are replaced in a single scan. -/
def fill (run : Run) (text : String) : String :=
  scanText run.placeholders.tail (scanText [("[SATELLITE-NETWORK]", run.network)] text)

section Runs

variable {e : Experiment} {runs : List Run} (hruns : e.runs = .ok runs) (hrun : run ∈ runs)

include hruns hrun

/-- **All values of a run are inert** but its network. -/
lemma isInert_of_mem_tail {p : String × String} (h : p ∈ run.placeholders.tail) :
    IsInert p.2.toList := by
  obtain ⟨choice, -, hgives⟩ := Experiment.exists_choice_of_mem_runs hruns hrun
  have hstate : IsInert run.dynamicState.toList := by
    rw [hgives.dynamicState]
    exact e.isInert_dynamicState
  have hnode : ∀ n : NodeId, IsInert (toString n).toList := by
    intro n
    rw [toList_toString_node]
    exact isInert_digits n.toNat
  have hflag : ∀ flag : Bool, IsInert (toString flag).toList := by decide
  have hclient : ∀ client : Client, IsInert client.name.toList := by
    intro client
    cases client <;> decide
  have hreal : ∀ x : Float, IsInert (Binary64.write realLayout x).toList :=
    Binary64.isInert_write realLayout
  have hall : ∀ p ∈ run.placeholders.tail, IsInert p.2.toList := by
    simp only [placeholders, List.tail_cons, List.forall_mem_cons]
    exact ⟨hstate, isInert_toString _, isInert_toString _, hreal _, hreal _, isInert_toString _,
      isInert_toString _, hflag _, isInert_toString _, hnode _, hnode _, hreal _, hreal _,
      hclient _, by simp⟩
  exact hall p h

/-- None of these values completes a placeholder. -/
lemma pairwise_tail : run.placeholders.tail.Pairwise fun earlier later =>
    ¬ Completes earlier.2.toList later.1.toList := by
  refine List.pairwise_of_forall_mem_list fun earlier hearlier later hlater => ?_
  exact not_completes_of_isInert (isInert_of_mem_tail hruns hrun hearlier)
    (List.mem_of_mem_tail hlater)

/-- **What replacing one after the other comes to**: the network first, and then all other
placeholders at once. -/
lemma substituteText_placeholders (text : String) :
    Files.substituteText run.placeholders text = run.fill text := by
  have hkeys : ∀ p ∈ run.placeholders, IsBracketed p.1.toList := fun _ =>
    isBracketed_of_mem_placeholders
  have hsplit : Files.substituteText run.placeholders text =
      Files.substituteText run.placeholders.tail
        (Files.substituteText [("[SATELLITE-NETWORK]", run.network)] text) :=
    substituteText_cons _ run.placeholders.tail text
  have hfirst : Files.substituteText [("[SATELLITE-NETWORK]", run.network)] text =
      scanText [("[SATELLITE-NETWORK]", run.network)] text := by
    refine substituteText_eq_scanText ?_ (by simp) (by simp) text
    simp only [List.mem_singleton, forall_eq]
    exact hkeys _ List.mem_cons_self
  rw [hsplit, hfirst, fill]
  exact substituteText_eq_scanText (fun p hp => hkeys p (List.mem_of_mem_tail hp))
    (List.nodup_cons.mp run.nodup_placeholders).2 (pairwise_tail hruns hrun) _

/-- **A network is only inserted** if and only if it completes no other placeholder.

**Proof sketch.** If it completes none, no value completes a later placeholder, and replacing one
after the other is a single scan (`substituteText_eq_scanText`). If it completes one, the
placeholder of the network with the missing text around it is such a text (`exists_scan_ne`). -/
lemma fill_eq_scanText_iff : (∀ text, run.fill text = scanText run.placeholders text) ↔
    ∀ p ∈ run.placeholders.tail, ¬ Completes run.network.toList p.1.toList := by
  have hcons : run.placeholders = ("[SATELLITE-NETWORK]", run.network) :: run.placeholders.tail :=
    rfl
  have hkeys : ∀ p ∈ run.placeholders, IsBracketed p.1.toList := fun _ =>
    isBracketed_of_mem_placeholders
  constructor
  · intro h p hp hcompletes
    have hmem : Prod.map String.toList String.toList p ∈
        run.placeholders.tail.map (Prod.map String.toList String.toList) := List.mem_map_of_mem hp
    obtain ⟨text, hne⟩ := exists_scan_ne (hkeys _ List.mem_cons_self)
      (List.forall_mem_map.mpr fun r hr => hkeys r (List.mem_of_mem_tail hr))
      (List.forall_mem_map.mpr fun r hr => (isInert_of_mem_tail hruns hrun hr).opening)
      hmem hcompletes
    have hsame := congrArg String.toList (h (String.ofList text))
    simp only [fill, scanText, String.toList_ofList] at hsame
    exact hne hsame
  · intro h text
    rw [← substituteText_placeholders hruns hrun]
    refine substituteText_eq_scanText hkeys run.nodup_placeholders ?_ text
    rw [hcons, List.pairwise_cons]
    exact ⟨h, pairwise_tail hruns hrun⟩

end Runs

end Run

namespace Materializer

variable {m : Materializer} {run : Run} {tree tree' : FileTree} {path : Path}

/-- **What is written for a run** is the template with its placeholders replaced one after the
other, in whatever tree this succeeds. A template that is the configuration file itself is emptied
before it is read. -/
lemma entryAt_of_run {text : String} (hentry : tree.entryAt m.template = .ok (.file text.toUTF8))
    (h : (m.materialize run).run tree = (.ok path, tree')) :
    path = m.configurationPath run ∧ tree'.entryAt path = .ok (.file (Files.substituteText
      run.placeholders (if m.template.goal = path.goal then "" else text)).toUTF8) := by
  obtain ⟨_, cleared, hrecreate, hrest⟩ := Files.run_bind_eq_ok h
  obtain ⟨_, copied, hcopy, hrest⟩ := Files.run_bind_eq_ok hrest
  obtain ⟨_, filled, hsubstitute, hpure⟩ := Files.run_bind_eq_ok hrest
  cases hpure
  refine ⟨rfl, ?_⟩
  have hcopy := run_of_run_atPath hcopy
  obtain ⟨⟨content, hcontent⟩, hresolve, hmay, hplain⟩ := Files.exists_of_run_copy hcopy
  -- the template has not come into being with the directory of the run
  obtain rfl : content = text.toUTF8 := by
    have hfound : (((Files.recreate (m.runDirectory run)).run tree).2).lookUp m.template.goal =
        some (.file content) := by
      rw [run_of_run_atPath hrecreate]
      exact (FileTree.entryAt_eq_file_iff.mp hcontent).2.2
    have hbefore := Files.bringsNoFile_recreate _ tree _ content hfound
    rw [(FileTree.entryAt_eq_file_iff.mp hentry).2.2] at hbefore
    cases hbefore
    rfl
  obtain ⟨again, hagain, hput⟩ := Files.run_copy hcontent hresolve hmay hplain
  obtain rfl : again = copied := (Prod.mk.inj (hagain.symm.trans hcopy)).2
  have htext : (if m.template.goal = (m.configurationPath run).goal then ByteArray.empty
      else text.toUTF8) =
        (if m.template.goal = (m.configurationPath run).goal then "" else text).toUTF8 := by
    split <;> rfl
  rw [htext] at hput
  obtain ⟨again, hagain, hput'⟩ := Files.run_substitute (hput.entryAt hplain hresolve hmay)
    (Symbol.fromUTF8?_toUTF8 _) run.placeholders
  obtain rfl : again = tree' :=
    (Prod.mk.inj (hagain.symm.trans (run_of_run_atPath hsubstitute))).2
  exact hput'.entryAt (by rw [hput.put]; simp) (hput.resolve hplain hresolve) hmay

/-- **What the configuration file of a run holds.** It is written where nothing is in the way, and
wherever it is written, it is the template with the network of the run inserted, and then with all
other placeholders replaced in a single scan. For every template this is the same as a single scan
for all placeholders if and only if the network completes no other placeholder. -/
theorem materialize_fills {e : Experiment} {runs : List Run} {run : Run}
    (hruns : e.runs = .ok runs) (hrun : run ∈ runs) :
    (∀ (m : Materializer) (tree : FileTree) (text : String), m.IsReady run tree →
      tree.entryAt m.template = .ok (.file text.toUTF8) →
        ∃ tree', (m.materialize run).run tree = (.ok (m.configurationPath run), tree')) ∧
      (∀ (m : Materializer) (tree tree' : FileTree) (path : Path) (text : String),
        tree.entryAt m.template = .ok (.file text.toUTF8) →
        (m.materialize run).run tree = (.ok path, tree') →
          path = m.configurationPath run ∧ tree'.entryAt path =
            .ok (.file (run.fill (if m.template.goal = path.goal then "" else text)).toUTF8)) ∧
      ((∀ text, run.fill text = scanText run.placeholders text) ↔
        ∀ p ∈ run.placeholders.tail, ¬ Completes run.network.toList p.1.toList) := by
  refine ⟨fun m tree text hready hentry => ?_, fun m tree tree' path text hentry h => ?_,
    Run.fill_eq_scanText_iff hruns hrun⟩
  · obtain ⟨tree', hwritten, -⟩ := hready.exists_writes (Experiment.isPlain_name hruns hrun) hentry
      (Symbol.fromUTF8?_toUTF8 text)
    exact ⟨tree', hwritten⟩
  · rw [← Run.substituteText_placeholders hruns hrun]
    exact entryAt_of_run hentry h

end Materializer

/-! ## A network that is a placeholder -/

namespace Experiment

/-- An experiment with a single run on some network. -/
def onNetwork (network : String) : Experiment :=
  { single with topologies := [⟨"t", ⟨some network, none⟩⟩] }

/-- What there is to know of the only run on some network. -/
lemma exists_run_onNetwork {network : String} (h : (onNetwork network).runs.toOption.map
      (·.map fun run => (run.name, run.network, run.source)) =
    some [("t_1_to_2_with_Ping_paired_loss_0_0", network, 1)]) :
    ∃ run, (onNetwork network).runs = .ok [run] ∧
      run.name = "t_1_to_2_with_Ping_paired_loss_0_0" ∧ run.network = network ∧ run.source = 1 := by
  obtain ⟨run, hruns, hrun⟩ := exists_run_of_map h
  simp only [Prod.mk.injEq] at hrun
  exact ⟨run, hruns, hrun⟩

end Experiment

namespace Materializer

/-- A tree with a template that asks for the network only. -/
def nestedTree : FileTree :=
  .ofList [(["t.txt"], .file "a=[SATELLITE-NETWORK]\n".toUTF8), (["e"], .directory)]

/-- The template and the experiment directory of this tree. -/
def nested : Materializer := ⟨⟨"t.txt"⟩, ⟨"e"⟩⟩

/-- Nothing is in the way of a run of this name. -/
lemma isReady_nested {run : Run} (hname : run.name = "t_1_to_2_with_Ping_paired_loss_0_0") :
    nested.IsReady run nestedTree := by
  have hplain : FileTree.IsPlain run.name := hname ▸ ⟨by decide, by decide, by decide⟩
  have husable : (nested.configurationPath run).IsUsable := by
    rw [configurationPath_eq nested hplain, hname]
    refine ⟨by decide +kernel, by decide +kernel, by decide +kernel, ?_⟩
    unfold FileTree.IsShort
    decide +kernel
  have hparents : nestedTree.HasParents := by
    apply FileTree.hasParents_of_entries
    rw [nestedTree, FileTree.ofList]
    simp only [List.map_cons, List.map_nil, List.forall_mem_cons]
    exact ⟨Or.inr rfl, Or.inr rfl, by simp⟩
  have hparts : nested.directory.parts = ["e"] := by decide
  exact isReady_single hname (by rw [Path.goal, hparts]; rfl) rfl husable hparents
    (by decide +kernel) (Or.inr rfl) (by rw [Path.walk, hparts]; decide)

/-- The template is not the configuration file of such a run. -/
lemma goal_nested_ne {run : Run} (hname : run.name = "t_1_to_2_with_Ping_paired_loss_0_0") :
    nested.template.goal ≠ (nested.configurationPath run).goal := by
  have hplain : FileTree.IsPlain run.name := hname ▸ ⟨by decide, by decide, by decide⟩
  rw [goal_configurationPath nested hplain]
  exact (isReady_nested hname).goal_ne_file

/-- **A network that is a placeholder is replaced itself**: the number of the source is written
where a single scan leaves the name of the network. -/
theorem materialize_nested : ∃ run path tree',
    (Experiment.onNetwork "[FROM-ID]").runs = .ok [run] ∧
      nestedTree.entryAt nested.template = .ok (.file "a=[SATELLITE-NETWORK]\n".toUTF8) ∧
      (nested.materialize run).run nestedTree = (.ok path, tree') ∧
      tree'.entryAt path = .ok (.file "a=1\n".toUTF8) ∧
      scanText run.placeholders "a=[SATELLITE-NETWORK]\n" = "a=[FROM-ID]\n" := by
  obtain ⟨run, hruns, hname, hnetwork, hsource⟩ :=
    Experiment.exists_run_onNetwork (show _ = some [(_, "[FROM-ID]", 1)] by decide +kernel)
  have hplain : FileTree.IsPlain run.name := hname ▸ ⟨by decide, by decide, by decide⟩
  have htemplate : nestedTree.entryAt nested.template =
      .ok (.file "a=[SATELLITE-NETWORK]\n".toUTF8) := rfl
  obtain ⟨tree', hrun, -⟩ := (isReady_nested hname).exists_writes hplain htemplate
    (Symbol.fromUTF8?_toUTF8 _)
  have hfirst : scanText [("[SATELLITE-NETWORK]", "[FROM-ID]")] "a=[SATELLITE-NETWORK]\n" =
      "a=[FROM-ID]\n" := rfl
  have hfill : run.fill "a=[SATELLITE-NETWORK]\n" = "a=1\n" := by
    rw [Run.fill, hnetwork, hfirst, Run.placeholders, hsource]
    rfl
  obtain ⟨-, hentry⟩ := entryAt_of_run htemplate hrun
  refine ⟨run, _, tree', hruns, htemplate, hrun, ?_, ?_⟩
  · rw [hentry, if_neg (goal_nested_ne hname),
      Run.substituteText_placeholders hruns List.mem_cons_self, hfill]
  · rw [Run.placeholders, hnetwork]
    rfl

/-- A network that completes no placeholder is inserted as it is. -/
theorem materialize_fills_plain : ∃ run path tree',
    (Experiment.onNetwork "n").runs = .ok [run] ∧
      (nested.materialize run).run nestedTree = (.ok path, tree') ∧ tree'.entryAt path =
        .ok (.file (scanText run.placeholders "a=[SATELLITE-NETWORK]\n").toUTF8) := by
  obtain ⟨run, hruns, hname, hnetwork, -⟩ :=
    Experiment.exists_run_onNetwork (show _ = some [(_, "n", 1)] by decide +kernel)
  obtain ⟨hwritten, hfills, honly⟩ := materialize_fills hruns List.mem_cons_self
  obtain ⟨tree', hrun⟩ := hwritten nested nestedTree _ (isReady_nested hname) rfl
  obtain ⟨-, hentry⟩ := hfills nested nestedTree tree' _ "a=[SATELLITE-NETWORK]\n" rfl hrun
  have hinert : IsInert run.network.toList := by
    rw [hnetwork]
    decide
  have hscan := honly.mpr fun p hp =>
    Run.not_completes_of_isInert hinert (List.mem_of_mem_tail hp)
  refine ⟨run, _, tree', hruns, hrun, ?_⟩
  rw [hentry, if_neg (goal_nested_ne hname), hscan]

end Materializer

end Constellation
