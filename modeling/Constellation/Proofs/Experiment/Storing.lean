import Constellation.Experiment.Run
import Constellation.Proofs.FileTree.Relating
import Constellation.Proofs.FileTree.Writing
import Constellation.Proofs.Json.Formats
set_option autoImplicit false

/-!
# Stored descriptions and run lists load back

## Main definitions

* `Experiment.IsStorable`, `Run.IsStorable` — the doubles of a description or of a run are read
  back.
* `LoadsBack` — what is stored under a path is loaded from it, whatever stood there before.

## Main results

* `Experiment.keeps`, `Run.keeps` — the formats keep descriptions and runs.
* `loadsBack_storeAs` — a value that its format keeps loads back.
* `stored_loads_back` — descriptions and lists of runs load back.

## Design

Only doubles can get lost in a file, since they are printed as decimals. A loss ratio is stored as
its text, which is checked again when it is loaded, and its value is a function of that text.
-/

namespace Constellation

open Json

/-! ## Axes -/

/-- Clients are kept by name. -/
lemma Client.keeps (client : Client) : Client.format.Keeps client :=
  Format.keeps_variant (by cases client <;> decide +kernel)

/-- Algorithms are kept by name. -/
lemma Algorithm.keeps (algorithm : Algorithm) : Algorithm.format.Keeps algorithm :=
  Format.keeps_variant (by cases algorithm <;> decide +kernel)

/-- Networks are kept, whichever of them there are. -/
lemma Networks.keeps (networks : Networks) : Networks.format.Keeps networks := by
  obtain ⟨paired, free⟩ := networks
  refine ⟨.record ?_, ?_⟩
  · intro member hmember
    obtain ⟨entry, -, rfl⟩ := List.mem_map.mp hmember
    exact .text _
  · cases paired <;> cases free <;> rfl

/-- Topologies are kept. -/
lemma Topology.keeps (topology : Topology) : Topology.fields.toFormat.Keeps topology :=
  RecordFormat.keeps (by decide)
    (.cons (Field.restores_of (Format.keeps_text _)) <|
      .cons (Field.restores_of (Networks.keeps _)) .nil)
    rfl

/-- Pairs of ground stations are kept. -/
lemma EndpointPair.keeps (pair : EndpointPair) : EndpointPair.fields.toFormat.Keeps pair :=
  RecordFormat.keeps (by decide)
    (.cons (Field.restores_of (Format.keeps_word _)) <|
      .cons (Field.restores_of (Format.keeps_word _)) <|
      .cons (Field.restores_of (Format.keeps_text _)).orBlank .nil)
    rfl

/-- Loss ratios are kept: their text is accepted again. -/
lemma LossRatio.keeps (loss : LossRatio) : LossRatio.format.Keeps loss := by
  refine ⟨.text _, ?_⟩
  have hread : Format.text.read (reading (.text loss.label)) = .ok loss.label := rfl
  simp only [LossRatio.format, hread, bind, Except.bind, loss.ofLabel_label]
  rfl

/-! ## Descriptions and runs -/

/-- The data rates of a description are read back. -/
structure Experiment.IsStorable (e : Experiment) : Prop where
  /-- The data rate between satellites. -/
  islRate : ReadsBack e.islRate
  /-- The data rate to the ground. -/
  gslRate : ReadsBack e.gslRate

/-- **Descriptions are kept.** -/
lemma Experiment.keeps {e : Experiment} (h : e.IsStorable) : Experiment.format.Keeps e :=
  RecordFormat.keeps (by decide)
    (.cons (Field.restores_of (Format.keeps_long _)).orBlank <|
      .cons (Field.restores_of (Format.keeps_long _)).orBlank <|
      .cons (Field.restores_of (Format.keeps_boolean _)).orBlank <|
      .cons (Field.restores_of (Format.keeps_long _)).orBlank <|
      .cons (Field.restores_of (Format.keeps_real h.islRate)).orBlank <|
      .cons (Field.restores_of (Format.keeps_long _)).orBlank <|
      .cons (Field.restores_of (Format.keeps_real h.gslRate)).orBlank <|
      .cons (Field.restores_of (Format.keeps_long _)).orBlank <|
      .cons (Field.restores_of (Format.keeps_list fun _ _ => Topology.keeps _)).orBlank <|
      .cons (Field.restores_of (Format.keeps_list fun _ _ => EndpointPair.keeps _)).orBlank <|
      .cons (Field.restores_of (Format.keeps_list fun _ _ => Client.keeps _)).orBlank <|
      .cons (Field.restores_of (Format.keeps_list fun _ _ => Algorithm.keeps _)).orBlank <|
      .cons (Field.restores_of (Format.keeps_list fun _ _ => LossRatio.keeps _)).orBlank .nil)
    rfl

/-- The doubles of a run are read back. -/
structure Run.IsStorable (run : Run) : Prop where
  /-- The data rate between satellites. -/
  islRate : ReadsBack run.islRate
  /-- The data rate to the ground. -/
  gslRate : ReadsBack run.gslRate
  /-- The share of packets lost between satellites. -/
  islErrorRate : ReadsBack run.islErrorRate
  /-- The share of packets lost on the way to the ground. -/
  gslErrorRate : ReadsBack run.gslErrorRate

/-- **Runs are kept.** -/
lemma Run.keeps {run : Run} (h : run.IsStorable) : Run.format.Keeps run :=
  RecordFormat.keeps (by decide)
    (.cons (Field.restores_of (Format.keeps_text _)) <|
      .cons (Field.restores_of (Format.keeps_text _)) <|
      .cons (Field.restores_of (Format.keeps_text _)) <|
      .cons (Field.restores_of (Format.keeps_text _)) <|
      .cons (Field.restores_of (Format.keeps_long _)) <|
      .cons (Field.restores_of (Format.keeps_long _)) <|
      .cons (Field.restores_of (Format.keeps_real h.islRate)) <|
      .cons (Field.restores_of (Format.keeps_long _)) <|
      .cons (Field.restores_of (Format.keeps_real h.gslRate)) <|
      .cons (Field.restores_of (Format.keeps_long _)) <|
      .cons (Field.restores_of (Format.keeps_boolean _)) <|
      .cons (Field.restores_of (Format.keeps_long _)) <|
      .cons (Field.restores_of (Format.keeps_word _)) <|
      .cons (Field.restores_of (Format.keeps_word _)) <|
      .cons (Field.restores_of (Format.keeps_text _)) <|
      .cons (Field.restores_of (Client.keeps _)) <|
      .cons (Field.restores_of (Algorithm.keeps _)) <|
      .cons (Field.restores_of (Format.keeps_real h.islErrorRate)) <|
      .cons (Field.restores_of (Format.keeps_real h.gslErrorRate)) .nil)
    rfl

/-! ## Files -/

section Files

variable {α : Type} {format : Format α} {a : α} {tree : FileTree} {p : Path}

/-- Storing writes the text of the value. -/
lemma run_storeAs (h : tree.resolve p = .ok p.goal) (hfree : FileTree.demandsDirectory p = false)
    (hgoal : tree.lookUp p.goal ≠ some .directory) (a : α) : ∃ tree',
      (storeAs format p a).run tree = (.ok (), tree') ∧
        tree.HasPut tree' p (format.encode a).toUTF8 := by
  obtain ⟨tree', hwrite, hput⟩ := Files.run_writeBytes h hfree hgoal (format.encode a).toUTF8
  refine ⟨tree', ?_, hput⟩
  rw [storeAs, Files.run_blame, Files.write, hwrite]
  rfl

/-- Whatever has been stored is there. -/
lemma hasPut_of_run_storeAs {tree' : FileTree}
    (h : (storeAs format p a).run tree = (.ok (), tree')) :
    tree.HasPut tree' p (format.encode a).toUTF8 ∧
      tree'.entryAt p = .ok (.file (format.encode a).toUTF8) := by
  rw [storeAs, Files.run_blame] at h
  rcases hwrite : (Files.write p (format.encode a)).run tree with ⟨fault | _, after⟩
  · rw [hwrite] at h
    cases h
  · rw [hwrite] at h
    cases h
    obtain ⟨hresolve, hfree, hgoal, hput⟩ := Files.exists_of_run_writeBytes hwrite
    exact ⟨hput, hput.entryAt hgoal hresolve hfree⟩

/-- Nothing is stored where no file can be written. -/
lemma run_storeAs_of_error {fault : FileFault} (h : Files.target tree p = .error fault) (a : α) :
    (storeAs format p a).run tree = (.error (.file fault), tree) := by
  rw [storeAs, Files.run_blame, Files.write, Files.run_writeBytes_of_error h]
  rfl

/-- Loading changes nothing. -/
lemma tree_run_loadAs (format : Format α) (p : Path) (tree : FileTree) :
    ((loadAs format p).run tree).2 = tree := by
  have hload : Files.Relates (· = ·) (loadAs format p) := by
    refine (Files.relates_readText p).blame.bind fun text => ?_
    split
    · exact Files.relates_pure _
    · exact Files.relates_throw _
  exact (hload tree).symm

/-- The text of a file is decoded. -/
lemma run_loadAs_eq {text : String} (hentry : tree.entryAt p = .ok (.file text.toUTF8)) :
    (loadAs format p).run tree = ((format.decode text.toList).mapError .json, tree) := by
  have hread : (Files.readText p).run tree = (.ok text, tree) := by
    rw [Files.readText, Files.run_bind_ok (Files.run_readBytes hentry), Symbol.fromUTF8?_toUTF8]
    rfl
  have hblame : (Files.blame ExperimentFault.file (Files.readText p)).run tree =
      (.ok text, tree) := by
    rw [Files.run_blame, hread]
    rfl
  rw [loadAs, Files.run_bind_ok hblame]
  cases format.decode text.toList <;> rfl

/-- What a format keeps is loaded from a file with its text. -/
lemma run_loadAs (h : format.Keeps a)
    (hentry : tree.entryAt p = .ok (.file (format.encode a).toUTF8)) :
    (loadAs format p).run tree = (.ok a, tree) := by
  rw [run_loadAs_eq hentry, h.decode_encode]
  rfl

end Files

/-- A value that is stored under a path with a given text is loaded from it. -/
structure LoadsBack {α : Type} (store : Path → α → Files ExperimentFault Unit)
    (load : Path → Files ExperimentFault α) (a : α) (text : String) : Prop where
  /-- Wherever a file can be written, the text replaces what the file held before, nothing else
  changes, and the value is loaded. -/
  stored : ∀ {tree p l}, Files.target tree p = .ok l → ∃ tree',
    (store p a).run tree = (.ok (), tree') ∧ tree.HasPut tree' p text.toUTF8 ∧
      (load p).run tree' = (.ok a, tree')
  /-- Elsewhere nothing is stored. -/
  refused : ∀ {tree p fault}, Files.target tree p = .error fault →
    (store p a).run tree = (.error (.file fault), tree)

/-- **A value that its format keeps loads back.** -/
lemma loadsBack_storeAs {α : Type} {format : Format α} {a : α} (h : format.Keeps a) :
    LoadsBack (storeAs format) (loadAs format) a (format.encode a) where
  stored := by
    intro tree p l htarget
    obtain ⟨hresolve, hfree, hgoal, -⟩ := Files.target_eq_ok_iff.mp htarget
    obtain ⟨tree', hstore, hput⟩ := run_storeAs hresolve hfree hgoal a
    exact ⟨tree', hstore, hput, run_loadAs h (hput.entryAt hgoal hresolve hfree)⟩
  refused := fun htarget => run_storeAs_of_error htarget a

/-- **Stored files load back.** A description and a list of runs whose doubles are read back from
their decimals, with any texts in them, are loaded from the file in which they have been stored,
whatever the file held before.

**Proof sketch.** The formats keep every field (`Experiment.keeps`, `Run.keeps`): an enumeration by
its name, a loss ratio by a text that is accepted again, the networks of a topology under the names
of their algorithms, and everything else by numbers and texts. A value that is kept is decoded from
its text, because that text follows the grammar (`Json.Storable.spells`) and the reader retraces
every value, item and member of such a text (`Json.Spells.isRead`). Writing a file replaces its
content. -/
theorem stored_loads_back (e : Experiment) (runs : List Run) :
    (e.IsStorable →
      LoadsBack Experiment.store Experiment.load e (Experiment.format.encode e)) ∧
    ((∀ run ∈ runs, run.IsStorable) →
      LoadsBack Run.storeList Run.loadList runs (Run.listFormat.encode runs)) :=
  ⟨fun h => loadsBack_storeAs (Experiment.keeps h),
    fun h => loadsBack_storeAs (Format.keeps_list fun run hrun => Run.keeps (h run hrun))⟩

/-- A run with a name that needs every kind of escape. -/
def Run.escaped : Run :=
  { Run.blank with
    name := "a\"b\\c\n\x01\u00e9", islRate := 10000.0, gslRate := 0.1, islErrorRate := 1e-5 }

/-- A tree with a long file that is going to be replaced. -/
def FileTree.overfull : FileTree :=
  .ofList [(["e.json"], .file (String.ofList (List.replicate 5000 '[')).toUTF8)]

/-- The standard description and a run with all escapes are loaded after they have replaced a longer
file. -/
theorem stored_loads_back_sample :
    Experiment.standard.IsStorable ∧ (∀ run ∈ [Run.escaped], run.IsStorable) ∧
      (∃ tree', (Experiment.store ⟨"e.json"⟩ Experiment.standard).run FileTree.overfull =
        (.ok (), tree') ∧
          (Experiment.load ⟨"e.json"⟩).run tree' = (.ok Experiment.standard, tree')) ∧
      ∃ tree', (Run.storeList ⟨"e.json"⟩ [Run.escaped]).run FileTree.overfull = (.ok (), tree') ∧
        (Run.loadList ⟨"e.json"⟩).run tree' = (.ok [Run.escaped], tree') := by
  have hstandard : Experiment.standard.IsStorable := ⟨by decide +kernel, by decide +kernel⟩
  have hescaped : ∀ run ∈ [Run.escaped], run.IsStorable :=
    List.forall_mem_singleton.mpr
      ⟨by decide +kernel, by decide +kernel, by decide +kernel, by decide +kernel⟩
  have htarget : Files.target FileTree.overfull ⟨"e.json"⟩ = .ok ["e.json"] := by decide +kernel
  obtain ⟨hexperiment, hruns⟩ := stored_loads_back Experiment.standard [Run.escaped]
  obtain ⟨tree, hstore, -, hload⟩ := (hexperiment hstandard).stored htarget
  obtain ⟨tree', hstore', -, hload'⟩ := (hruns hescaped).stored htarget
  exact ⟨hstandard, hescaped, ⟨tree, hstore, hload⟩, tree', hstore', hload'⟩

end Constellation
