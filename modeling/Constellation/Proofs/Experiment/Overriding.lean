import Mathlib.Data.List.Permutation
import Constellation.Proofs.Experiment.Storing
import Constellation.Proofs.Json.Meanings
set_option autoImplicit false

/-!
# Descriptions that leave out fields

A stored description may leave out fields, may have its members in any order and may have members
that nobody knows. It is loaded as the standard description with the given fields replaced.

## Main definitions

* `Networks.meaning`, `Topology.meaning`, `EndpointPair.meaning`, `Experiment.entries` — how a text
  gives the values of the axes and of a description.
* `Experiment.overriding` — the standard description with some fields replaced.
* `Experiment.IsGivenBy` — a text gives certain fields of a description.
* `Experiment.IsFaulty` — a field is given twice, or a loss ratio is not accepted.

## Main results

* `Experiment.follows` — each field that is given replaces that of the standard description.
* `Experiment.IsStorable.isGivenBy` — every choice of fields is given by what is stored for it.
* `Experiment.load_partial` — partial descriptions are loaded, and faulty ones are refused.
-/

namespace Constellation

open Json

/-! ## Axes -/

/-- What means certain networks: their names under those of their algorithms, in any order. -/
def Networks.meaning (networks : Networks) : Meaning :=
  .dictionary (networks.toList.map fun (algorithm, network) => (algorithm.name, network))

/-- Networks are admitted, in whichever order they are given. -/
lemma Networks.admits (networks : Networks) :
    Networks.format.Admits networks.meaning networks := by
  rintro _ ⟨members, hperm, rfl⟩ -
  obtain ⟨paired, free⟩ := networks
  cases paired <;> cases free
  · obtain rfl := List.perm_nil.mp hperm
    rfl
  · obtain rfl := List.perm_singleton.mp hperm
    rfl
  · obtain rfl := List.perm_singleton.mp hperm
    rfl
  · rcases List.perm_pair.mp hperm with rfl | rfl <;> rfl

/-- What is stored for networks means them. -/
lemma Networks.meaning_write (networks : Networks) :
    networks.meaning (Networks.format.write networks).reading := by
  refine ⟨_, .refl _, ?_⟩
  simp only [Networks.format, reading, memberReadings_eq_map, List.map_map]
  rfl

/-- What the fields of a topology have to say. -/
def Topology.entries (topology : Topology) : List (String × Meaning) :=
  [("name", .text topology.name), ("satellite_networks", topology.networks.meaning)]

/-- What means a topology. -/
def Topology.meaning (topology : Topology) : Meaning :=
  .record topology.entries {"name", "satellite_networks"}

/-- The topology of which some fields have been given. -/
def Topology.overriding (topology : Topology) (given : Finset String) : Topology where
  name := if "name" ∈ given then topology.name else ""
  networks := if "satellite_networks" ∈ given then topology.networks else ⟨none, none⟩

/-- Topologies are admitted. -/
lemma Topology.admits (topology : Topology) :
    Topology.fields.toFormat.Admits topology.meaning topology := by
  have hfollows : Topology.fields.Follows topology.entries topology.overriding :=
    { nodup := by decide
      blank := by simp [Topology.overriding, Topology.fields]
      moves :=
        .cons (Field.moves_of (Format.admits_text _) (by simp [Topology.overriding])) <|
        .cons (Field.moves_of topology.networks.admits (by simp [Topology.overriding])) .nil }
  refine hfollows.admits (by decide) fun given hgiven => ?_
  simp [Topology.overriding, hgiven (show "name" ∈ _ by decide),
    hgiven (show "satellite_networks" ∈ _ by decide)]

/-- What is stored for a topology means it. -/
lemma Topology.meaning_write (topology : Topology) :
    topology.meaning (Topology.fields.toFormat.write topology).reading :=
  RecordFormat.IsMeant.record
    (.cons ⟨rfl, rfl⟩ <| .cons ⟨rfl, topology.networks.meaning_write⟩ .nil) (by decide) (by decide)

/-- What the fields of a pair of ground stations have to say. -/
def EndpointPair.entries (pair : EndpointPair) : List (String × Meaning) :=
  [("from", .natural pair.source.toNat), ("to", .natural pair.destination.toNat),
    ("label", .text pair.label)]

/-- What means a pair of ground stations. An empty description need not be given. -/
def EndpointPair.meaning (pair : EndpointPair) : Meaning :=
  .record pair.entries (if pair.label = "" then {"from", "to"} else {"from", "to", "label"})

/-- The pair of ground stations of which some fields have been given. -/
def EndpointPair.overriding (pair : EndpointPair) (given : Finset String) : EndpointPair where
  source := if "from" ∈ given then pair.source else 0
  destination := if "to" ∈ given then pair.destination else 0
  label := if "label" ∈ given then pair.label else ""

/-- Pairs of ground stations are admitted. -/
lemma EndpointPair.admits (pair : EndpointPair) :
    EndpointPair.fields.toFormat.Admits pair.meaning pair := by
  have hfollows : EndpointPair.fields.Follows pair.entries pair.overriding :=
    { nodup := by decide
      blank := by simp [EndpointPair.overriding, EndpointPair.fields]
      moves :=
        .cons (Field.moves_of (Format.admits_word _) (by simp [EndpointPair.overriding])) <|
        .cons (Field.moves_of (Format.admits_word _) (by simp [EndpointPair.overriding])) <|
        .cons (Field.moves_of (Format.admits_text _)
          (by simp [EndpointPair.overriding])).orBlank .nil }
  by_cases hlabel : pair.label = ""
  · rw [EndpointPair.meaning, if_pos hlabel]
    refine hfollows.admits (by decide) fun given hgiven => ?_
    obtain ⟨source, destination, label⟩ := pair
    obtain rfl : label = "" := hlabel
    simp [EndpointPair.overriding, hgiven (show "from" ∈ _ by decide),
      hgiven (show "to" ∈ _ by decide)]
  · rw [EndpointPair.meaning, if_neg hlabel]
    refine hfollows.admits (by decide) fun given hgiven => ?_
    simp [EndpointPair.overriding, hgiven (show "from" ∈ _ by decide),
      hgiven (show "to" ∈ _ by decide), hgiven (show "label" ∈ _ by decide)]

/-- What is stored for a pair of ground stations means it. -/
lemma EndpointPair.meaning_write (pair : EndpointPair) :
    pair.meaning (EndpointPair.fields.toFormat.write pair).reading := by
  refine RecordFormat.IsMeant.record (.cons ⟨rfl, rfl⟩ <| .cons ⟨rfl, rfl⟩ <| .cons ⟨rfl, rfl⟩ .nil)
    (by decide) ?_
  split <;> decide

/-! ## Descriptions -/

namespace Experiment

variable {e : Experiment}

/-- What the fields of a description have to say. -/
def entries (e : Experiment) : List (String × Meaning) :=
  [("dynamic_state_update_interval_ms", .natural e.updateIntervalMs.toNat),
    ("simulation_end_time_s", .natural e.endTimeS.toNat),
    ("enable_isl_utilization_tracking", .boolean e.trackUtilization),
    ("isl_utilization_tracking_interval_ns", .natural e.trackingIntervalNs.toNat),
    ("isl_data_rate_megabit_per_s", .real e.islRate),
    ("isl_queue_size_pkt", .natural e.islQueue.toNat),
    ("gsl_data_rate_megabit_per_s", .real e.gslRate),
    ("gsl_queue_size_pkt", .natural e.gslQueue.toNat),
    ("topologies", .list Topology.meaning e.topologies),
    ("pairs", .list EndpointPair.meaning e.pairs),
    ("clients", .list (fun client => .text client.name) e.clients),
    ("algorithms", .list (fun algorithm => .text algorithm.name) e.algorithms),
    ("loss_ratios", .list (fun loss => .text loss.label) e.lossRatios)]

/-- The standard description with the fields `given` replaced by those of another one. -/
def overriding (e : Experiment) (given : Finset String) : Experiment where
  updateIntervalMs :=
    if "dynamic_state_update_interval_ms" ∈ given then e.updateIntervalMs
    else standard.updateIntervalMs
  endTimeS := if "simulation_end_time_s" ∈ given then e.endTimeS else standard.endTimeS
  trackUtilization :=
    if "enable_isl_utilization_tracking" ∈ given then e.trackUtilization
    else standard.trackUtilization
  trackingIntervalNs :=
    if "isl_utilization_tracking_interval_ns" ∈ given then e.trackingIntervalNs
    else standard.trackingIntervalNs
  islRate := if "isl_data_rate_megabit_per_s" ∈ given then e.islRate else standard.islRate
  islQueue := if "isl_queue_size_pkt" ∈ given then e.islQueue else standard.islQueue
  gslRate := if "gsl_data_rate_megabit_per_s" ∈ given then e.gslRate else standard.gslRate
  gslQueue := if "gsl_queue_size_pkt" ∈ given then e.gslQueue else standard.gslQueue
  topologies := if "topologies" ∈ given then e.topologies else standard.topologies
  pairs := if "pairs" ∈ given then e.pairs else standard.pairs
  clients := if "clients" ∈ given then e.clients else standard.clients
  algorithms := if "algorithms" ∈ given then e.algorithms else standard.algorithms
  lossRatios := if "loss_ratios" ∈ given then e.lossRatios else standard.lossRatios

/-- Nothing is replaced where nothing is given. -/
lemma overriding_empty (e : Experiment) : e.overriding ∅ = standard := by
  simp [overriding]

/-- No field has to be given. -/
lemma optional_of_mem : ∀ field ∈ fields.fields, field.optional = true :=
  List.forall_mem_map.mpr fun _ _ => rfl

/-- **Each field that is given replaces that of the standard description.** -/
lemma follows (e : Experiment) : fields.Follows e.entries e.overriding where
  nodup := by decide
  blank := e.overriding_empty
  moves :=
    .cons (Field.moves_of (Format.admits_long _) (by simp [overriding])).orBlank <|
    .cons (Field.moves_of (Format.admits_long _) (by simp [overriding])).orBlank <|
    .cons (Field.moves_of (Format.admits_boolean _) (by simp [overriding])).orBlank <|
    .cons (Field.moves_of (Format.admits_long _) (by simp [overriding])).orBlank <|
    .cons (Field.moves_of (Format.admits_real _) (by simp [overriding])).orBlank <|
    .cons (Field.moves_of (Format.admits_long _) (by simp [overriding])).orBlank <|
    .cons (Field.moves_of (Format.admits_real _) (by simp [overriding])).orBlank <|
    .cons (Field.moves_of (Format.admits_long _) (by simp [overriding])).orBlank <|
    .cons (Field.moves_of (Format.admits_list fun topology _ => topology.admits)
      (by simp [overriding])).orBlank <|
    .cons (Field.moves_of (Format.admits_list fun pair _ => pair.admits)
      (by simp [overriding])).orBlank <|
    .cons (Field.moves_of (Format.admits_list fun client _ =>
      Format.admits_of_keeps_text client.keeps rfl) (by simp [overriding])).orBlank <|
    .cons (Field.moves_of (Format.admits_list fun algorithm _ =>
      Format.admits_of_keeps_text algorithm.keeps rfl) (by simp [overriding])).orBlank <|
    .cons (Field.moves_of (Format.admits_list fun loss _ =>
      Format.admits_of_keeps_text loss.keeps rfl) (by simp [overriding])).orBlank .nil

/-- What is stored for a description means it. -/
lemma isMeant (e : Experiment) : fields.IsMeant e e.entries :=
  .cons ⟨rfl, rfl⟩ <| .cons ⟨rfl, rfl⟩ <| .cons ⟨rfl, rfl⟩ <| .cons ⟨rfl, rfl⟩ <|
  .cons ⟨rfl, rfl⟩ <| .cons ⟨rfl, rfl⟩ <| .cons ⟨rfl, rfl⟩ <| .cons ⟨rfl, rfl⟩ <|
  .cons ⟨rfl, Meaning.list_map e.topologies Topology.meaning_write⟩ <|
  .cons ⟨rfl, Meaning.list_map e.pairs EndpointPair.meaning_write⟩ <|
  .cons ⟨rfl, Meaning.list_map e.clients fun _ => rfl⟩ <|
  .cons ⟨rfl, Meaning.list_map e.algorithms fun _ => rfl⟩ <|
  .cons ⟨rfl, Meaning.list_map e.lossRatios fun _ => rfl⟩ .nil

/-- The fields of a description whose names are among the given ones, as they are stored. -/
def part (e : Experiment) (given : Finset String) : Json :=
  .record ((fields.fields.filter fun field => field.name ∈ given).map fun field =>
    (field.name, field.write e))

/-- A text is an object that gives the values of a description for certain fields, each once, in any
order and among any unknown members. -/
def IsGivenBy (e : Experiment) (given : Finset String) (text : String) : Prop :=
  ∃ members, Spells text.toList (.slot (.record members true)) ∧ Gives e.entries given members

/-- The names of the fields. -/
def fieldNames : Finset String := (fields.fields.map (·.name)).toFinset

/-- **Every choice of fields can be given**, namely by what is stored for them. -/
lemma IsStorable.isGivenBy (h : e.IsStorable) {given : Finset String}
    (hgiven : given ⊆ fieldNames) : e.IsGivenBy given (e.part given).pretty := by
  have hstorable : (e.part given).Storable := by
    cases (Experiment.keeps h).storable with
    | record hmembers =>
      refine .record fun member hmember => ?_
      obtain ⟨field, hfield, rfl⟩ := List.mem_map.mp hmember
      exact hmembers _ (List.mem_map_of_mem (List.mem_of_mem_filter hfield))
  refine ⟨_, hstorable.spells_pretty, ?_⟩
  have hnames : ((fields.fields.filter fun field => field.name ∈ given).map (·.name)).toFinset =
      given := by
    ext name
    have hname : name ∈ given → ∃ field ∈ fields.fields, field.name = name := fun h => by
      simpa [fieldNames] using hgiven h
    simp only [List.mem_toFinset, List.mem_map, List.mem_filter, decide_eq_true_eq]
    constructor
    · rintro ⟨field, ⟨-, hmem⟩, rfl⟩
      exact hmem
    · intro hmem
      obtain ⟨field, hfield, rfl⟩ := hname hmem
      exact ⟨field, ⟨hfield, hmem⟩, rfl⟩
  have hgives := e.isMeant.gives e.follows.nodup
    (@List.filter_sublist _ (fun field => decide (field.name ∈ given)) fields.fields)
  rwa [hnames] at hgives

/-! ## Files -/

/-- Members give a field twice, or a loss ratio that is not accepted. -/
inductive IsFaulty (members : List (Reading × Reading)) : Prop
  /-- A field is given twice. -/
  | twice {name : String} {v w : Reading} (hname : name ∈ fieldNames)
    (h : List.Sublist [(.text (some name), v), (.text (some name), w)] members)
  /-- One of the loss ratios is not accepted. -/
  | loss {items : List Reading} {label : String} {fault : ExperimentFault}
    (hmember : (.text (some "loss_ratios"), .list items true) ∈ members)
    (hitem : .text (some label) ∈ items) (h : LossRatio.ofLabel label = .error fault)

/-- What is faulty is not read. -/
lemma IsFaulty.exists_error {members : List (Reading × Reading)} (h : IsFaulty members) :
    ∃ problem, format.read (.record members true) = .error problem := by
  cases h with
  | @twice name v w hname h =>
    obtain ⟨field, hfield, rfl⟩ : ∃ field ∈ fields.fields, field.name = name := by
      simpa [fieldNames] using hname
    exact RecordFormat.exists_error_of_twice
      (RecordFormat.find?_name (follows standard).nodup hfield) h
  | @loss items label fault hmember hitem h =>
    have hloss : ∃ problem, LossRatio.format.read (.text (some label)) = .error problem :=
      ⟨.rejected fault.message, by
        have hread : Format.text.read (.text (some label)) = .ok label := rfl
        simp only [LossRatio.format, hread, bind, Except.bind, h]
        rfl⟩
    obtain ⟨problem, hproblem⟩ := Format.exists_error_of_item hitem hloss
    have hfind : fields.fields.find? (fun field => field.name == "loss_ratios") = some
        (Field.of "loss_ratios" (.list LossRatio.format) lossRatios
          fun lossRatios e => { e with lossRatios }).orBlank := rfl
    refine RecordFormat.exists_error_of_assign hfind hmember fun b => ⟨problem, ?_⟩
    simp only [Field.orBlank, Field.of, hproblem]
    rfl

/-- **Descriptions may leave out fields.** A file holds the text of an object. If it gives the
values of a description for some fields, each once, in any order and among unknown members, then the
standard description is loaded with just these fields replaced. Every choice of fields can be given
in this way, as long as doubles are read back from their decimals. If a field is given twice, or a
loss ratio is not accepted, then nothing is loaded, whatever else the object holds.

**Proof sketch.** The reader gets through every text of the grammar (`Json.Spells.isRead`), however
deep the unknown values are, and no value of such a text is damaged (`Json.Spells.isComplete`). What
has been read of a description depends on the set of the fields given so far
(`Experiment.follows`), and an unknown member leaves it as it is (`Json.RecordFormat.Follows.read`).
Members that are read to their end have set each field once
(`Json.RecordFormat.exists_assign_of_readMembers`), which a field given twice and a loss ratio that
is refused exclude. -/
theorem load_partial {tree : FileTree} {p : Path} {text : String}
    (hentry : tree.entryAt p = .ok (.file text.toUTF8)) :
    (∀ (e : Experiment) (given : Finset String), e.IsGivenBy given text →
      (load p).run tree = (.ok (e.overriding given), tree)) ∧
    (∀ (e : Experiment) (given : Finset String), e.IsStorable → given ⊆ fieldNames →
      e.IsGivenBy given (e.part given).pretty) ∧
    ∀ members, Spells text.toList (.slot (.record members true)) → IsFaulty members →
      ∃ problem, (load p).run tree = (.error (.json problem), tree) := by
  refine ⟨?_, fun e given h => h.isGivenBy, ?_⟩
  · rintro e given ⟨members, hspells, hgives⟩
    have hcomplete : Reading.allMembersComplete members = true := by
      simpa [Part.IsComplete, Reading.isComplete] using hspells.isComplete
    have hread : format.read (.record members true) = .ok (e.overriding given) :=
      e.follows.read hgives hcomplete fun field hfield hrequired => by
        rw [optional_of_mem field hfield] at hrequired
        cases hrequired
    rw [load, run_loadAs_eq hentry, Format.decode_of_spells hspells, hread]
    rfl
  · intro members hspells hfaulty
    obtain ⟨problem, hread⟩ := hfaulty.exists_error
    refine ⟨problem, ?_⟩
    rw [load, run_loadAs_eq hentry, Format.decode_of_spells hspells, hread]
    rfl

/-! ## An unusual file -/

/-- An object with two fields, written in an unusual way: with gaps, an escaped key, the ends of a
pair the wrong way round, and unknown members with a number beyond all doubles and with half of a
surrogate pair. -/
def shuffled : String :=
  " \x7b \"pairs\": [\x7b\"t\\u006f\":2, \"hops\":[1e999, \"\\ud800\"], \"from\":1\x7d],\n" ++
    "\"\":\x7b \x7d, \"loss_ratios\":[\"0\"]\x7d"

/-- What the pair in it says. -/
def shuffledPair : Reading :=
  .record [(.text (some "to"), .number (.natural 2)),
    (.text (some "hops"),
      .list [.number (Number.valueOf ['1', 'e', '9', '9', '9']), .text none] true),
    (.text (some "from"), .number (.natural 1))] true

/-- What its members say. -/
def shuffledMembers : List (Reading × Reading) :=
  [(.text (some "pairs"), .list [shuffledPair] true), (.text (some ""), .record [] true),
    (.text (some "loss_ratios"), .list [.text (some "0")] true)]

/-- The description that it is a part of. -/
def shuffledWhole : Experiment := { standard with pairs := [⟨1, 2, ""⟩], lossRatios := [.zero] }

/-- A file with this text, one that gives a field twice, and one with a loss ratio above one. -/
def shuffledTree : FileTree :=
  .ofList [(["e.json"], .file shuffled.toUTF8),
    (["twice.json"], .file "\x7b\"clients\":[],\"clients\":[]\x7d".toUTF8),
    (["loss.json"], .file "\x7b\"loss_ratios\":[\"1.5\"]\x7d".toUTF8)]

/-- The unusual text follows the grammar. -/
lemma spells_shuffled : Spells shuffled.toList (.slot (.record shuffledMembers true)) := by
  have hspace : IsSpacing [' '] := by simp [IsSpacing, isGap]
  have hline : IsSpacing ['\n'] := by simp [IsSpacing, isGap]
  have spaced {text : List Char} {r : Reading} (h : Spells text (.value r)) : Spells _ (.slot r) :=
    .slot hspace h isSpacing_nil
  have number (n : ℕ) (h : n < Numeral.longBound) : Spells _ (.slot (.number (.natural n))) :=
    ((Storable.natural h).spells 0).bare
  have hto : Spells _ (.value (.text (some "to"))) :=
    .text (.cons (@IsUnit.plain 't' (by decide) (by decide) (by decide)) <|
      .cons (@IsUnit.number '0' '0' '6' 'f' _ _ _ _ rfl rfl rfl rfl) .nil)
  have hhalf : Spells _ (.value (.text none)) :=
    .text (.cons (@IsUnit.number 'd' '8' '0' '0' _ _ _ _ rfl rfl rfl rfl) .nil)
  have hbeyond : IsNumeral ['1', 'e', '9', '9', '9'] :=
    .unsigned (@IsUnsigned.parts ['1'] [] ['e', '9', '9', '9'] ⟨by simp, by simp⟩ (by simp) .absent
      (.plain (.inl rfl) ⟨by simp, by simp⟩))
  have hhops : Spells _ (.slot (.list [.number (Number.valueOf _), .text none] true)) :=
    (Spells.list (.items (Spells.number hbeyond).bare (.item (spaced hhalf)))).bare
  have hpair : Spells _ (.value shuffledPair) :=
    .record (.members hto.bare (number 2 (by decide)) <|
      .members (spaced (spells_quote "hops")) hhops <|
      .member (spaced (spells_quote "from")) (number 1 (by decide)))
  have hwhole : Spells _ (.slot (.record shuffledMembers true)) :=
    spaced (.record (.members (spaced (spells_quote "pairs"))
        (spaced (.list (.item hpair.bare))) <|
      .members (.slot hline (spells_quote "") isSpacing_nil) (Spells.emptyRecord hspace).bare <|
      .member (spaced (spells_quote "loss_ratios"))
        (Spells.list (.item (spells_quote "0").bare)).bare))
  obtain ⟨text, hspells, htext⟩ :
      ∃ text, Spells text (.slot (.record shuffledMembers true)) ∧ text = shuffled.toList :=
    ⟨_, hwhole, by decide +kernel⟩
  exact htext ▸ hspells

/-- It gives two fields. -/
lemma isGivenBy_shuffled :
    shuffledWhole.IsGivenBy (insert "pairs" (insert "loss_ratios" ∅)) shuffled := by
  have hto : ("to", Meaning.natural 2) ∈ EndpointPair.entries ⟨1, 2, ""⟩ := by
    simp [EndpointPair.entries]
  have hfrom : ("from", Meaning.natural 1) ∈ EndpointPair.entries ⟨1, 2, ""⟩ := by
    simp [EndpointPair.entries]
  have hpair : EndpointPair.meaning ⟨1, 2, ""⟩ shuffledPair :=
    ⟨_, _, .field hto rfl (by decide) <| .other (show "hops" ∉ _ by decide) <|
      .field hfrom rfl (by decide) .nil, by decide, rfl⟩
  have hpairs : ("pairs", Meaning.list EndpointPair.meaning [⟨1, 2, ""⟩]) ∈
      shuffledWhole.entries := by
    simp [entries, shuffledWhole]
  have hlosses : ("loss_ratios", Meaning.list (fun loss => .text loss.label) [LossRatio.zero]) ∈
      shuffledWhole.entries := by
    simp [entries, shuffledWhole]
  exact ⟨shuffledMembers, spells_shuffled,
    .field hpairs ⟨_, .cons hpair .nil, rfl⟩ (by decide) <| .other (by decide) <|
      .field hlosses ⟨_, .cons rfl .nil, rfl⟩ (by decide) .nil⟩

/-- The unusual file is loaded with everything else as in the standard description, and the other
files are refused. -/
theorem load_partial_shuffled :
    (load ⟨"e.json"⟩).run shuffledTree =
      (.ok { standard with pairs := [⟨1, 2, ""⟩], lossRatios := [.zero] }, shuffledTree) ∧
    (∃ problem, (load ⟨"twice.json"⟩).run shuffledTree = (.error (.json problem), shuffledTree)) ∧
    ∃ problem, (load ⟨"loss.json"⟩).run shuffledTree = (.error (.json problem), shuffledTree) := by
  have hentry : shuffledTree.entryAt ⟨"e.json"⟩ = .ok (.file shuffled.toUTF8) := rfl
  have htwice : shuffledTree.entryAt ⟨"twice.json"⟩ =
    .ok (.file "\x7b\"clients\":[],\"clients\":[]\x7d".toUTF8) := rfl
  have hloss : shuffledTree.entryAt ⟨"loss.json"⟩ =
    .ok (.file "\x7b\"loss_ratios\":[\"1.5\"]\x7d".toUTF8) := rfl
  have hwhole : shuffledWhole.overriding (insert "pairs" (insert "loss_ratios" ∅)) =
      { standard with pairs := [⟨1, 2, ""⟩], lossRatios := [.zero] } := by
    simp [overriding, shuffledWhole]
  have hclients : Spells _ (.slot (.record [(.text (some "clients"), .list [] true),
      (.text (some "clients"), .list [] true)] true)) :=
    (Spells.record (.members (spells_quote "clients").bare (Spells.emptyList isSpacing_nil).bare <|
      .member (spells_quote "clients").bare (Spells.emptyList isSpacing_nil).bare)).bare
  have hlosses : Spells _ (.slot
      (.record [(.text (some "loss_ratios"), .list [.text (some "1.5")] true)] true)) :=
    (Spells.record (.member (spells_quote "loss_ratios").bare
      (Spells.list (.item (spells_quote "1.5").bare)).bare)).bare
  have hratio : LossRatio.ofLabel "1.5" = .error (.invalidLossRatio "1.5") :=
    dif_neg (show ¬ (ratio? "1.5").isSome = true by decide +kernel)
  refine ⟨?_, (load_partial htwice).2.2 _ hclients (.twice (by decide) (List.Sublist.refl _)),
    (load_partial hloss).2.2 _ hlosses (.loss List.mem_cons_self List.mem_cons_self hratio)⟩
  rw [← hwhole]
  exact (load_partial hentry).1 shuffledWhole _ isGivenBy_shuffled

end Experiment

end Constellation
