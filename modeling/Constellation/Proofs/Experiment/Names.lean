import Constellation.Proofs.Binary64.Characters
import Constellation.Proofs.Experiment.Choices
set_option autoImplicit false

/-!
# No two runs share a name

The name of a run begins with the name of its topology, which may contain anything that the rest
of the name consists of. It is taken apart from its end.

## Main definitions

* `underscored` — a text with further segments after it.
* `Run.segments` — what follows the name of the topology.

## Main results

* `underscored_inj` — segments without underscores can be told apart from the end.
* `LossRatio.underscore_notMem` — the text of a loss ratio has no underscore.
* `Run.nameOf_inj` — a name tells everything that it is made of.
* `Experiment.names_distinct` — no two runs of an experiment share a name.
-/

namespace Constellation

/-! ## Segments -/

/-- A text with further segments after it, an underscore before each of them. -/
def underscored (text : List Char) (segments : List (List Char)) : List Char :=
  segments.foldl (fun text segment => text ++ '_' :: segment) text

/-- The last underscore tells where the last segment begins. -/
lemma append_underscore_inj {text text' segment segment' : List Char} (h : '_' ∉ segment)
    (h' : '_' ∉ segment') (heq : text ++ '_' :: segment = text' ++ '_' :: segment') :
    text = text' ∧ segment = segment' := by
  -- if one text were longer, its segment would begin within the other one
  have hlonger : ∀ {more left right : List Char}, '_' ∉ left →
      '_' :: left = more ++ '_' :: right → more = [] := by
    intro more left right hleft hmore
    cases more with
    | nil => rfl
    | cons c more =>
      obtain ⟨-, rfl⟩ := List.cons.inj hmore
      simp at hleft
  rcases List.append_eq_append_iff.mp heq with ⟨more, rfl, hmore⟩ | ⟨more, rfl, hmore⟩
  · obtain rfl := hlonger h hmore
    simpa using hmore
  · obtain rfl := hlonger h' hmore
    simpa [eq_comm] using hmore

/-- **Segments without underscores can be told apart from the end.** -/
lemma underscored_inj {text text' : List Char} {segments segments' : List (List Char)}
    (hlength : segments.length = segments'.length) (h : ∀ segment ∈ segments, '_' ∉ segment)
    (h' : ∀ segment ∈ segments', '_' ∉ segment)
    (heq : underscored text segments = underscored text' segments') :
    text = text' ∧ segments = segments' := by
  induction segments generalizing text text' segments' with
  | nil =>
    obtain rfl := List.length_eq_zero_iff.mp hlength.symm
    exact ⟨heq, rfl⟩
  | cons segment segments ih =>
    obtain ⟨segment', segments', rfl⟩ := List.exists_cons_of_length_eq_add_one hlength.symm
    rw [List.forall_mem_cons] at h h'
    obtain ⟨happend, rfl⟩ := ih (Nat.succ.inj hlength) h.2 h'.2 heq
    obtain ⟨rfl, rfl⟩ := append_underscore_inj h.1 h'.1 happend
    exact ⟨rfl, rfl⟩

/-- The characters of a text with segments are those of the text, underscores, and those of the
segments. -/
lemma mem_underscored {text : List Char} {segments : List (List Char)} {c : Char} :
    c ∈ underscored text segments ↔ c ∈ text ∨ ∃ segment ∈ segments, c = '_' ∨ c ∈ segment := by
  induction segments generalizing text with
  | nil => simp [underscored]
  | cons segment segments ih =>
    show c ∈ underscored (text ++ '_' :: segment) segments ↔ _
    rw [ih]
    simp [or_assoc]

/-! ## The texts of loss ratios -/

/-- The text of a loss ratio has no underscore. -/
lemma LossRatio.underscore_notMem (loss : LossRatio) : '_' ∉ loss.label.toList := by
  have hratio := loss.isRatio
  have hnotation : (Binary64.Notation.ofText? loss.label.toList).isSome = true := by
    cases hnone : Binary64.Notation.ofText? loss.label.toList with
    | none => simp [ratio?, Binary64.ofText?, hnone] at hratio
    | some n => rfl
  intro hmem
  have hchar := List.all_eq_true.mp (Binary64.Notation.all_of_ofText? hnotation) _ hmem
  revert hchar
  decide

/-- Clients have names of their own. -/
lemma Client.name_injective : Function.Injective Client.name := by
  intro client client' h
  have hname := ofName?_name client
  rw [h, ofName?_name client'] at hname
  exact (Option.some.inj hname).symm

/-- Algorithms have names of their own. -/
lemma Algorithm.name_injective : Function.Injective Algorithm.name := by
  intro algorithm algorithm' h
  have hname := ofName?_name algorithm
  rw [h, ofName?_name algorithm'] at hname
  exact (Option.some.inj hname).symm

/-! ## Names -/

namespace Run

/-- What follows the name of the topology. -/
def segments (source destination : NodeId) (client : Client) (algorithm : Algorithm)
    (label : String) : List (List Char) :=
  [Nat.toDigits 10 source.toNat, ['t', 'o'], Nat.toDigits 10 destination.toNat,
    ['w', 'i', 't', 'h'], client.name.toList, algorithm.name.toList, ['l', 'o', 's', 's'],
    label.toList, label.toList]

/-- No segment has an underscore. -/
lemma underscore_notMem_of_mem_segments (source destination : NodeId) (client : Client)
    (algorithm : Algorithm) (loss : LossRatio) :
    ∀ segment ∈ segments source destination client algorithm loss.label, '_' ∉ segment := by
  have hclient : '_' ∉ client.name.toList := by cases client <;> decide
  have halgorithm : '_' ∉ algorithm.name.toList := by cases algorithm <;> decide
  simp [segments, hclient, halgorithm, loss.underscore_notMem]

/-- Nodes are written in decimal digits. -/
lemma toList_toString_node (node : NodeId) :
    (toString node).toList = Nat.toDigits 10 node.toNat := Nat.toList_repr

/-- The digits of a node tell the node. -/
lemma toDigits_node_inj {node node' : NodeId}
    (h : Nat.toDigits 10 node.toNat = Nat.toDigits 10 node'.toNat) : node = node' := by
  have hnat := congrArg (Nat.ofDigitChars 10 · 0) h
  simp only [Nat.ofDigitChars_ten_toDigits] at hnat
  exact UInt32.toNat_inj.mp hnat

/-- A name is made of segments. -/
lemma toList_nameOf (topology : String) (source destination : NodeId) (client : Client)
    (algorithm : Algorithm) (loss : LossRatio) :
    (nameOf topology source destination client algorithm loss).toList =
      underscored topology.toList (segments source destination client algorithm loss.label) := by
  simp only [nameOf, String.toList_append, toList_toString_node, underscored, segments,
    List.foldl_cons, List.foldl_nil, List.append_assoc, List.cons_append]
  rfl

/-- **A name tells everything that it is made of.** -/
lemma nameOf_inj {topology topology' : String} {source source' destination destination' : NodeId}
    {client client' : Client} {algorithm algorithm' : Algorithm} {loss loss' : LossRatio}
    (h : nameOf topology source destination client algorithm loss =
      nameOf topology' source' destination' client' algorithm' loss') :
    topology = topology' ∧ source = source' ∧ destination = destination' ∧ client = client' ∧
      algorithm = algorithm' ∧ loss.label = loss'.label := by
  have hlist := congrArg String.toList h
  rw [toList_nameOf, toList_nameOf] at hlist
  have hlength : (segments source destination client algorithm loss.label).length =
      (segments source' destination' client' algorithm' loss'.label).length := rfl
  obtain ⟨htopology, hsegments⟩ := underscored_inj hlength
    (underscore_notMem_of_mem_segments source destination client algorithm loss)
    (underscore_notMem_of_mem_segments source' destination' client' algorithm' loss') hlist
  simp only [segments, List.cons.injEq] at hsegments
  obtain ⟨hsource, -, hdestination, -, hclient, halgorithm, -, hloss, -⟩ := hsegments
  exact ⟨String.toList_injective htopology, toDigits_node_inj hsource,
    toDigits_node_inj hdestination, Client.name_injective (String.toList_injective hclient),
    Algorithm.name_injective (String.toList_injective halgorithm), String.toList_injective hloss⟩

end Run

/-! ## The runs of an experiment -/

namespace Experiment

/-- The name of the run for a choice. -/
def Choice.name (choice : Choice) : String :=
  Run.nameOf choice.topology.name choice.pair.source choice.pair.destination choice.client
    choice.algorithm choice.loss

/-- What follows a computation is reached only if the computation succeeds. -/
lemma exists_of_bind_eq_ok {ε α β : Type} {x : Except ε α} {f : α → Except ε β} {b : β}
    (h : x >>= f = .ok b) : ∃ a, x = .ok a ∧ f a = .ok b := by
  cases x with
  | error fault => cases h
  | ok a => exact ⟨a, rfl, h⟩

/-- The name of a choice is safe if that of its topology is, and has an underscore. -/
lemma Choice.isSafe_name {choice : Choice} (h : isSafeName choice.topology.name = true) :
    isSafeName choice.name = true ∧ '_' ∈ choice.name.toList := by
  have hdigits : ∀ n : ℕ, (Nat.toDigits 10 n).all isSafeChar = true := by
    intro n
    rw [List.all_eq_true]
    intro c hc
    have hdigit := Nat.isDigit_of_mem_toDigits (by omega) (by omega) hc
    simp [isSafeChar, Char.isAlphanum, hdigit]
  have hclient : ∀ client : Client, client.name.toList.all isSafeChar = true := by
    intro client
    cases client <;> decide
  have halgorithm : ∀ algorithm : Algorithm, algorithm.name.toList.all isSafeChar = true := by
    intro algorithm
    cases algorithm <;> decide
  have hlabel := choice.loss.isSafe
  rw [isSafeName, Bool.and_eq_true] at h hlabel
  have hunderscore : '_' ∈ choice.name.toList := by
    rw [name, Run.toList_nameOf, mem_underscored]
    exact Or.inr ⟨_, List.mem_cons_self, Or.inl rfl⟩
  refine ⟨?_, hunderscore⟩
  have hsegment : ∀ segment ∈ Run.segments choice.pair.source choice.pair.destination
      choice.client choice.algorithm choice.loss.label, segment.all isSafeChar = true := by
    simp only [Run.segments, List.forall_mem_cons]
    exact ⟨hdigits _, by decide, hdigits _, by decide, hclient _, halgorithm _, by decide, hlabel.2,
      hlabel.2, by simp⟩
  rw [isSafeName, Bool.and_eq_true, List.all_eq_true]
  constructor
  · have hne : choice.name ≠ "" := by
      intro hempty
      rw [hempty] at hunderscore
      simp at hunderscore
    simpa using hne
  · intro c hc
    rw [name, Run.toList_nameOf, mem_underscored] at hc
    rcases hc with htopology | ⟨segment, hmem, rfl | hmem'⟩
    · exact List.all_eq_true.mp h.2 c htopology
    · decide
    · exact List.all_eq_true.mp (hsegment segment hmem) c hmem'

/-- A run is named for its choice. -/
lemma name_of_run {e : Experiment} {choice : Choice} {run : Run} (h : e.run choice = .ok run) :
    run.name = choice.name := by
  unfold Experiment.run at h
  dsimp only at h
  split at h <;> obtain ⟨network, hnetwork, h⟩ := exists_of_bind_eq_ok h
  · obtain ⟨interval, -, h⟩ := exists_of_bind_eq_ok h
    obtain ⟨time, -, h⟩ := exists_of_bind_eq_ok h
    cases h
    rfl
  · cases hnetwork

/-- Runs are named for their choices. -/
lemma map_name_of_runsFor {e : Experiment} {choices : List Choice} {runs : List Run}
    (h : e.runsFor choices = .ok runs) : runs.map (·.name) = choices.map Choice.name := by
  induction choices generalizing runs with
  | nil =>
    cases h
    rfl
  | cons choice choices ih =>
    rw [runsFor] at h
    obtain ⟨run, hrun, h⟩ := exists_of_bind_eq_ok h
    obtain ⟨rest, hrest, h⟩ := exists_of_bind_eq_ok h
    cases h
    rw [List.map_cons, List.map_cons, ih hrest, name_of_run hrun]

/-- Choices with the same name have the same key. -/
lemma Choice.key_eq_of_name_eq {choice choice' : Choice} (h : choice.name = choice'.name) :
    choice.key = choice'.key := by
  obtain ⟨htopology, hsource, hdestination, hclient, halgorithm, hloss⟩ := Run.nameOf_inj h
  rw [key, key, htopology, hsource, hdestination, hclient, halgorithm, hloss]

/-- No two choices have the same name. -/
lemma nodup_names (e : Experiment) : (e.choices.map Choice.name).Nodup := by
  rw [List.Nodup, List.pairwise_map]
  exact (List.pairwise_map.mp e.nodup_keys).imp fun hne heq => hne (Choice.key_eq_of_name_eq heq)

/-- **No two runs share a name**: a name tells all that it is made of, and the runs of an
experiment differ in that. -/
theorem names_distinct :
    (∀ (topology topology' : String) (source source' destination destination' : NodeId)
        (client client' : Client) (algorithm algorithm' : Algorithm) (loss loss' : LossRatio),
      Run.nameOf topology source destination client algorithm loss =
          Run.nameOf topology' source' destination' client' algorithm' loss' →
        topology = topology' ∧ source = source' ∧ destination = destination' ∧
          client = client' ∧ algorithm = algorithm' ∧ loss.label = loss'.label) ∧
      ∀ (e : Experiment) (runs : List Run), e.runs = .ok runs → (runs.map (·.name)).Nodup := by
  refine ⟨fun _ _ _ _ _ _ _ _ _ _ _ _ h => Run.nameOf_inj h, fun e runs h => ?_⟩
  rw [Experiment.runs] at h
  cases hfound : e.unsafeTopology? with
  | some topology => simp [hfound] at h
  | none =>
    simp only [hfound] at h
    rw [map_name_of_runsFor h]
    exact e.nodup_names

/-- An experiment with a topology that is named like a run for another topology. -/
def confusing : Experiment :=
  { standard with
    topologies := [⟨"a", ⟨some "network", none⟩⟩,
      ⟨"a_1_to_2_with_Ping_paired_loss_0_0", ⟨some "network", none⟩⟩]
    pairs := [⟨1, 2, ""⟩]
    clients := [.ping]
    lossRatios := [] }

/-- The runs of this experiment have names of their own. -/
theorem names_distinct_confusing : ∃ runs, confusing.runs = .ok runs ∧ runs.length = 2 ∧
    (runs.map (·.name)).Nodup := by
  have hlength : confusing.runs.toOption.map List.length = some 2 := by decide +kernel
  cases hruns : confusing.runs with
  | error fault =>
    rw [hruns] at hlength
    cases hlength
  | ok runs =>
    rw [hruns] at hlength
    exact ⟨runs, rfl, Option.some.inj hlength, names_distinct.2 confusing runs hruns⟩

end Experiment

end Constellation
