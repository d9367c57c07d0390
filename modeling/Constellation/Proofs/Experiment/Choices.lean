import Mathlib.Data.List.Nodup
import Mathlib.Data.List.ProdSigma
import Constellation.Experiment.Expansion
set_option autoImplicit false

/-!
# No choice is made twice

## Main definitions

* `Experiment.Choice.key` — what tells choices apart.

## Main results

* `nodup_distinctBy` — a list without repeated items has no repeated keys.
* `Experiment.nodup_keys` — no two choices have the same key.

## Design

Each axis is free of repetitions under a key of its own. The keys of the choices are the product
of the keys on the axes.
-/

namespace Constellation

section Distinct

variable {α κ : Type} [BEq κ] [LawfulBEq κ] (key : α → κ)

/-- The keys that are left have not been seen. -/
lemma notMem_of_mem_distinctFrom (items : List α) (seen : List κ) {a : α}
    (ha : a ∈ distinctFrom key seen items) : key a ∉ seen := by
  induction items generalizing seen with
  | nil => cases ha
  | cons b rest ih =>
    rw [distinctFrom] at ha
    by_cases hseen : seen.contains (key b) = true
    · rw [if_pos hseen] at ha
      exact ih seen ha
    · rw [if_neg hseen] at ha
      rcases List.mem_cons.mp ha with rfl | hrest
      · simpa using hseen
      · exact fun hmem => ih (key b :: seen) hrest (List.mem_cons_of_mem _ hmem)

/-- No key is left twice. -/
lemma nodup_distinctFrom (items : List α) (seen : List κ) :
    ((distinctFrom key seen items).map key).Nodup := by
  induction items generalizing seen with
  | nil => exact List.nodup_nil
  | cons a rest ih =>
    rw [distinctFrom]
    by_cases hseen : seen.contains (key a) = true
    · rw [if_pos hseen]
      exact ih seen
    · rw [if_neg hseen, List.map_cons, List.nodup_cons]
      refine ⟨fun hmem => ?_, ih _⟩
      obtain ⟨b, hb, heq⟩ := List.mem_map.mp hmem
      exact notMem_of_mem_distinctFrom key rest _ hb (heq ▸ List.mem_cons_self)

/-- **A list without repeated items has no repeated keys.** -/
lemma nodup_distinctBy (items : List α) : ((distinctBy key items).map key).Nodup :=
  nodup_distinctFrom key items []

end Distinct

namespace Experiment

/-- What tells choices apart: the client, the name of the topology, the pair of ground stations,
the algorithm, and the text of the loss ratio. -/
def Choice.key (choice : Choice) : Client × String × (NodeId × NodeId) × Algorithm × String :=
  (choice.client, choice.topology.name, (choice.pair.source, choice.pair.destination),
    choice.algorithm, choice.loss.label)

/-- Loss ratios are told apart by their texts. -/
lemma nodup_lossAxis (e : Experiment) : (e.lossAxis.map (·.label)).Nodup := by
  rw [lossAxis]
  split
  · exact List.nodup_singleton _
  · exact nodup_distinctBy _ _

/-- The keys of all choices are a product. -/
lemma keys_eq (e : Experiment) : e.choices.map Choice.key =
    (e.clientAxis.map id) ×ˢ (e.topologyAxis.map (·.name)) ×ˢ
      (e.pairAxis.map fun p => (p.source, p.destination)) ×ˢ (e.algorithmAxis.map id) ×ˢ
        (e.lossAxis.map (·.label)) := by
  simp [choices, Choice.key, SProd.sprod, List.product, List.map_flatMap, List.flatMap_map,
    Function.comp_def]

/-- **No choice is made twice.** -/
lemma nodup_keys (e : Experiment) : (e.choices.map Choice.key).Nodup := by
  rw [keys_eq]
  exact (nodup_distinctBy id _).product ((nodup_distinctBy _ _).product
    ((nodup_distinctBy _ _).product ((nodup_distinctBy id _).product e.nodup_lossAxis)))

end Experiment

end Constellation
