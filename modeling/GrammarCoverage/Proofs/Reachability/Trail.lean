import GrammarCoverage.Proofs.Reachability.Paths
import GrammarCoverage.Reachability.Traversal

/-!
# Chains of a trail

The chain of a place in a trail follows the links of its entries up to the root. Links point
backwards, so that entries added later never change a chain.
-/

namespace GrammarCoverage

namespace Traversal

variable {trail : Array TrailEntry} {entry : TrailEntry}

/-- The chain of the place that led to a node; the root has none above it. -/
def chainAbove (trail : Array TrailEntry) : Option Nat → List Element
  | none => []
  | some p => chain trail p

/-- A chain is that of the place that led to its node, with the node at the end. -/
lemma chain_of_getElem? {i : Nat} (h : trail[i]? = some entry)
    (hp : ∀ p ∈ entry.parent, p < i) :
    chain trail i = chainAbove trail entry.parent ++ [entry.element] := by
  rw [chain, h]
  cases hparent : entry.parent with
  | none => simp [chainAbove, hparent]
  | some p => simp [chainAbove, hparent, hp p hparent]

/-- A chain ends with the node at its place, wherever the link of that node points. -/
lemma getLast?_chain {i : Nat} (h : trail[i]? = some entry) :
    (chain trail i).getLast? = some entry.element := by
  rw [chain, h]
  cases hparent : entry.parent with
  | none => simp [hparent]
  | some p => by_cases hp : p < i <;> simp [hparent, hp]

/-- An entry at the end of the trail leaves the chains before it as they are. -/
lemma chain_push {i : Nat} (hi : i < trail.size) :
    chain (trail.push entry) i = chain trail i := by
  induction i using Nat.strongRecOn with
  | _ i ih =>
    rw [chain, chain, Array.getElem?_push_lt hi, Array.getElem?_eq_getElem hi]
    cases hparent : trail[i].parent with
    | none => simp only [hparent]
    | some p =>
      by_cases hp : p < i
      · simp only [hparent, if_pos hp, ih p hp (by omega)]
      · simp only [hparent, if_neg hp]

lemma chainAbove_push {p : Option Nat} (hp : ∀ i ∈ p, i < trail.size) :
    chainAbove (trail.push entry) p = chainAbove trail p := by
  cases p with
  | none => rfl
  | some i => exact chain_push (hp i rfl)

/-- The chain of a new entry is that of the place that led to it, with its own node at the end. -/
lemma chain_push_size (hp : ∀ i ∈ entry.parent, i < trail.size) :
    chain (trail.push entry) trail.size = chainAbove trail entry.parent ++ [entry.element] := by
  rw [chain_of_getElem? Array.getElem?_push_size hp, chainAbove_push hp]

end Traversal

end GrammarCoverage
