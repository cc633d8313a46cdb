import CanonTree.Proofs.Normalization
import CanonTree.Proofs.Rule.Assembly
import CanonTree.Proofs.Shape

/-!
# How a reduced forest comes about

Reducing goes through a forest tree by tree: a placeholder is dropped with all below it,
a canonical node is kept over its reduced children, and a raw node is replaced by what its
rule makes of it, once its children are reduced.  `Reduced` relates a forest to what is
left of it, without depths, counters and errors; a fact about reduced forests needs one
case for each of its constructors.
-/

namespace CanonTree

open Node

inductive Reduced : List Node → List Node → Prop where
  | nil : Reduced [] []
  | dropped {node : Node} {nodes others : List Node} (hdiscarded : node.tag.isDiscarded = true)
      (hothers : Reduced nodes others) : Reduced (node :: nodes) others
  | kept {node : Node} {nodes below others : List Node} (hfinal : node.tag.Final)
      (hcanonical : AllCanonical below) (hbelow : Reduced node.children below)
      (hothers : Reduced nodes others) :
      Reduced (node :: nodes) ({ node with children := below } :: others)
  | replaced {tag : RawTag} {node result : Node} {nodes below others : List Node}
      (htag : node.tag = .raw tag) (hcanonical : AllCanonical below)
      (hbelow : Reduced node.children below)
      (hresult : Rule.Replaces tag { node with children := below } result)
      (hothers : Reduced nodes others) : Reduced (node :: nodes) (result :: others)

namespace Reducing

variable {language : Language} {maxDepth : Nat}

theorem reduced_of_reduceTrees (nodes : List Node) :
    ∀ {depth before after results},
      reduceTrees language maxDepth depth before nodes = (after, .ok results) →
        Reduced nodes results := by
  induction nodes using forest_induction with
  | nil =>
      intro depth before after results hreduce
      cases hreduce
      exact .nil
  | cons node nodes hchildren hnodes =>
      intro depth before after results hreduce
      obtain ⟨middle, first, others, hfirst, hothers, rfl⟩ := reduceTrees_cons_ok hreduce
      obtain ⟨-, ⟨hdiscarded, rfl, -⟩ | ⟨hdiscarded, _, below, hbelow, hsettle⟩⟩ :=
        reduceTree_ok hfirst
      · exact .dropped hdiscarded (hnodes hothers)
      · have hcanonical := allCanonical_reduceTrees node.children hbelow
        obtain ⟨tag, htag, hrule, -⟩ | ⟨hkept, rfl, -⟩ := settle_ok hsettle
        · obtain ⟨result, rfl, hresult⟩ := Rule.replaces_of_reduce hrule
          exact .replaced htag hcanonical (hchildren hbelow) hresult (hnodes hothers)
        · exact .kept ⟨Tag.isRaw_eq_false hkept, hdiscarded⟩ hcanonical (hchildren hbelow)
            (hnodes hothers)

end Reducing

/-- A tree is normalized by reducing it to one canonical tree and binding the names of that. -/
theorem Normalizer.reduced_of_normalize {normalizer : Normalizer} {root : Node}
    {tree : CanonicalTree} (hok : normalizer.normalize root = .ok tree) :
    ∃ reduced, Reduced [root] [reduced] ∧ reduced.Canonical ∧
      tree.root = (normalizer.bindNames reduced).2 := by
  obtain ⟨state, reduced, hrun, rfl⟩ := normalize_ok_iff.mp hok
  have hreduce := Reducing.reduceTree_of_run hrun
  have htrees : Reducing.reduceTrees normalizer.language normalizer.config.maxDepth 1 {} [root] =
      (state.tally, .ok [reduced]) := by
    simp [Reducing.reduceTrees, hreduce]
  exact ⟨reduced, Reducing.reduced_of_reduceTrees [root] htrees,
    (allCanonical_cons.mp (Reducing.allCanonical_reduceTree hreduce)).1, rfl⟩

end CanonTree
