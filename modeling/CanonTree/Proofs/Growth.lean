import CanonTree.Proofs.Counters
import CanonTree.Proofs.Placeholder
import CanonTree.Proofs.Rule.Growth

/-!
# Normalized trees stay small

A normalized tree is at most twice as high as the tree that was given, and has at most
three times as many nodes, placeholders and what they hide not counted.  A raw node gives
up one level for the two that its rule may add, and one node for the three.  A variable
list adds more than that, but the items that it opens were kept as they are, so each of
them brings two nodes that have not been used up; `Grown` keeps account of these.
-/

namespace CanonTree

open Node

/-! ## Trees without their placeholders -/

namespace Node

/-- Cutting placeholders out leaves the visible nodes that are none. -/
theorem sizeAll_pruneAll (nodes : List Node) :
    ∀ {ancestors : List Node}, (∀ ancestor ∈ ancestors, ancestor.tag.isDiscarded = false) →
      sizeAll (pruneAll nodes) =
        (visibleAll ancestors nodes).countP (!·.2.tag.isDiscarded) := by
  induction nodes using forest_induction with
  | nil =>
      intro ancestors _
      rfl
  | cons node nodes hchildren hnodes =>
      intro ancestors hancestors
      rw [visibleAll_cons hancestors]
      cases hdiscarded : node.tag.isDiscarded with
      | true =>
          rw [pruneAll_cons_placeholder hdiscarded, hnodes hancestors]
          simp [hdiscarded]
      | false =>
          have hbelow := hchildren (List.forall_mem_cons.mpr ⟨hdiscarded, hancestors⟩)
          rw [pruneAll_cons_kept hdiscarded, sizeAll, size_eq, prune_eq, hbelow,
            hnodes hancestors]
          simp [hdiscarded, List.countP_append, Nat.add_right_comm]

/-- Without its placeholders, a forest reaches no deeper than its visible nodes. -/
theorem heightAll_pruneAll_le {bound : Nat} (nodes : List Node) :
    ∀ {ancestors : List Node}, (∀ ancestor ∈ ancestors, ancestor.tag.isDiscarded = false) →
      ancestors.length ≤ bound →
      (∀ entry ∈ visibleAll ancestors nodes, entry.1.length < bound) →
        heightAll (pruneAll nodes) + ancestors.length ≤ bound := by
  induction nodes using forest_induction with
  | nil =>
      intro ancestors _ hbound _
      simpa [pruneAll, heightAll] using hbound
  | cons node nodes hchildren hnodes =>
      intro ancestors hancestors hbound hshallow
      rw [visibleAll_cons hancestors, List.forall_mem_cons, List.forall_mem_append] at hshallow
      obtain ⟨hnode, hbelow, hothers⟩ := hshallow
      have hrest := hnodes hancestors hbound hothers
      cases hdiscarded : node.tag.isDiscarded with
      | true => rwa [pruneAll_cons_placeholder hdiscarded]
      | false =>
          rw [hdiscarded, if_neg Bool.false_ne_true] at hbelow
          have hinside := hchildren (List.forall_mem_cons.mpr ⟨hdiscarded, hancestors⟩) hnode hbelow
          have hroot : node.prune.height = heightAll (pruneAll node.children) + 1 := by
            rw [height_eq, prune_eq]
          rw [List.length_cons] at hinside
          rw [pruneAll_cons_kept hdiscarded, heightAll]
          omega

theorem measures_eraseScopesAll (nodes : List Node) :
    heightAll (eraseScopesAll nodes) = heightAll nodes ∧
      sizeAll (eraseScopesAll nodes) = sizeAll nodes := by
  induction nodes using forest_induction with
  | nil => exact ⟨rfl, rfl⟩
  | cons node nodes hchildren hnodes =>
      simp only [eraseScopesAll, heightAll, sizeAll, height_eq, size_eq, eraseScopes_eq, hchildren,
        hnodes, and_self]

/-- Trees of one shape are equally high and have equally many nodes. -/
theorem measures_congr {left right : Node} (hshape : left.eraseScopes = right.eraseScopes) :
    left.height = right.height ∧ left.size = right.size := by
  have herased : ∀ node : Node, node.eraseScopes.height = node.height ∧
      node.eraseScopes.size = node.size := by
    intro node
    simpa [eraseScopesAll, heightAll, sizeAll] using measures_eraseScopesAll [node]
  rw [← (herased left).1, ← (herased left).2, hshape, (herased right).1, (herased right).2]
  exact ⟨rfl, rfl⟩

end Node

/-! ## Reducing -/

/-- How far a reduced forest exceeds the given one, without placeholders.  Each item at the top
holds two nodes in reserve, for the declaration that it may become. -/
structure Grown (given results : List Node) : Prop where
  height : heightAll results ≤ 2 * heightAll given
  size : sizeAll results + 2 * results.countP (·.is .item) ≤ 3 * sizeAll given

namespace Grown

variable {node result : Node} {given given' results results' below : List Node}

theorem nil : Grown [] [] :=
  ⟨Nat.le_refl _, Nat.le_refl _⟩

theorem append (hfirst : Grown given results) (hothers : Grown given' results') :
    Grown (given ++ given') (results ++ results') where
  height := by
    have hhead := hfirst.height
    have htail := hothers.height
    rw [heightAll_append, heightAll_append]
    omega
  size := by
    have hhead := hfirst.size
    have htail := hothers.size
    rw [sizeAll_append, sizeAll_append, List.countP_append]
    omega

/-- A node that is kept adds nothing, and an item has used none of its reserve. -/
theorem kept (node : Node) (hbelow : Grown given below) :
    Grown [{ node with children := given }] [{ node with children := below }] where
  height := by
    have hheight := hbelow.height
    simp only [heightAll, height_eq]
    omega
  size := by
    have hsize := hbelow.size
    have hone : [{ node with children := below }].countP (·.is .item) ≤ 1 :=
      List.countP_le_length
    simp only [sizeAll, size_eq]
    omega

/-- A raw node makes room for what its rule adds. -/
theorem replaced {language : Language} {tag : RawTag} (hbelow : Grown given below)
    (haccepted : Rule.reduce language tag { node with children := below } = .ok [result]) :
    Grown [{ node with children := given }] [result] where
  height := by
    obtain ⟨_, hproduced, hresult⟩ := Rule.replaces_of_reduce haccepted
    obtain rfl := List.singleton_inj.mp hproduced
    have hadded := hresult.height_le
    have hheight := hbelow.height
    simp only [heightAll, height_eq ⟨_, _, _, _, given, _⟩] at hadded ⊢
    omega
  size := by
    obtain ⟨_, hproduced, hresult⟩ := Rule.replaces_of_reduce haccepted
    obtain rfl := List.singleton_inj.mp hproduced
    have hitem : result.is .item = false := by
      rw [Node.is, hresult.tag]
      cases tag with
      | java tag => cases tag <;> rfl
      | ecma tag => cases tag <;> rfl
    have hadded := Rule.size_reduce_le haccepted
    have hsize := hbelow.size
    simp only [sizeAll, size_eq ⟨_, _, _, _, given, _⟩, List.countP_cons, List.countP_nil, hitem,
      Bool.false_eq_true, if_false] at hadded ⊢
    omega

end Grown

namespace Reducing

variable {language : Language} {maxDepth : Nat} {before after : Tally} {node : Node}

theorem grown_settle {given below results : List Node} (hbelow : Grown given below)
    (hsettle : settle language before { node with children := below } = (after, .ok results)) :
    Grown [{ node with children := given }] results := by
  obtain ⟨tag, -, hrule, -⟩ | ⟨-, rfl, -⟩ := settle_ok hsettle
  · obtain ⟨result, rfl, -⟩ := Rule.replaces_of_reduce hrule
    exact hbelow.replaced hrule
  · exact hbelow.kept node

/-- What a forest is reduced to exceeds the forest without its placeholders by no more than its
rules may add. -/
theorem grown_reduceTrees (nodes : List Node) :
    ∀ {depth before after results},
      reduceTrees language maxDepth depth before nodes = (after, .ok results) →
        Grown (pruneAll nodes) results := by
  induction nodes using forest_induction with
  | nil =>
      intro depth before after results hreduce
      cases hreduce
      exact .nil
  | cons node nodes hchildren hnodes =>
      intro depth before after results hreduce
      obtain ⟨middle, first, others, hfirst, hothers, rfl⟩ := reduceTrees_cons_ok hreduce
      obtain ⟨-, ⟨hdiscarded, rfl, -⟩ | ⟨hkept, _, below, hbelow, hsettle⟩⟩ :=
        reduceTree_ok hfirst
      · rw [pruneAll_cons_placeholder hdiscarded]
        exact hnodes hothers
      · rw [pruneAll_cons_kept hkept, prune_eq, ← List.singleton_append]
        exact (grown_settle (hchildren hbelow) hsettle).append (hnodes hothers)

end Reducing

/-! ## Normalized trees -/

namespace Normalizer

variable {normalizer : Normalizer} {root : Node} {tree : CanonicalTree}

/-- The root of a normalized tree is no placeholder. -/
theorem isDiscarded_of_normalize (hok : normalizer.normalize root = .ok tree) :
    root.tag.isDiscarded = false := by
  obtain ⟨state, reduced, hrun, -⟩ := normalize_ok_iff.mp hok
  obtain ⟨-, ⟨-, hnone, -⟩ | ⟨hkept, -⟩⟩ :=
    Reducing.reduceTree_ok (Reducing.reduceTree_of_run hrun)
  · cases hnone
  · exact hkept

theorem grown_of_normalize (hok : normalizer.normalize root = .ok tree) :
    ∃ reduced, Grown [root.prune] [reduced] ∧ tree.root.eraseScopes = reduced.eraseScopes := by
  have hroot := isDiscarded_of_normalize hok
  obtain ⟨state, reduced, hrun, rfl⟩ := normalize_ok_iff.mp hok
  have hreduce := Reducing.reduceTree_of_run hrun
  rw [← Reducing.reduceTrees_singleton] at hreduce
  have hgrown := Reducing.grown_reduceTrees [root] hreduce
  rw [pruneAll_cons_kept hroot, pruneAll] at hgrown
  exact ⟨reduced, hgrown, eraseScopes_bindNames normalizer reduced⟩

/-- Without its placeholders, a tree that is normalized is within the depth limit. -/
theorem depth_prune_le (hok : normalizer.normalize root = .ok tree) :
    root.prune.depth ≤ normalizer.config.maxDepth := by
  have hroot := isDiscarded_of_normalize hok
  have hheight := heightAll_pruneAll_le [root] (List.forall_mem_nil _) (Nat.zero_le _)
    (faultless_of_normalize hok).shallow
  rw [pruneAll_cons_kept hroot, pruneAll] at hheight
  simpa [depth_eq_height, heightAll] using hheight

/-- A normalized tree is at most twice as deep as the given one without its placeholders, and so
at most twice as deep as the limit; and it has at most three nodes for each visible node of the
given tree that is no placeholder. -/
theorem normalize_growth (hok : normalizer.normalize root = .ok tree) :
    tree.root.depth ≤ 2 * root.prune.depth ∧
      tree.root.depth ≤ 2 * normalizer.config.maxDepth ∧
      tree.root.count ≤ 3 * root.visible.countP (!·.2.tag.isDiscarded) := by
  obtain ⟨reduced, hgrown, hshape⟩ := grown_of_normalize hok
  obtain ⟨hheight, hsize⟩ := measures_congr hshape
  have hlimit := depth_prune_le hok
  have hdepth : tree.root.depth ≤ 2 * root.prune.depth := by
    rw [depth_eq_height, depth_eq_height, hheight]
    simpa [heightAll] using hgrown.height
  have hnodes : sizeAll (pruneAll [root]) = root.visible.countP (!·.2.tag.isDiscarded) :=
    sizeAll_pruneAll [root] (List.forall_mem_nil _)
  rw [pruneAll_cons_kept (isDiscarded_of_normalize hok), pruneAll] at hnodes
  refine ⟨hdepth, by omega, ?_⟩
  rw [count_eq_size, hsize, ← hnodes]
  have hgrowth := hgrown.size
  simp only [sizeAll, Nat.add_zero] at hgrowth ⊢
  omega

/-- Two calls of methods, the one on the result of the other, which has a parameter and a
placeholder before its name. -/
def tallUnit : Node :=
  ⟨.raw (.java .methodAccess), ⟨0, 30, 1, 1⟩, none, none,
    [⟨.raw (.java .methodAccess), ⟨0, 20, 1, 1⟩, none, none,
        [⟨.raw (.java .declReceivedParameter), ⟨0, 9, 1, 1⟩, none, none, [], none⟩,
          .branch .discarded .dummy [.branch .list .dummy [.leaf .list .dummy]],
          (Node.leaf .ident ⟨10, 20, 1, 11⟩).withText "f"], none⟩,
      (Node.leaf .ident ⟨21, 30, 1, 22⟩).withText "g"], none⟩

/-- The depth of a tree may double, so that it is twice the limit. -/
theorem normalize_growth_tallUnit :
    ∃ tree, (⟨.java, { maxDepth := 3 }⟩ : Normalizer).normalize tallUnit = .ok tree ∧
      tree.root.depth = 6 ∧ tallUnit.prune.depth = 3 ∧ tree.root.count = 10 ∧
      tallUnit.visible.countP (!·.2.tag.isDiscarded) = 5 ∧
      tree.root.depth ≤ 2 * tallUnit.prune.depth ∧ tree.root.depth ≤ 2 * 3 ∧
      tree.root.count ≤ 3 * tallUnit.visible.countP (!·.2.tag.isDiscarded) := by
  have hmeasured : ((⟨.java, { maxDepth := 3 }⟩ : Normalizer).normalize tallUnit).toOption.any
      (fun tree => tree.root.depth = 6 && tree.root.count = 10) = true := by
    decide +kernel
  obtain ⟨tree, hok, hmeasures⟩ := exists_normalize_of_any hmeasured
  rw [Bool.and_eq_true, decide_eq_true_eq, decide_eq_true_eq] at hmeasures
  exact ⟨tree, hok, hmeasures.1, by decide +kernel, hmeasures.2, by decide +kernel,
    normalize_growth hok⟩

end Normalizer

end CanonTree
