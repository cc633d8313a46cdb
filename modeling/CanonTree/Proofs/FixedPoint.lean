import CanonTree.Proofs.Binding.Counter
import CanonTree.Proofs.Shape

/-!
# Canonical trees are fixed points

A canonical tree that is not too deep is reduced to itself: each node is visited once,
kept where it is, and nothing is dropped or replaced.  Binding the names of a tree a
second time notes the same scopes and fills the same arena.  A normalized tree is
canonical, so unless its rules made it too deep it is normalized to itself, in sources
of any language.
-/

namespace CanonTree

open Node

/-! ## Reducing -/

namespace Reducing

variable {language : Language} {maxDepth : Nat}

theorem settle_of_final {node : Node} (hfinal : node.tag.Final) (tally : Tally) :
    settle language tally node = (tally, .ok [node]) := by
  rw [settle]
  split
  · rename_i tag htag
    have hraw := hfinal.1
    rw [htag] at hraw
    cases tag <;> cases hraw
  · rfl

/-- A node that is kept over children that are reduced to themselves is reduced to itself. -/
theorem reduceTree_of_final {depth : Nat} {tally after : Tally} {node : Node}
    (hfinal : node.tag.Final) (hdepth : depth ≤ maxDepth)
    (hchildren : reduceTrees language maxDepth (depth + 1)
      { tally with visited := tally.visited + 1 } node.children = (after, .ok node.children)) :
    reduceTree language maxDepth depth tally node = (after, .ok [node]) := by
  rw [reduceTree_eq]
  simp only [Nat.not_lt.mpr hdepth, if_false, hfinal.2, Bool.false_eq_true, hchildren]
  cases node
  exact settle_of_final hfinal after

/-- A canonical forest within the depth limit is reduced to itself, and each node counts once. -/
theorem reduceTrees_of_canonical (nodes : List Node) :
    ∀ depth (tally : Tally), AllCanonical nodes → depth + heightAll nodes ≤ maxDepth + 1 →
      reduceTrees language maxDepth depth tally nodes =
        ({ tally with visited := tally.visited + sizeAll nodes }, .ok nodes) := by
  induction nodes using forest_induction with
  | nil =>
      intro depth tally _ _
      rfl
  | cons node nodes hchildren hnodes =>
      intro depth tally hcanonical hheight
      rw [allCanonical_cons, canonical_iff] at hcanonical
      obtain ⟨⟨hfinal, hbelow⟩, hothers⟩ := hcanonical
      rw [heightAll, height_eq] at hheight
      have hnode := reduceTree_of_final hfinal (by omega)
        (hchildren (depth + 1) { tally with visited := tally.visited + 1 } hbelow (by omega))
      rw [reduceTrees, hnode]
      simp only [hnodes depth _ hothers (by omega), sizeAll, size_eq, List.singleton_append]
      congr 2
      omega

theorem reduceTree_of_canonical {root : Node} (hcanonical : root.Canonical)
    (hdepth : root.depth ≤ maxDepth) :
    reduceTree language maxDepth 1 {} root = (⟨root.count, 0, 0⟩, .ok [root]) := by
  rw [depth_eq_height, height_eq] at hdepth
  obtain ⟨hfinal, hbelow⟩ := canonical_iff.mp hcanonical
  rw [reduceTree_of_final hfinal (by omega)
    (reduceTrees_of_canonical root.children 2 _ hbelow (by omega)), count_eq_size, size_eq,
    Nat.add_comm (sizeAll root.children)]

end Reducing

/-! ## Binding -/

namespace Normalizer

variable {normalizer : Normalizer} {root : Node} {tree : CanonicalTree}

/-- Binding names a second time gives the same tree, the same arena and the same count. -/
theorem bindNames_bindNames (normalizer : Normalizer) (root : Node) :
    (normalizer.bindNames (normalizer.bindNames root).2).2 = (normalizer.bindNames root).2 ∧
      (normalizer.bindNames (normalizer.bindNames root).2).1.arena =
        (normalizer.bindNames root).1.arena ∧
      (normalizer.bindNames (normalizer.bindNames root).2).1.bindings =
        (normalizer.bindNames root).1.bindings := by
  simp only [bindNames]
  split
  · obtain ⟨hbound, harena⟩ := BindingState.run_eq root
    obtain ⟨hboundAgain, harenaAgain⟩ := BindingState.run_eq (root.annotate root.openedBefore)
    have hsame : (BindingState.run (root.annotate root.openedBefore)).1.arena =
        (BindingState.run root).1.arena := by
      rw [harenaAgain, harena, scopeArena_annotate]
    rw [hbound]
    refine ⟨?_, hsame, ?_⟩
    · rw [hboundAgain]
      exact isBound_annotate root
    · rw [BindingState.bindings_run, BindingState.bindings_run, hsame]
  · exact ⟨rfl, rfl, rfl⟩

/-- A canonical tree within the depth limit is normalized by binding its names. -/
theorem normalize_of_canonical (hcanonical : root.Canonical)
    (hdepth : root.depth ≤ normalizer.config.maxDepth) :
    normalizer.normalize root =
      .ok ⟨(normalizer.bindNames root).2, (normalizer.bindNames root).1.arena,
        normalizer.language,
        ⟨root.count, 0, 0, (normalizer.bindNames root).1.arena.size,
          (normalizer.bindNames root).1.bindings⟩⟩ := by
  obtain ⟨state, hrun, htally⟩ := Reducing.exists_run_of_reduceTree
    (Reducing.reduceTree_of_canonical hcanonical hdepth)
  rw [normalize_ok_iff]
  refine ⟨state, root, hrun, ?_⟩
  rw [Reducing.tally, Reducing.Tally.mk.injEq] at htally
  rw [htally.1, htally.2.1, htally.2.2]

theorem canonical_root_of_normalize (hok : normalizer.normalize root = .ok tree) :
    tree.root.Canonical := by
  obtain ⟨state, reduced, hrun, rfl⟩ := normalize_ok_iff.mp hok
  have hreduced := Reducing.allCanonical_reduceTree (Reducing.reduceTree_of_run hrun)
  exact canonical_bindNames (allCanonical_cons.mp hreduced).1

/-- A tree without raw nodes and placeholders that is not too deep is normalized to a tree of the
same shape, with nothing replaced or dropped and each node visited once.  So a normalized tree that
is not too deep is normalized to itself: the same nodes with the same scopes noted on them, the
same arena, and the same counts of scopes and names. -/
theorem normalize_fixedPoint (config : Config) :
    (∀ (language : Language) (root : Node),
      (∀ node ∈ root.toList, node.tag.isRaw = false ∧ node.tag.isDiscarded = false) →
      root.depth ≤ config.maxDepth →
      ∃ tree, (⟨language, config⟩ : Normalizer).normalize root = .ok tree ∧
        tree.root.sameShape root = true ∧ tree.stats.reduced = 0 ∧ tree.stats.discarded = 0 ∧
        tree.stats.visited = root.count) ∧
    (∀ (first second : Language) (root : Node) (tree : CanonicalTree),
      (⟨first, config⟩ : Normalizer).normalize root = .ok tree →
      tree.root.depth ≤ config.maxDepth →
      ∃ again, (⟨second, config⟩ : Normalizer).normalize tree.root = .ok again ∧
        again.root = tree.root ∧ again.scopes = tree.scopes ∧
        again.stats.scopes = tree.stats.scopes ∧ again.stats.bindings = tree.stats.bindings) := by
  constructor
  · intro language root hfinal hdepth
    rw [toList_eq_preorder] at hfinal
    refine ⟨_, normalize_of_canonical hfinal hdepth, ?_, rfl, rfl, rfl⟩
    exact sameShape_iff.mpr (eraseScopes_bindNames _ root)
  · intro first second root tree hok hdepth
    have hcanonical := canonical_root_of_normalize hok
    obtain ⟨state, reduced, -, rfl⟩ := normalize_ok_iff.mp hok
    -- binding does not look at the language, so the second normalizer binds as the first does
    obtain ⟨hroot, harena, hbindings⟩ := bindNames_bindNames ⟨first, config⟩ reduced
    refine ⟨_, normalize_of_canonical hcanonical hdepth, hroot, harena, ?_, hbindings⟩
    exact congrArg Arena.size harena

/-- A tree of two nested blocks, one of which has a scope noted that it never opened. -/
def nestedBlocks : Node :=
  .branch .list ⟨0, 40, 1, 1⟩
    [.branch .block ⟨10, 40, 2, 1⟩
      [(Node.leaf .decl ⟨12, 13, 2, 3⟩).withText "x",
        { Node.branch .block ⟨20, 38, 3, 3⟩ [(Node.leaf .decl ⟨22, 30, 3, 5⟩).withText "y"] with
          scope := some (.ofNumber 7) }]]

theorem normalize_fixedPoint_nestedBlocks :
    (∃ tree, (⟨.ecma, {}⟩ : Normalizer).normalize nestedBlocks = .ok tree ∧
      tree.root.sameShape nestedBlocks = true ∧ tree.stats.reduced = 0 ∧
      tree.stats.discarded = 0 ∧ tree.stats.visited = nestedBlocks.count) ∧
    ∃ tree again, (⟨.java, {}⟩ : Normalizer).normalize mixedUnit = .ok tree ∧
      (⟨.ecma, {}⟩ : Normalizer).normalize tree.root = .ok again ∧ again.root = tree.root ∧
      again.scopes = tree.scopes ∧ again.stats.scopes = tree.stats.scopes ∧
      again.stats.bindings = tree.stats.bindings := by
  constructor
  · exact (normalize_fixedPoint {}).1 .ecma nestedBlocks (by decide +kernel) (by decide +kernel)
  · have hshallow : ((⟨.java, {}⟩ : Normalizer).normalize mixedUnit).toOption.any
        (fun tree => tree.root.depth ≤ 4096) = true := by
      decide +kernel
    obtain ⟨tree, hok, hdepth⟩ := exists_normalize_of_any hshallow
    rw [decide_eq_true_eq] at hdepth
    obtain ⟨again, hagain⟩ := (normalize_fixedPoint {}).2 .java .ecma mixedUnit tree hok hdepth
    exact ⟨tree, again, hok, hagain⟩

end Normalizer

end CanonTree
