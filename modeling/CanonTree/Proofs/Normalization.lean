import CanonTree.Normalize.Basic
import CanonTree.Proofs.Binding.Numbering
import CanonTree.Proofs.Reduction
import CanonTree.Proofs.Rule.Canonical

/-!
# Normalized trees are canonical

A tree is normalized if it can be reduced; binding its names never fails.  Reducing
leaves no raw node and no placeholder anywhere, because each node is kept or replaced
only after its children are canonical, and binding names changes no tag.  The root
keeps the span of the tree that it stands for.
-/

namespace CanonTree

open Node

/-! ## Reducing -/

theorem Tag.isRaw_eq_false {tag : Tag} (hkept : ∀ raw, tag ≠ .raw raw) : tag.isRaw = false := by
  cases tag with
  | shared tag => cases tag <;> rfl
  | java tag => cases tag <;> rfl
  | raw tag => exact absurd rfl (hkept tag)

namespace Reducing

variable {language : Language} {maxDepth depth : Nat} {before after : Tally}

theorem allCanonical_settle {node : Node} {results : List Node}
    (hsettle : settle language before node = (after, .ok results))
    (hdiscarded : node.tag.isDiscarded = false) (hchildren : AllCanonical node.children) :
    AllCanonical results := by
  obtain ⟨tag, -, hrule, -⟩ | ⟨hkept, rfl, -⟩ := settle_ok hsettle
  · exact Rule.allCanonical_reduce hchildren hrule
  · rw [allCanonical_cons, canonical_iff]
    exact ⟨⟨⟨Tag.isRaw_eq_false hkept, hdiscarded⟩, hchildren⟩, allCanonical_nil⟩

/-- Whatever trees are reduced to is canonical. -/
theorem allCanonical_reduceTrees (nodes : List Node) :
    ∀ {depth before after results},
      reduceTrees language maxDepth depth before nodes = (after, .ok results) →
        AllCanonical results := by
  induction nodes using forest_induction with
  | nil =>
      intro depth before after results hreduce
      cases hreduce
      exact allCanonical_nil
  | cons node nodes hchildren hnodes =>
      intro depth before after results hreduce
      obtain ⟨middle, first, others, hfirst, hothers, rfl⟩ := reduceTrees_cons_ok hreduce
      rw [allCanonical_append]
      refine ⟨?_, hnodes hothers⟩
      obtain ⟨-, ⟨-, rfl, -⟩ | ⟨hdiscarded, _, below, hbelow, hsettle⟩⟩ := reduceTree_ok hfirst
      · exact allCanonical_nil
      · exact allCanonical_settle hsettle hdiscarded (hchildren hbelow)

theorem allCanonical_reduceTree {node : Node} {results : List Node}
    (hreduce : reduceTree language maxDepth depth before node = (after, .ok results)) :
    AllCanonical results := by
  have htrees : reduceTrees language maxDepth depth before [node] = (after, .ok results) := by
    simp [reduceTrees, hreduce]
  exact allCanonical_reduceTrees [node] htrees

end Reducing

/-! ## Binding -/

theorem Node.canonical_annotate {number : Nat} {node : Node} (hnode : node.Canonical) :
    (node.annotate number).Canonical := by
  intro inner hinner
  have htag : inner.tag ∈ node.preorder.map (·.tag) := by
    rw [← map_tag_preorder_annotate number]
    exact List.mem_map_of_mem hinner
  obtain ⟨old, hold, heq⟩ := List.mem_map.mp htag
  rw [← heq]
  exact hnode old hold

namespace Normalizer

variable {normalizer : Normalizer} {root : Node} {tree : CanonicalTree}

theorem canonical_bindNames (hroot : root.Canonical) : (normalizer.bindNames root).2.Canonical := by
  rw [bindNames]
  split
  · rw [(BindingState.run_eq root).1]
    exact canonical_annotate hroot
  · exact hroot

theorem span_bindNames (normalizer : Normalizer) (root : Node) :
    (normalizer.bindNames root).2.span = root.span := by
  rw [bindNames]
  split
  · rw [(BindingState.run_eq root).1, span_annotate]
  · rfl

/-- A tree is normalized exactly if it can be reduced; then its names are bound. -/
theorem normalize_ok_iff :
    normalizer.normalize root = .ok tree ↔
      ∃ state reduced,
        Reducing.run normalizer.language normalizer.config.maxDepth root =
          (state, .ok reduced) ∧
        ⟨(normalizer.bindNames reduced).2, (normalizer.bindNames reduced).1.arena,
          normalizer.language,
          ⟨state.visited, state.reduced, state.discarded,
            (normalizer.bindNames reduced).1.arena.size,
            (normalizer.bindNames reduced).1.bindings⟩⟩ = tree := by
  rw [normalize, run]
  match Reducing.run normalizer.language normalizer.config.maxDepth root with
  | (state, .error error) => simp
  | (state, .ok reduced) => simp

/-- The canonical tree that a reduced tree becomes by binding its names. -/
def bound (normalizer : Normalizer) (tally : Reducing.Tally) (reduced : Node) : CanonicalTree :=
  ⟨(normalizer.bindNames reduced).2, (normalizer.bindNames reduced).1.arena, normalizer.language,
    ⟨tally.visited, tally.reduced, tally.discarded, (normalizer.bindNames reduced).1.arena.size,
      (normalizer.bindNames reduced).1.bindings⟩⟩

/-- A tree is normalized by reducing it and binding its names, and it fails for the reason that it
cannot be reduced. -/
theorem normalize_eq_reduceTree (normalizer : Normalizer) (root : Node) :
    normalizer.normalize root =
      match Reducing.reduceTree normalizer.language normalizer.config.maxDepth 1 {} root with
      | (_, .error error) => .error error
      | (_, .ok []) => .error (.discardedRoot root.span)
      | (tally, .ok (reduced :: _)) => .ok (normalizer.bound tally reduced) := by
  have hvisit := Reducing.counted_visit normalizer.language normalizer.config.maxDepth 1 {} root
  change _ = Reducing.reduceTree normalizer.language normalizer.config.maxDepth 1 {} root at hvisit
  rw [← hvisit, normalize, run, Reducing.run, Walk.runTree_eq_visit]
  rcases hwalk : (Reducing.walk normalizer.language normalizer.config.maxDepth).visit 1 {} root with
    ⟨state, error | _ | ⟨first, _ | ⟨second, others⟩⟩⟩
  · rfl
  · rfl
  · rfl
  · rw [hwalk] at hvisit
    cases (Reducing.eq_singleton_of_reduceTree hvisit.symm).1

/-- A test that the result of a normalization passes is passed by a tree. -/
theorem exists_normalize_of_any {test : CanonicalTree → Bool}
    (htest : (normalizer.normalize root).toOption.any test = true) :
    ∃ tree, normalizer.normalize root = .ok tree ∧ test tree = true := by
  cases hresult : normalizer.normalize root with
  | error error => simp [hresult, Except.toOption] at htest
  | ok tree =>
      refine ⟨tree, rfl, ?_⟩
      simpa [hresult, Except.toOption] using htest

/-- If names are bound, the scopes of a normalized tree are those that its own nodes open, and the
tree has them noted. -/
theorem scopes_of_normalize (hbind : normalizer.config.bindScopes = true)
    (hok : normalizer.normalize root = .ok tree) :
    tree.scopes = tree.root.scopeArena ∧ tree.root.IsBound := by
  obtain ⟨state, reduced, hrun, rfl⟩ := normalize_ok_iff.mp hok
  have hbound : normalizer.bindNames reduced = BindingState.run reduced := by
    rw [bindNames, if_pos hbind]
  obtain ⟨hroot, harena⟩ := BindingState.run_eq reduced
  simp only [hbound, hroot, harena]
  exact ⟨(scopeArena_annotate reduced).symm, isBound_annotate reduced⟩

/-- A normalized tree has no raw node and no placeholder at any depth, and its root has the span
of the root that was given. -/
theorem normalize_canonical (hok : normalizer.normalize root = .ok tree) :
    (∀ node ∈ tree.root.toList, node.tag.isRaw = false ∧ node.tag.isDiscarded = false) ∧
      tree.root.span = root.span := by
  obtain ⟨state, reduced, hrun, rfl⟩ := normalize_ok_iff.mp hok
  have hreduce := Reducing.reduceTree_of_run hrun
  have hcanonical : reduced.Canonical :=
    (allCanonical_cons.mp (Reducing.allCanonical_reduceTree hreduce)).1
  constructor
  · intro node hnode
    rw [toList_eq_preorder] at hnode
    exact canonical_bindNames hcanonical node hnode
  · rw [span_bindNames]
    exact (Reducing.eq_singleton_of_reduceTree hreduce).2

/-- A tree in which a placeholder, a raw declaration and two nested blocks stand side by side. -/
def mixedUnit : Node :=
  .branch .list ⟨0, 40, 1, 1⟩
    [.branch .discarded .dummy [⟨.raw (.ecma .spread), .dummy, none, none, [], none⟩],
      ⟨.raw (.java .declPackage), ⟨0, 9, 1, 1⟩, some "p", none,
        [⟨.raw (.java .typeInstantiation), .dummy, none, none, [.leaf .ident .dummy], none⟩], none⟩,
      .branch .block ⟨10, 40, 2, 1⟩
        [(Node.leaf .decl ⟨12, 13, 2, 3⟩).withText "x",
          .branch .block ⟨20, 38, 3, 3⟩
            [.branch .decl ⟨22, 30, 3, 5⟩
              [(Node.leaf .ident .dummy).withText "y", (Node.leaf .ident .dummy).withText "z"]]]]

theorem exists_normalize_mixedUnit :
    ∃ tree, (⟨.java, {}⟩ : Normalizer).normalize mixedUnit = .ok tree := by
  have hsome : ((⟨.java, {}⟩ : Normalizer).normalize mixedUnit).toOption.isSome = true := by
    decide +kernel
  cases hresult : (⟨.java, {}⟩ : Normalizer).normalize mixedUnit with
  | error error => simp [hresult, Except.toOption] at hsome
  | ok tree => exact ⟨tree, rfl⟩

theorem normalize_canonical_mixedUnit :
    ∃ tree, (⟨.java, {}⟩ : Normalizer).normalize mixedUnit = .ok tree ∧
      (∀ node ∈ tree.root.toList, node.tag.isRaw = false ∧ node.tag.isDiscarded = false) ∧
      tree.root.span = mixedUnit.span := by
  obtain ⟨tree, hok⟩ := exists_normalize_mixedUnit
  exact ⟨tree, hok, normalize_canonical hok⟩

end Normalizer

end CanonTree
