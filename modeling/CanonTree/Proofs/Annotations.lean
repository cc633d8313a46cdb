import CanonTree.Proofs.Binding.Declarations
import CanonTree.Proofs.Conservation

/-!
# Which scopes are noted on a normalized tree

Binding names notes a scope on every node that opens one, and on no other node.  It does
not take away what is noted already: a scope that a node without one of its own has from
before, and every scope if names are not bound, is still there afterwards if the node
survives.  Nodes that rules make have none.  So the scopes noted on a normalized tree
are those of the run exactly if no surviving node comes with a stale one.
-/

namespace CanonTree

open Node

/-! ## Stale scopes -/

namespace Node

/-- The node has a scope noted on it that no run notes there; `bound` says if the run binds
names. -/
def isStale (bound : Bool) (node : Node) : Bool :=
  node.scope.isSome && !(bound && node.tag.hasOwnScope)

/-- The nodes of a tree that have a stale scope, without their children. -/
def staleNodes (bound : Bool) (root : Node) : List Node :=
  (root.toList.map bare).filter (isStale bound)

theorem isStale_of_scope_eq_none (bound : Bool) {node : Node} (hscope : node.scope = none) :
    node.isStale bound = false := by
  rw [isStale, hscope]
  rfl

/-- A node that has a scope if it is to have one has no stale scope exactly if it has none
otherwise. -/
theorem isStale_eq_false_iff {bound : Bool} {node : Node}
    (hnoted : bound = true → node.tag.hasOwnScope = true → node.scope.isSome = true) :
    node.isStale bound = false ↔ node.scope.isSome = (bound && node.tag.hasOwnScope) := by
  rw [isStale]
  cases bound with
  | false => simp
  | true =>
      cases hown : node.tag.hasOwnScope with
      | false => simp
      | true => simp [hnoted rfl hown]

theorem staleNodes_eq (bound : Bool) (root : Node) :
    root.staleNodes bound = (bareAll [root]).filter (isStale bound) := by
  rw [staleNodes, toList_eq_preorder, bareAll, preorderAll_singleton]

theorem staleNodes_eq_nil_iff {bound : Bool} {root : Node} :
    root.staleNodes bound = [] ↔ ∀ node ∈ root.toList, node.isStale bound = false := by
  simp [staleNodes, isStale, bare]

/-- Scopes are noted only where a node opens one, so no stale scope comes or goes. -/
theorem filter_isStale_annotateAll (nodes : List Node) :
    ∀ number, (bareAll (annotateAll number nodes)).filter (isStale true) =
      (bareAll nodes).filter (isStale true) := by
  induction nodes using forest_induction with
  | nil =>
      intro number
      rfl
  | cons node nodes hchildren hnodes =>
      intro number
      rw [annotateAll, bareAll_cons, bareAll_cons, List.filter_cons, List.filter_cons,
        List.filter_append, List.filter_append, children_annotate, hchildren, hnodes]
      cases hown : node.tag.hasOwnScope with
      | true =>
          have hnever : ∀ inner : Node, inner.tag = node.tag → inner.bare.isStale true = false := by
            intro inner htag
            simp [isStale, bare, htag, hown]
          rw [hnever _ (tag_annotate number node), hnever node rfl]
          rfl
      | false =>
          have hbare : (node.annotate number).bare = node.bare := by
            rw [annotate_eq, hown]
            rfl
          rw [hbare]

end Node

/-- Nodes that stand for raw nodes or were added have no scope, so what is stale has survived. -/
theorem Conserved.filter_isStale_perm {raws found owed : List Node}
    (hconserved : Conserved raws found owed) (bound : Bool) :
    (found.filter (isStale bound)).Perm (owed.filter (isStale bound)) := by
  obtain ⟨results, added, hperm, hresults, hadded⟩ := hconserved
  have hmade : (results ++ added).filter (isStale bound) = [] := by
    rw [List.filter_eq_nil_iff]
    intro node hnode
    rw [Bool.not_eq_true]
    apply isStale_of_scope_eq_none
    obtain hresult | hextra := List.mem_append.mp hnode
    · obtain ⟨index, hindex⟩ := List.mem_iff_getElem?.mp hresult
      obtain ⟨raw, -, hstands⟩ := exists_getElem?_of_forall₂ hresults.flip hindex
      exact hstands.scope
    · exact (hadded node hextra).scope
  have hstale := hperm.filter (isStale bound)
  rwa [List.filter_append, hmade, List.append_nil] at hstale

/-! ## Normalized trees -/

/-- A node that opens a scope has it noted, and it is in the arena. -/
theorem CanonicalTree.isSome_scopeOf? {tree : CanonicalTree}
    (hscopes : tree.scopes = tree.root.scopeArena) (hbound : tree.root.IsBound) {node : Node}
    (hnode : node ∈ tree.root.toList) (hown : node.tag.hasOwnScope = true) :
    (tree.scopeOf? node).isSome = true := by
  obtain ⟨index, ancestors, hentry⟩ := exists_scopeOwners_getElem? hnode hown
  obtain ⟨scope, hget, hopened⟩ := exists_openedBy hbound hentry
  rw [scopeOf?, hopened.noted, Option.bind_some, hscopes, hget]
  rfl

namespace Normalizer

variable {normalizer : Normalizer} {root : Node} {tree : CanonicalTree}

theorem staleNodes_bindNames (normalizer : Normalizer) (root : Node) :
    (normalizer.bindNames root).2.staleNodes normalizer.config.bindScopes =
      root.staleNodes normalizer.config.bindScopes := by
  cases hbind : normalizer.config.bindScopes with
  | true =>
      rw [bindNames, if_pos hbind, (BindingState.run_eq root).1, staleNodes_eq, staleNodes_eq]
      exact filter_isStale_annotateAll [root] root.openedBefore
  | false =>
      rw [bindNames, hbind]
      rfl

/-- The stale scopes of a normalized tree are exactly those that surviving nodes came with. -/
theorem staleNodes_perm (hok : normalizer.normalize root = .ok tree) :
    (tree.root.staleNodes normalizer.config.bindScopes).Perm
      (root.survivors.filter (isStale normalizer.config.bindScopes)) := by
  obtain ⟨reduced, hroot, hconserved⟩ := conserved_of_normalize hok
  rw [hroot, staleNodes_bindNames, staleNodes, toList_eq_preorder]
  exact hconserved.filter_isStale_perm normalizer.config.bindScopes

/-- If names are bound, every node of a normalized tree that opens a scope has one, in the arena.
Any other scope that is noted on the tree, and any scope at all if names are not bound, was noted
on a surviving node before, and all of these stay.  So a scope is noted exactly on the nodes that
open one, and on none if names are not bound, exactly if no surviving node comes with a stale
scope. -/
theorem normalize_annotations (hok : normalizer.normalize root = .ok tree) :
    (normalizer.config.bindScopes = true → ∀ node ∈ tree.root.toList,
      node.tag.hasOwnScope = true → (tree.scopeOf? node).isSome = true) ∧
    (tree.root.staleNodes normalizer.config.bindScopes).Perm
      (root.survivors.filter (isStale normalizer.config.bindScopes)) ∧
    ((∀ node ∈ tree.root.toList,
        node.scope.isSome = (normalizer.config.bindScopes && node.tag.hasOwnScope)) ↔
      ∀ node ∈ root.survivors, node.isStale normalizer.config.bindScopes = false) := by
  have howners : normalizer.config.bindScopes = true → ∀ node ∈ tree.root.toList,
      node.tag.hasOwnScope = true → (tree.scopeOf? node).isSome = true := by
    intro hbind node hnode hown
    obtain ⟨hscopes, hbound⟩ := scopes_of_normalize hbind hok
    exact CanonicalTree.isSome_scopeOf? hscopes hbound hnode hown
  have hperm := staleNodes_perm hok
  refine ⟨howners, hperm, ?_⟩
  calc
    (∀ node ∈ tree.root.toList,
        node.scope.isSome = (normalizer.config.bindScopes && node.tag.hasOwnScope))
      ↔ ∀ node ∈ tree.root.toList, node.isStale normalizer.config.bindScopes = false := by
        apply forall₂_congr
        intro node hnode
        refine (isStale_eq_false_iff ?_).symm
        intro hbind hown
        exact Option.isSome_of_isSome_bind (howners hbind node hnode hown)
    _ ↔ tree.root.staleNodes normalizer.config.bindScopes = [] := staleNodes_eq_nil_iff.symm
    _ ↔ root.survivors.filter (isStale normalizer.config.bindScopes) = [] := by
        rw [← List.perm_nil, ← List.perm_nil]
        exact ⟨hperm.symm.trans, hperm.trans⟩
    _ ↔ ∀ node ∈ root.survivors, node.isStale normalizer.config.bindScopes = false := by
        simp [List.filter_eq_nil_iff]

/-- Two blocks that were normalized side by side, the first of which has become a plain list. -/
def editedUnit : Node :=
  .branch .list ⟨0, 30, 1, 1⟩
    [{ Node.leaf .list ⟨0, 9, 1, 1⟩ with scope := some (.ofNumber 1) },
      { Node.leaf .block ⟨10, 20, 2, 1⟩ with scope := some (.ofNumber 2) }]

theorem normalize_annotations_editedUnit :
    ∃ tree, (⟨.java, {}⟩ : Normalizer).normalize editedUnit = .ok tree ∧
      (∀ node ∈ tree.root.toList,
        node.tag.hasOwnScope = true → (tree.scopeOf? node).isSome = true) ∧
      (tree.root.staleNodes true).Perm (editedUnit.survivors.filter (isStale true)) ∧
      ((∀ node ∈ tree.root.toList, node.scope.isSome = node.tag.hasOwnScope) ↔
        ∀ node ∈ editedUnit.survivors, node.isStale true = false) := by
  have hcounted : ((⟨.java, {}⟩ : Normalizer).normalize editedUnit).toOption.any
      (fun tree => tree.stats.scopes == 2) = true := by
    decide +kernel
  obtain ⟨tree, hok, -⟩ := exists_normalize_of_any hcounted
  obtain ⟨howners, hperm, hexact⟩ := normalize_annotations hok
  exact ⟨tree, hok, howners rfl, hperm, hexact⟩

/-- The list keeps the scope of the block that it was, which now names the scope of the other
block; and without binding, both keep the scopes of an arena that is not there. -/
theorem normalize_keeps_stale :
    (∃ tree, (⟨.java, {}⟩ : Normalizer).normalize editedUnit = .ok tree ∧
      ∃ node ∈ tree.root.toList,
        (tree.scopeOf? node).isSome = true ∧ node.tag.hasOwnScope = false) ∧
    ∃ tree, (⟨.java, { bindScopes := false }⟩ : Normalizer).normalize editedUnit = .ok tree ∧
      ∃ node ∈ tree.root.toList, node.scope.isSome = true := by
  constructor
  · have hfound : ((⟨.java, {}⟩ : Normalizer).normalize editedUnit).toOption.any (fun tree =>
        tree.root.toList.any fun node => (tree.scopeOf? node).isSome && !node.tag.hasOwnScope) =
          true := by
      decide +kernel
    obtain ⟨tree, hok, hany⟩ := exists_normalize_of_any hfound
    refine ⟨tree, hok, ?_⟩
    simpa using hany
  · have hfound : ((⟨.java, { bindScopes := false }⟩ : Normalizer).normalize
        editedUnit).toOption.any (fun tree => tree.root.toList.any (·.scope.isSome)) = true := by
      decide +kernel
    obtain ⟨tree, hok, hany⟩ := exists_normalize_of_any hfound
    refine ⟨tree, hok, ?_⟩
    simpa using hany

end Normalizer

end CanonTree
