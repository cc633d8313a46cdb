import CanonTree.Normalize.Basic
import CanonTree.Proofs.Binding.Numbering

/-!
# What does not depend on scopes

Trees have the same shape exactly if they are equal without their scopes.  Noting
scopes on a tree keeps its shape, and whatever can be read off a node without looking
at scopes is the same, node by node, on all trees of one shape.
-/

namespace CanonTree

namespace Node

theorem eraseScopesAll_eq_map (nodes : List Node) :
    eraseScopesAll nodes = nodes.map eraseScopes := by
  induction nodes with
  | nil => rfl
  | cons node nodes ih => rw [eraseScopesAll, List.map_cons, ih]

theorem eraseScopes_eq (node : Node) :
    node.eraseScopes = { node with children := eraseScopesAll node.children, scope := none } := by
  cases node
  rfl

theorem sameShape_eq (left right : Node) :
    left.sameShape right =
      (left.tag == right.tag && left.span == right.span && left.text == right.text &&
        left.operator == right.operator && sameShapeAll left.children right.children) := by
  cases left
  cases right
  rfl

theorem sameShapeAll_iff (left : List Node) :
    ∀ right, sameShapeAll left right = true ↔ eraseScopesAll left = eraseScopesAll right := by
  induction left using forest_induction with
  | nil =>
      intro right
      cases right <;> simp [sameShapeAll, eraseScopesAll]
  | cons node nodes hchildren hnodes =>
      intro right
      cases right with
      | nil => simp [sameShapeAll, eraseScopesAll]
      | cons other others =>
          rw [sameShapeAll, Bool.and_eq_true, hnodes, sameShape_eq, eraseScopesAll,
            eraseScopesAll, List.cons.injEq, eraseScopes_eq, eraseScopes_eq, Node.mk.injEq]
          simp only [Bool.and_eq_true, beq_iff_eq, hchildren, and_assoc, true_and]

/-- Trees have the same shape exactly if they are equal once every scope is erased. -/
theorem sameShape_iff {left right : Node} :
    left.sameShape right = true ↔ left.eraseScopes = right.eraseScopes := by
  simpa [sameShapeAll, eraseScopesAll] using sameShapeAll_iff [left] [right]

/-! ## Reading nodes without their scopes -/

section View

variable {α : Type} {view : Node → α}

theorem map_preorderAll_eraseScopesAll (hview : ∀ node, view node.eraseScopes = view node)
    (nodes : List Node) :
    (preorderAll (eraseScopesAll nodes)).map view = (preorderAll nodes).map view := by
  induction nodes using forest_induction with
  | nil => rfl
  | cons node nodes hchildren hnodes =>
      have hbelow : node.eraseScopes.children = eraseScopesAll node.children := by
        rw [eraseScopes_eq]
      simp only [eraseScopesAll, preorderAll, preorder_eq, List.map_append, List.map_cons,
        hview, hbelow, hchildren, hnodes]

/-- What is read off the nodes of a tree without looking at scopes depends on its shape alone. -/
theorem map_preorder_congr (hview : ∀ node, view node.eraseScopes = view node)
    {left right : Node} (hshape : left.eraseScopes = right.eraseScopes) :
    left.preorder.map view = right.preorder.map view := by
  have herased : ∀ node : Node, node.eraseScopes.preorder.map view = node.preorder.map view := by
    intro node
    simpa [eraseScopesAll, preorderAll] using map_preorderAll_eraseScopesAll hview [node]
  rw [← herased left, hshape, herased right]

end View

/-! ## Noting scopes -/

theorem eraseScopesAll_annotateAll (nodes : List Node) :
    ∀ number, eraseScopesAll (annotateAll number nodes) = eraseScopesAll nodes := by
  induction nodes using forest_induction with
  | nil =>
      intro number
      rfl
  | cons node nodes hchildren hnodes =>
      intro number
      have hnode : (node.annotate number).eraseScopes = node.eraseScopes := by
        rw [eraseScopes_eq, eraseScopes_eq, annotate_eq]
        split <;> simp only [hchildren]
      rw [annotateAll, eraseScopesAll, eraseScopesAll, hnodes, hnode]

theorem eraseScopes_annotate (number : Nat) (node : Node) :
    (node.annotate number).eraseScopes = node.eraseScopes := by
  simpa [annotateAll, eraseScopesAll] using eraseScopesAll_annotateAll [node] number

end Node

/-- Binding the names of a tree keeps its shape, whatever the settings say. -/
theorem Normalizer.eraseScopes_bindNames (normalizer : Normalizer) (root : Node) :
    (normalizer.bindNames root).2.eraseScopes = root.eraseScopes := by
  rw [bindNames]
  split
  · rw [(BindingState.run_eq root).1, Node.eraseScopes_annotate]
  · rfl

end CanonTree
