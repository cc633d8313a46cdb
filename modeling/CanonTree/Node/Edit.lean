import CanonTree.Node.Order

/-!
# Editing one node of a tree

A node inside a tree is addressed by its position in the listing, parents first,
so the root is at position 0.
-/

namespace CanonTree

namespace Node

mutual

/-- The tree with one node changed, or nothing if it has no node at that position. -/
def modifyAt? (change : Node → Node) : Nat → Node → Option Node
  | 0, node => some (change node)
  | position + 1, ⟨tag, span, text, operator, children, scope⟩ =>
      (modifyAmong? change position children).map
        (⟨tag, span, text, operator, ·, scope⟩)

/-- The same on a list of trees, listed one tree after the other. -/
def modifyAmong? (change : Node → Node) : Nat → List Node → Option (List Node)
  | _, [] => none
  | position, node :: nodes =>
      if position < node.size then (modifyAt? change position node).map (· :: nodes)
      else (modifyAmong? change (position - node.size) nodes).map (node :: ·)

end

end Node

end CanonTree
