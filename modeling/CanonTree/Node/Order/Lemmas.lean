import CanonTree.Node.Order

/-!
# The listing agrees with the recursion

Working off a stack of trees that are still to be visited comes to the same as the
recursion on the tree: a cursor hands out the nodes in the same order, so that
counting them gives the size, and the greatest depth found is the height.  Each
statement is about an arbitrary stack, since that is what is left after a few nodes.
-/

namespace CanonTree

namespace Node

theorem preorderAll_eq_flatMap (nodes : List Node) :
    preorderAll nodes = nodes.flatMap preorder := by
  induction nodes with
  | nil => rfl
  | cons node nodes ih => rw [preorderAll, List.flatMap_cons, ih]

theorem preorderAll_append (left right : List Node) :
    preorderAll (left ++ right) = preorderAll left ++ preorderAll right := by
  simp only [preorderAll_eq_flatMap, List.flatMap_append]

namespace Cursor

theorem pending_of_next?_eq_none {cursor : Cursor} (hnext : cursor.next? = none) :
    cursor.pending = [] := by
  match cursor with
  | ⟨[]⟩ => rfl

/-- One step hands out the first node that is still to be listed, and leaves the others. -/
theorem preorderAll_of_next? {cursor rest : Cursor} {node : Node}
    (hnext : cursor.next? = some (node, rest)) :
    preorderAll cursor.pending = node :: preorderAll rest.pending := by
  match cursor with
  | ⟨first :: others⟩ =>
      cases hnext
      rw [preorderAll, preorder_eq, preorderAll_append, List.cons_append]

/-- Whatever is pending, a cursor hands out the nodes of the pending trees, one tree after the
other. -/
theorem toList_drain (cursor : Cursor) (out : Array Node) :
    (cursor.drain out).toList = out.toList ++ preorderAll cursor.pending := by
  fun_induction drain cursor out with
  | case1 cursor out hnext =>
      rw [pending_of_next?_eq_none hnext, preorderAll, List.append_nil]
  | case2 cursor out node rest hnext _ ih =>
      rw [ih, preorderAll_of_next? hnext, Array.toList_push, List.append_assoc,
        List.singleton_append]

end Cursor

/-- The listing of a tree is the node followed by the listings of its children. -/
theorem toList_eq_preorder (node : Node) : node.toList = node.preorder := by
  rw [toList, Cursor.toList_drain]
  simp [preorderAll]

mutual

theorem length_preorder : ∀ node : Node, node.preorder.length = node.size
  | ⟨_, _, _, _, children, _⟩ => by
      simp [preorder, size, length_preorderAll children]

theorem length_preorderAll : ∀ nodes : List Node, (preorderAll nodes).length = sizeAll nodes
  | [] => rfl
  | node :: nodes => by
      simp [preorderAll, sizeAll, length_preorder node, length_preorderAll nodes]

end

theorem count_eq_size (node : Node) : node.count = node.size := by
  rw [count, toList_eq_preorder, length_preorder]

/-- The greatest depth that the trees on a stack reach. -/
def reach : List (Nat × Node) → Nat
  | [] => 0
  | (depth, node) :: rest => max (depth + heightAll node.children) (reach rest)

theorem reach_append (left right : List (Nat × Node)) :
    reach (left ++ right) = max (reach left) (reach right) := by
  induction left with
  | nil => simp [reach]
  | cons entry entries ih => simp [reach, ih, Nat.max_assoc]

theorem reach_reverse (stack : List (Nat × Node)) : reach stack.reverse = reach stack := by
  induction stack with
  | nil => rfl
  | cons entry entries ih =>
      rw [List.reverse_cons, reach_append, ih, Nat.max_comm]
      simp [reach]

theorem max_reach_atDepth (depth : Nat) (nodes : List Node) :
    max depth (reach (atDepth (depth + 1) nodes)) = depth + heightAll nodes := by
  induction nodes with
  | nil => simp [atDepth, reach, heightAll]
  | cons node nodes ih =>
      have hheight := node.height_eq
      simp only [atDepth, List.map_cons, reach, heightAll] at ih ⊢
      omega

/-- Whatever is on the stack, and in whichever order, the greatest depth that it reaches is
found. -/
theorem deepestFrom_eq_max (stack : List (Nat × Node)) (deepest : Nat) :
    deepestFrom stack deepest = max deepest (reach stack) := by
  fun_induction deepestFrom stack deepest with
  | case1 deepest => simp [reach]
  | case2 deepest depth node rest ih =>
      have hchildren := max_reach_atDepth depth node.children
      rw [ih, reach_append, reach_reverse, reach]
      omega

theorem depth_eq_height (node : Node) : node.depth = node.height := by
  rw [depth, deepestFrom_eq_max, reach, reach, height_eq]
  omega

end Node

end CanonTree
