import CanonTree.Node.Basic

/-!
# Listing a tree

A tree is listed parents first and siblings in order.  `Node.preorder`,
`Node.size` and `Node.height` say by recursion what the list, its length and the
longest path are.  What runs keeps the trees that are still to be visited on a
stack, so that a tree of any depth can be visited.  There are three such stacks:
`Node.Cursor` hands out one node after the other, `Node.levels` notes how deep each
node stands, and `Node.depth` only keeps the greatest depth, for which the order
does not matter, so that it puts children on its stack as they come and meets the
last one first.  The other queries read the list of nodes.
-/

namespace CanonTree

namespace Node

mutual

def size : Node → Nat
  | ⟨_, _, _, _, children, _⟩ => sizeAll children + 1

def sizeAll : List Node → Nat
  | [] => 0
  | node :: nodes => size node + sizeAll nodes

end

mutual

/-- Number of nodes on the longest path from the root. -/
def height : Node → Nat
  | ⟨_, _, _, _, children, _⟩ => heightAll children + 1

def heightAll : List Node → Nat
  | [] => 0
  | node :: nodes => max (height node) (heightAll nodes)

end

mutual

/-- The nodes of a tree, parents first and siblings in order. -/
def preorder : Node → List Node
  | ⟨tag, span, text, operator, children, scope⟩ =>
      ⟨tag, span, text, operator, children, scope⟩ :: preorderAll children

def preorderAll : List Node → List Node
  | [] => []
  | node :: nodes => preorder node ++ preorderAll nodes

end

theorem size_eq (node : Node) : node.size = sizeAll node.children + 1 := by
  cases node
  rfl

theorem height_eq (node : Node) : node.height = heightAll node.children + 1 := by
  cases node
  rfl

theorem preorder_eq (node : Node) : node.preorder = node :: preorderAll node.children := by
  cases node
  rfl

theorem sizeAll_append (left right : List Node) :
    sizeAll (left ++ right) = sizeAll left + sizeAll right := by
  induction left with
  | nil => simp [sizeAll]
  | cons node nodes ih => simp [sizeAll, ih, Nat.add_assoc]

theorem sizeAll_perm {left right : List Node} (hperm : left.Perm right) :
    sizeAll left = sizeAll right := by
  induction hperm with
  | nil => rfl
  | cons node _ ih => rw [sizeAll, sizeAll, ih]
  | swap first second nodes => rw [sizeAll, sizeAll, sizeAll, sizeAll, Nat.add_left_comm]
  | trans _ _ ihleft ihright => rw [ihleft, ihright]

/-! ## One node after the other -/

/-- A listing under way: the trees that are still to be listed, the next one first. -/
structure Cursor where
  pending : List Node

namespace Cursor

/-- The next node, and the listing behind it, in which the node's children come first. -/
def next? : Cursor → Option (Node × Cursor)
  | ⟨[]⟩ => none
  | ⟨node :: rest⟩ => some (node, ⟨node.children ++ rest⟩)

theorem sizeAll_of_next? {cursor rest : Cursor} {node : Node}
    (hnext : cursor.next? = some (node, rest)) :
    sizeAll cursor.pending = sizeAll rest.pending + 1 := by
  match cursor with
  | ⟨first :: others⟩ =>
      cases hnext
      rw [sizeAll, size_eq, sizeAll_append]
      omega

/-- Puts all nodes that are still to come behind `out`. -/
def drain (cursor : Cursor) (out : Array Node) : Array Node :=
  match hnext : cursor.next? with
  | none => out
  | some (node, rest) =>
      have := sizeAll_of_next? hnext
      rest.drain (out.push node)
termination_by sizeAll cursor.pending

end Cursor

/-- The nodes of a tree, parents first and siblings in order. -/
def toList (node : Node) : List Node :=
  ((Cursor.mk [node]).drain #[]).toList

def count (node : Node) : Nat :=
  node.toList.length

def containsRaw (node : Node) : Bool :=
  node.toList.any (·.tag.isRaw)

def rawTags (node : Node) : List (RawTag × Span) :=
  node.toList.filterMap fun inner => inner.rawTag?.map (·, inner.span)

/-! ## Nodes with their depths -/

/-- Nodes still to be visited below the trees of a work list. -/
def pendingSize (work : List (Nat × Node)) : Nat :=
  sizeAll (work.map (·.2))

/-- Trees that are all at one depth, as a work list. -/
def atDepth (depth : Nat) (nodes : List Node) : List (Nat × Node) :=
  nodes.map ((depth, ·))

theorem map_snd_atDepth (depth : Nat) (nodes : List Node) :
    (atDepth depth nodes).map (·.2) = nodes := by
  simp [atDepth, Function.comp_def]

theorem pendingSize_cons (depth : Nat) (node : Node) (rest : List (Nat × Node)) :
    pendingSize ((depth, node) :: rest) = sizeAll node.children + 1 + pendingSize rest := by
  rw [pendingSize, List.map_cons, sizeAll, size_eq, pendingSize]

theorem pendingSize_append (left right : List (Nat × Node)) :
    pendingSize (left ++ right) = pendingSize left + pendingSize right := by
  rw [pendingSize, List.map_append, sizeAll_append, pendingSize, pendingSize]

theorem pendingSize_reverse (work : List (Nat × Node)) :
    pendingSize work.reverse = pendingSize work := by
  rw [pendingSize, List.map_reverse, sizeAll_perm (List.reverse_perm _), pendingSize]

theorem pendingSize_atDepth (depth : Nat) (nodes : List Node) :
    pendingSize (atDepth depth nodes) = sizeAll nodes := by
  rw [pendingSize, map_snd_atDepth]

/-- Lists the trees of a work list behind `out`; a node's children replace it on the list. -/
def levelsFrom (work : List (Nat × Node)) (out : Array (Nat × Node)) : Array (Nat × Node) :=
  match work with
  | [] => out
  | (depth, node) :: rest =>
      levelsFrom (atDepth (depth + 1) node.children ++ rest) (out.push (depth, node))
termination_by pendingSize work
decreasing_by
  rw [pendingSize_append, pendingSize_atDepth, pendingSize_cons]
  omega

/-- Every node with its depth below the root, parents first and siblings in order. -/
def levels (node : Node) : Array (Nat × Node) :=
  levelsFrom [(0, node)] #[]

/-- Works off a stack of trees with the depths of their roots; `deepest` is the greatest depth so
far.  A node's children replace it on the stack, the last one on top. -/
def deepestFrom (stack : List (Nat × Node)) (deepest : Nat) : Nat :=
  match stack with
  | [] => deepest
  | (depth, node) :: rest =>
      deepestFrom ((atDepth (depth + 1) node.children).reverse ++ rest) (max deepest depth)
termination_by pendingSize stack
decreasing_by
  rw [pendingSize_append, pendingSize_reverse, pendingSize_atDepth, pendingSize_cons]
  omega

/-- Number of nodes on the longest path from the root. -/
def depth (node : Node) : Nat :=
  deepestFrom [(1, node)] 0

end Node

end CanonTree
