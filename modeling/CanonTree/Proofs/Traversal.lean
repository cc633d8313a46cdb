import CanonTree.Proofs.Conservation
import CanonTree.Proofs.Shape
import Mathlib.Algebra.GroupWithZero.Nat

/-!
# Visiting a tree on a stack

Each query about a tree keeps the trees that it has still to visit on a stack of its own, and
yet it answers as a recursion on the tree would: from the root and the answers for its
children.  For the list of nodes this fixes the order, which is said once more by positions.
A path of child numbers leads to at most one node, and the list runs through the paths that
lead to one in lexicographic order, without repeating any; so a node comes before those below
it, and these come before its later siblings.

Comparing trees up to their scopes is a recursion on both.  It comes to the equality of the
trees without any scope, and so it is an equivalence.
-/

namespace CanonTree

theorem Tag.isSome_raw? (tag : Tag) : tag.raw?.isSome = tag.isRaw := by
  cases tag with
  | shared tag => exact (isRaw_eq_false (by simp)).symm
  | java tag => exact (isRaw_eq_false (by simp)).symm
  | raw tag => exact (flags_raw tag).1.symm

namespace Node

/-! ## Positions -/

/-- The node at the end of a path, which tells at each node the number of the child to go to. -/
def follow? : Node → List Nat → Option Node
  | node, [] => some node
  | node, index :: path => node.children[index]?.bind fun child => child.follow? path

mutual

/-- The nodes of a tree with the paths that lead to them, parents first and siblings in order. -/
def positions : Node → List (List Nat × Node)
  | ⟨tag, span, text, operator, children, scope⟩ =>
      ([], ⟨tag, span, text, operator, children, scope⟩) :: positionsAll 0 children

/-- The same for siblings, of which the first has the given number. -/
def positionsAll (number : Nat) : List Node → List (List Nat × Node)
  | [] => []
  | node :: nodes =>
      (positions node).map (Prod.map (number :: ·) id) ++ positionsAll (number + 1) nodes

end

theorem positions_eq (node : Node) :
    node.positions = ([], node) :: positionsAll 0 node.children := by
  cases node
  rfl

theorem map_snd_positionsAll (nodes : List Node) :
    ∀ number, (positionsAll number nodes).map (·.2) = preorderAll nodes := by
  induction nodes using forest_induction with
  | nil =>
      intro number
      rfl
  | cons node nodes hchildren hnodes =>
      intro number
      rw [positionsAll, positions_eq, preorderAll, preorder_eq, List.map_append, hnodes,
        List.map_map, ← hchildren 0]
      rfl

/-- A path leads to a node among siblings, of which the first has the given number: it starts with
the number of one of them, and the rest of it leads on from there. -/
def LeadsAmong (number : Nat) (nodes : List Node) (path : List Nat) (inner : Node) : Prop :=
  ∃ index node below, path = (number + index) :: below ∧ nodes[index]? = some node ∧
    node.follow? below = some inner

theorem leadsAmong_cons_iff {number : Nat} {node inner : Node} {nodes : List Node}
    {path : List Nat} :
    LeadsAmong number (node :: nodes) path inner ↔
      (∃ below, path = number :: below ∧ node.follow? below = some inner) ∨
        LeadsAmong (number + 1) nodes path inner := by
  constructor
  · rintro ⟨index, other, below, hpath, hother, hbelow⟩
    cases index with
    | zero =>
        cases hother
        exact .inl ⟨below, hpath, hbelow⟩
    | succ index =>
        rw [← Nat.add_assoc, Nat.add_right_comm] at hpath
        exact .inr ⟨index, other, below, hpath, hother, hbelow⟩
  · rintro (⟨below, hpath, hbelow⟩ | ⟨index, other, below, hpath, hother, hbelow⟩)
    · exact ⟨0, node, below, hpath, rfl, hbelow⟩
    · rw [Nat.add_right_comm, Nat.add_assoc] at hpath
      exact ⟨index + 1, other, below, hpath, hother, hbelow⟩

theorem follow?_eq_some_iff {node inner : Node} {path : List Nat} :
    node.follow? path = some inner ↔
      path = [] ∧ inner = node ∨ LeadsAmong 0 node.children path inner := by
  cases path with
  | nil => simp [follow?, LeadsAmong, eq_comm]
  | cons index below => simp [follow?, LeadsAmong, Option.bind_eq_some_iff]

theorem mem_positions_iff_of_children {node inner : Node} {path : List Nat}
    (hchildren : (path, inner) ∈ positionsAll 0 node.children ↔
      LeadsAmong 0 node.children path inner) :
    (path, inner) ∈ node.positions ↔ node.follow? path = some inner := by
  rw [positions_eq, List.mem_cons, hchildren, follow?_eq_some_iff, Prod.mk.injEq]

theorem mem_positionsAll_iff (nodes : List Node) :
    ∀ {number path inner}, (path, inner) ∈ positionsAll number nodes ↔
      LeadsAmong number nodes path inner := by
  induction nodes using forest_induction with
  | nil =>
      intro number path inner
      simp [positionsAll, LeadsAmong]
  | cons node nodes hchildren hnodes =>
      intro number path inner
      rw [positionsAll, List.mem_append, hnodes, leadsAmong_cons_iff]
      simp [mem_positions_iff_of_children hchildren, eq_comm, and_comm]

/-- The positions of a tree are the paths that lead to a node, each with that node. -/
theorem mem_positions_iff {node inner : Node} {path : List Nat} :
    (path, inner) ∈ node.positions ↔ node.follow? path = some inner :=
  mem_positions_iff_of_children (mem_positionsAll_iff node.children)

theorem pairwise_positions_of_children {node : Node}
    (hchildren : (positionsAll 0 node.children).Pairwise (·.1 < ·.1)) :
    node.positions.Pairwise (·.1 < ·.1) := by
  rw [positions_eq, List.pairwise_cons]
  refine ⟨?_, hchildren⟩
  rintro ⟨path, inner⟩ hmem
  obtain ⟨index, child, below, rfl, -, -⟩ := (mem_positionsAll_iff _).mp hmem
  exact List.nil_lt_cons _ _

/-- Siblings come in the order of their numbers, each with all that stands below it. -/
theorem pairwise_positionsAll (nodes : List Node) :
    ∀ number, (positionsAll number nodes).Pairwise (·.1 < ·.1) := by
  induction nodes using forest_induction with
  | nil =>
      intro number
      exact .nil
  | cons node nodes hchildren hnodes =>
      intro number
      rw [positionsAll, List.pairwise_append, List.pairwise_map]
      refine ⟨?_, hnodes (number + 1), ?_⟩
      · apply (pairwise_positions_of_children (hchildren 0)).imp
        intro left right hless
        exact List.cons_lt_cons_iff.mpr (.inr ⟨rfl, hless⟩)
      · -- the first numbers decide, whatever stands behind them
        rintro left hleft ⟨path, inner⟩ hright
        obtain ⟨entry, -, rfl⟩ := List.mem_map.mp hleft
        obtain ⟨index, other, below, rfl, -, -⟩ := (mem_positionsAll_iff _).mp hright
        apply List.cons_lt_cons_iff.mpr
        left
        omega

/-- The list holds the nodes of a tree in the order of the paths that lead to them, with one entry
for each path: a parent comes before all that stands below it, and that comes before the next
sibling of the parent. -/
def ListedInOrder (node : Node) (listed : List Node) : Prop :=
  ∃ entries : List (List Nat × Node), entries.map (·.2) = listed ∧
    entries.Pairwise (·.1 < ·.1) ∧
    ∀ path inner, (path, inner) ∈ entries ↔ node.follow? path = some inner

theorem listedInOrder_toList (node : Node) : node.ListedInOrder node.toList := by
  -- equal nodes may stand in several places, so that only the paths tell the entries apart
  refine ⟨node.positions, ?_, ?_, fun path inner => mem_positions_iff⟩
  · rw [toList_eq_preorder, positions_eq, preorder_eq, List.map_cons, map_snd_positionsAll]
  · exact pairwise_positions_of_children (pairwise_positionsAll node.children 0)

/-! ## Answers from those for the children -/

theorem sizeAll_eq_sum (nodes : List Node) : sizeAll nodes = (nodes.map size).sum := by
  induction nodes with
  | nil => rfl
  | cons node nodes ih => rw [sizeAll, List.map_cons, List.sum_cons, ih]

theorem heightAll_eq_foldr (nodes : List Node) :
    heightAll nodes = (nodes.map height).foldr max 0 := by
  induction nodes with
  | nil => rfl
  | cons node nodes ih => rw [heightAll, List.map_cons, List.foldr_cons, ih]

theorem toList_eq_cons (node : Node) : node.toList = node :: node.children.flatMap toList := by
  have hlisting : toList = preorder := funext toList_eq_preorder
  rw [hlisting, preorder_eq, preorderAll_eq_flatMap]

theorem count_eq_sum (node : Node) : node.count = 1 + (node.children.map count).sum := by
  have hcount : count = size := funext count_eq_size
  rw [hcount, size_eq, sizeAll_eq_sum, Nat.add_comm]

theorem depth_eq_foldr (node : Node) :
    node.depth = 1 + (node.children.map depth).foldr max 0 := by
  have hdepth : depth = height := funext depth_eq_height
  rw [hdepth, height_eq, heightAll_eq_foldr, Nat.add_comm]

theorem rawTags_eq_append (node : Node) :
    node.rawTags =
      (node.rawTag?.map (·, node.span)).toList ++ node.children.flatMap rawTags := by
  rw [rawTags, toList_eq_cons, List.filterMap_cons, List.filterMap_flatMap]
  cases node.rawTag? <;> rfl

theorem containsRaw_iff (node : Node) : node.containsRaw = true ↔ node.rawTags ≠ [] := by
  rw [containsRaw, List.any_eq_true, rawTags, ne_eq, List.filterMap_eq_nil_iff]
  simp [rawTag?, ← Tag.isSome_raw?, Option.isSome_iff_ne_none]

/-! ## Equal up to scopes -/

theorem equivalence_sameShape :
    Equivalence fun left right : Node => left.sameShape right = true where
  refl _ := sameShape_iff.mpr rfl
  symm hshape := sameShape_iff.mpr (sameShape_iff.mp hshape).symm
  trans hleft hright :=
    sameShape_iff.mpr ((sameShape_iff.mp hleft).trans (sameShape_iff.mp hright))

/-- The list of the nodes of a tree is its root and then the lists of its children, and so it has
each node once, parents first and siblings in order; the number of nodes, the depth and the raw
tags follow from those of the children in the same way, and a tree contains a raw node exactly if
its list of raw tags is not empty.  Trees have the same shape exactly if they are equal once every
scope is erased, which is an equivalence that equal trees satisfy. -/
theorem queries_recursive :
    (∀ node : Node,
      node.toList = node :: node.children.flatMap toList ∧
      node.ListedInOrder node.toList ∧
      node.count = 1 + (node.children.map count).sum ∧
      node.depth = 1 + (node.children.map depth).foldr max 0 ∧
      node.rawTags = (node.rawTag?.map (·, node.span)).toList ++ node.children.flatMap rawTags ∧
      (node.containsRaw = true ↔ node.rawTags ≠ [])) ∧
    (∀ left right : Node,
      left.sameShape right = true ↔ left.eraseScopes = right.eraseScopes) ∧
    (Equivalence fun left right : Node => left.sameShape right = true) ∧
    ∀ left right : Node, (left == right) = true → left.sameShape right = true := by
  refine ⟨?_, fun left right => sameShape_iff, equivalence_sameShape, ?_⟩
  · intro node
    exact ⟨toList_eq_cons node, listedInOrder_toList node, count_eq_sum node,
      depth_eq_foldr node, rawTags_eq_append node, containsRaw_iff node⟩
  · intro left right hequal
    rw [eq_of_beq hequal]
    exact equivalence_sameShape.refl right

/-- A block with two equal children, so that equal nodes stand in several places. -/
def twinCasts : Node :=
  .branch .block ⟨0, 20, 1, 1⟩ (List.replicate 2
    ⟨.raw (.java .typeCast), ⟨2, 9, 1, 3⟩, none, none, [.leaf .ident ⟨3, 8, 1, 4⟩], none⟩)

theorem queries_recursive_twinCasts :
    twinCasts.ListedInOrder twinCasts.toList ∧
    twinCasts.count = 1 + (twinCasts.children.map count).sum ∧
    twinCasts.depth = 1 + (twinCasts.children.map depth).foldr max 0 ∧
    twinCasts.rawTags ≠ [] ∧
    { twinCasts with scope := some (.ofNumber 3) }.sameShape twinCasts = true ∧
    ((leaf .block ⟨0, 20, 1, 1⟩).withChildren twinCasts.children == twinCasts) = true ∧
    ((leaf .block ⟨0, 20, 1, 1⟩).withChildren twinCasts.children).sameShape twinCasts = true := by
  obtain ⟨hqueries, hshape, -, hequal⟩ := queries_recursive
  obtain ⟨-, hlisted, hcount, hdepth, -, hraw⟩ := hqueries twinCasts
  have hbuilt : ((leaf .block ⟨0, 20, 1, 1⟩).withChildren twinCasts.children == twinCasts) = true :=
    beq_self_eq_true twinCasts
  exact ⟨hlisted, hcount, hdepth, hraw.mp (by decide +kernel), (hshape _ _).mpr rfl, hbuilt,
    hequal _ _ hbuilt⟩

end Node

end CanonTree
