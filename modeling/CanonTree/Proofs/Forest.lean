import CanonTree.Node.Order.Lemmas
import CanonTree.Node.Walk.Lemmas

/-!
# Proofs by induction over forests

A tree is a node over a list of trees, so nearly every fact about trees is proved
for lists of trees: one case for the empty list, and one for a first tree, in which
the fact is known for the children of its root and for the trees behind it.  This
module packages that induction, and one consequence of it for walks: what each
single step of a walk keeps true, the whole walk keeps true.
-/

namespace CanonTree

namespace Node

section Induction

variable {motive : List Node → Prop}

mutual

private theorem motive_children (nil : motive [])
    (cons : ∀ node nodes, motive node.children → motive nodes → motive (node :: nodes)) :
    ∀ node : Node, motive node.children
  | ⟨_, _, _, _, children, _⟩ => forest_induction nil cons children

/-- Induction over a list of trees, with the children of the first root as a smaller list. -/
@[elab_as_elim]
theorem forest_induction (nil : motive [])
    (cons : ∀ node nodes, motive node.children → motive nodes → motive (node :: nodes)) :
    ∀ nodes : List Node, motive nodes
  | [] => nil
  | node :: nodes =>
      cons node nodes (motive_children nil cons node) (forest_induction nil cons nodes)

end

end Induction

theorem preorderAll_singleton (node : Node) : preorderAll [node] = node.preorder := by
  rw [preorderAll, preorderAll, List.append_nil]

/-- A node is among the nodes of a forest exactly if it is among those of one of its trees. -/
theorem mem_preorderAll_iff {inner : Node} {nodes : List Node} :
    inner ∈ preorderAll nodes ↔ ∃ node ∈ nodes, inner ∈ node.preorder := by
  rw [preorderAll_eq_flatMap, List.mem_flatMap]

theorem mem_preorder_iff {inner node : Node} :
    inner ∈ node.preorder ↔ inner = node ∨ ∃ child ∈ node.children, inner ∈ child.preorder := by
  rw [preorder_eq, List.mem_cons, mem_preorderAll_iff]

/-! ## Nodes with their ancestors -/

mutual

/-- The nodes of a tree below the given ancestors, each with its own ancestors, the nearest
first; parents first and siblings in order. -/
def lineageBelow (ancestors : List Node) : Node → List (List Node × Node)
  | ⟨tag, span, text, operator, children, scope⟩ =>
      (ancestors, ⟨tag, span, text, operator, children, scope⟩) ::
        lineageAll (⟨tag, span, text, operator, children, scope⟩ :: ancestors) children

def lineageAll (ancestors : List Node) : List Node → List (List Node × Node)
  | [] => []
  | node :: nodes => lineageBelow ancestors node ++ lineageAll ancestors nodes

end

/-- The nodes of a tree, each with its proper ancestors, the nearest first. -/
def lineage (node : Node) : List (List Node × Node) :=
  lineageBelow [] node

theorem lineageBelow_eq (ancestors : List Node) (node : Node) :
    lineageBelow ancestors node =
      (ancestors, node) :: lineageAll (node :: ancestors) node.children := by
  cases node
  rfl

/-- Without the ancestors, the nodes are those of the listing, in the same order. -/
theorem map_snd_lineageAll (nodes : List Node) :
    ∀ ancestors, (lineageAll ancestors nodes).map (·.2) = preorderAll nodes := by
  induction nodes using forest_induction with
  | nil =>
      intro ancestors
      rfl
  | cons node nodes hchildren hnodes =>
      intro ancestors
      simp only [lineageAll, lineageBelow_eq, preorderAll, preorder_eq, List.map_append,
        List.map_cons, hchildren, hnodes]

theorem map_snd_lineage (node : Node) : node.lineage.map (·.2) = node.toList := by
  rw [toList_eq_preorder]
  simpa [lineage, lineageAll, preorderAll] using map_snd_lineageAll [node] []

end Node

namespace Walk

variable {κ σ ε β : Type}

/-- The walk through one tree, read off its root. -/
theorem visit_eq (walk : Walk κ σ ε β) (context : κ) (state : σ) (node : Node) :
    walk.visit context state node =
      match walk.enter context node state with
      | (state, .error error) => (state, .error error)
      | (state, .ok none) => (state, .ok [])
      | (state, .ok (some inner)) =>
          match walk.visitAll inner state node.children with
          | (state, .error error) => (state, .error error)
          | (state, .ok results) => walk.leave inner node results state := by
  cases node
  rfl

section Invariant

variable {walk : Walk κ σ ε β} {invariant : σ → Prop}
  (henter : ∀ context node state, invariant state → invariant (walk.enter context node state).1)
  (hleave : ∀ context node results state, invariant state →
    invariant (walk.leave context node results state).1)

include henter hleave

theorem visit_preserves_of_children {node : Node}
    (hchildren : ∀ context state, invariant state →
      invariant (walk.visitAll context state node.children).1)
    (context : κ) {state : σ} (hstate : invariant state) :
    invariant (walk.visit context state node).1 := by
  rw [visit_eq]
  have hentered := henter context node state hstate
  split <;> rename_i hresult <;> rw [hresult] at hentered
  · exact hentered
  · exact hentered
  · rename_i entered inner
    have hbelow := hchildren inner entered hentered
    split <;> rename_i hresults <;> rw [hresults] at hbelow
    · exact hbelow
    · exact hleave _ _ _ _ hbelow

/-- What entering and leaving a node keep true of the state, a walk keeps true of it, also if
it ends with an error. -/
theorem visitAll_preserves (nodes : List Node) :
    ∀ context state, invariant state → invariant (walk.visitAll context state nodes).1 := by
  induction nodes using Node.forest_induction with
  | nil =>
      intro context state hstate
      exact hstate
  | cons node nodes hchildren hnodes =>
      intro context state hstate
      have hvisit := visit_preserves_of_children henter hleave hchildren context hstate
      rw [visitAll]
      split <;> rename_i hfirst <;> rw [hfirst] at hvisit
      · exact hvisit
      · have hothers := hnodes context _ hvisit
        split <;> rename_i hrest <;> rw [hrest] at hothers <;> exact hothers

theorem visit_preserves (node : Node) (context : κ) {state : σ} (hstate : invariant state) :
    invariant (walk.visit context state node).1 :=
  visit_preserves_of_children henter hleave
    (visitAll_preserves henter hleave node.children) context hstate

end Invariant

end Walk

end CanonTree
