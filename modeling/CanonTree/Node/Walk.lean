import CanonTree.Node.Order

/-!
# Walking a tree

A walk enters each node with a context from above, and leaves it with the results
from below.  On entering, it may stop with an error, skip the whole subtree, or go
on with a context for the children; on leaving, it turns the node and the results
of its children into results of its own.  A state is carried through, and it
survives an error.

`Walk.visit` says this by recursion on the tree.  `Walk.run` is what runs: nodes
still to be entered or left stand on a stack of frames, and results pile up in one
array, from which a node that is left cuts off those of its children.
-/

namespace CanonTree

/-- What is done at each node, with contexts `κ`, states `σ`, errors `ε` and results `β`. -/
structure Walk (κ σ ε β : Type) where
  /-- Entering a node gives the context for its children, or `none` to skip the subtree. -/
  enter : κ → Node → σ → σ × Except ε (Option κ)
  /-- Leaving a node, with the context that its children had and their results. -/
  leave : κ → Node → List β → σ → σ × Except ε (List β)

namespace Walk

variable {κ σ ε β : Type}

mutual

def visit (walk : Walk κ σ ε β) (context : κ) (state : σ) : Node → σ × Except ε (List β)
  | ⟨tag, span, text, operator, children, scope⟩ =>
      match walk.enter context ⟨tag, span, text, operator, children, scope⟩ state with
      | (state, .error error) => (state, .error error)
      | (state, .ok none) => (state, .ok [])
      | (state, .ok (some inner)) =>
          match visitAll walk inner state children with
          | (state, .error error) => (state, .error error)
          | (state, .ok results) =>
              walk.leave inner ⟨tag, span, text, operator, children, scope⟩ results state

def visitAll (walk : Walk κ σ ε β) (context : κ) (state : σ) :
    List Node → σ × Except ε (List β)
  | [] => (state, .ok [])
  | node :: nodes =>
      match visit walk context state node with
      | (state, .error error) => (state, .error error)
      | (state, .ok first) =>
          match visitAll walk context state nodes with
          | (state, .error error) => (state, .error error)
          | (state, .ok others) => (state, .ok (first ++ others))

end

/-- What is still to be done. -/
inductive Frame (κ : Type) where
  | enter (context : κ) (node : Node)
  /-- The results of the node's children are those from position `base` on. -/
  | leave (context : κ) (node : Node) (base : Nat)

/-- Number of steps that a frame leads to at most. -/
def Frame.weight : Frame κ → Nat
  | .enter _ node => 2 * node.size
  | .leave _ _ _ => 1

/-- Number of steps that a stack leads to at most. -/
def weight : List (Frame κ) → Nat
  | [] => 0
  | frame :: rest => frame.weight + weight rest

def enterAll (context : κ) (nodes : List Node) : List (Frame κ) :=
  nodes.map (Frame.enter context)

theorem weight_append (left right : List (Frame κ)) :
    weight (left ++ right) = weight left + weight right := by
  induction left with
  | nil => simp [weight]
  | cons frame rest ih => simp [weight, ih, Nat.add_assoc]

theorem weight_enterAll (context : κ) (nodes : List Node) :
    weight (enterAll context nodes) = 2 * Node.sizeAll nodes := by
  induction nodes with
  | nil => rfl
  | cons node nodes ih =>
      simp only [enterAll, List.map_cons, weight, Frame.weight, Node.sizeAll] at ih ⊢
      omega

/-- Works off a stack of frames; `out` holds the results so far. -/
def run (walk : Walk κ σ ε β) (stack : List (Frame κ)) (out : Array β) (state : σ) :
    σ × Except ε (Array β) :=
  match stack with
  | [] => (state, .ok out)
  | .enter context node :: rest =>
      match walk.enter context node state with
      | (state, .error error) => (state, .error error)
      | (state, .ok none) => walk.run rest out state
      | (state, .ok (some inner)) =>
          walk.run (enterAll inner node.children ++ .leave inner node out.size :: rest) out state
  | .leave context node base :: rest =>
      match walk.leave context node (out.extract base out.size).toList state with
      | (state, .error error) => (state, .error error)
      | (state, .ok produced) => walk.run rest (out.shrink base ++ produced) state
termination_by weight stack
decreasing_by
  · have hsize := node.size_eq
    simp only [weight, Frame.weight]
    omega
  · have hsize := node.size_eq
    rw [weight_append, weight_enterAll]
    simp only [weight, Frame.weight]
    omega
  · simp only [weight, Frame.weight]
    omega

def runTree (walk : Walk κ σ ε β) (context : κ) (state : σ) (node : Node) :
    σ × Except ε (List β) :=
  match walk.run [.enter context node] #[] state with
  | (state, .error error) => (state, .error error)
  | (state, .ok out) => (state, .ok out.toList)

end Walk

end CanonTree
