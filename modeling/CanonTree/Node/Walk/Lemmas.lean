import CanonTree.Node.Walk

/-!
# The stack agrees with the recursion

Working off a stack of frames with one shared array of results comes to the same as
the recursion on the tree: the same results, the same error and the same state.  The
statement for one frame at the top of a stack is that the walk through its tree is
done first, and that its results then stand behind those that were there.
-/

namespace CanonTree

namespace Walk

variable {κ σ ε β : Type}

/-- What the rest of a stack makes of the outcome of a walk. -/
def resume (walk : Walk κ σ ε β) (rest : List (Frame κ)) (out : Array β) :
    σ × Except ε (List β) → σ × Except ε (Array β)
  | (state, .error error) => (state, .error error)
  | (state, .ok results) => walk.run rest (out ++ results) state

/-- Cutting at the old end of an array gives what was put behind it. -/
theorem extract_append_list (out : Array β) (results : List β) :
    ((out ++ results).extract out.size (out ++ results).size).toList = results := by
  have hsize : (out ++ results).size = out.size + results.length := by
    rw [← Array.length_toList]
    simp
  simp [hsize]

theorem shrink_append_list (out : Array β) (results : List β) :
    (out ++ results).shrink out.size = out := by
  apply Array.ext'
  simp

theorem append_list_append_list (out : Array β) (first others : List β) :
    out ++ first ++ others = out ++ (first ++ others) := by
  apply Array.ext'
  simp

mutual

/-- A frame that enters a node stands for the walk through its tree. -/
theorem run_enter (walk : Walk κ σ ε β) (context : κ) (rest : List (Frame κ))
    (out : Array β) (state : σ) :
    ∀ node, walk.run (.enter context node :: rest) out state =
      walk.resume rest out (walk.visit context state node)
  | ⟨tag, span, text, operator, children, scope⟩ => by
      rw [run, visit]
      split
      · rfl
      · simp [resume]
      · rename_i state' inner _
        rw [run_enterAll walk inner _ out state' children]
        match walk.visitAll inner state' children with
        | (_, .error _) => rfl
        | (state'', .ok results) =>
            simp only [resume]
            rewrite [run, extract_append_list, shrink_append_list]
            match walk.leave inner ⟨tag, span, text, operator, children, scope⟩ results
              state'' with
            | (_, .error _) => rfl
            | (_, .ok _) => rfl

/-- Frames that enter several nodes stand for the walk through their trees. -/
theorem run_enterAll (walk : Walk κ σ ε β) (context : κ) (rest : List (Frame κ))
    (out : Array β) (state : σ) :
    ∀ nodes, walk.run (enterAll context nodes ++ rest) out state =
      walk.resume rest out (walk.visitAll context state nodes)
  | [] => by simp [enterAll, visitAll, resume]
  | node :: nodes => by
      have hcons : enterAll context (node :: nodes) ++ rest =
          .enter context node :: (enterAll context nodes ++ rest) := rfl
      rw [hcons, run_enter walk context _ out state node, visitAll]
      match walk.visit context state node with
      | (_, .error _) => rfl
      | (state', .ok first) =>
          simp only [resume]
          rw [run_enterAll walk context rest _ state' nodes]
          match walk.visitAll context state' nodes with
          | (_, .error _) => rfl
          | (_, .ok others) => simp only [resume, append_list_append_list]

end

/-- The walk on a stack is the walk by recursion. -/
theorem runTree_eq_visit (walk : Walk κ σ ε β) (context : κ) (state : σ) (node : Node) :
    walk.runTree context state node = walk.visit context state node := by
  rw [runTree, run_enter]
  match walk.visit context state node with
  | (_, .error _) => rfl
  | (_, .ok _) => simp [resume, run]

end Walk

end CanonTree
