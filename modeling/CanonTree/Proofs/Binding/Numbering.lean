import CanonTree.Proofs.Binding.Walk

/-!
# Trees with their scopes noted

Noting the scopes of a tree on its nodes changes nothing else about it, and nothing
that the binding walk looks at.  So the arena of a bound tree can be read off the
bound tree itself, and binding it once more would note the same scopes.
-/

namespace CanonTree

namespace Node

@[simp]
theorem tag_annotate (number : Nat) (node : Node) : (node.annotate number).tag = node.tag := by
  rw [annotate_eq]
  split <;> rfl

@[simp]
theorem span_annotate (number : Nat) (node : Node) : (node.annotate number).span = node.span := by
  rw [annotate_eq]
  split <;> rfl

@[simp]
theorem text_annotate (number : Nat) (node : Node) : (node.annotate number).text = node.text := by
  rw [annotate_eq]
  split <;> rfl

theorem children_annotate (number : Nat) (node : Node) :
    (node.annotate number).children =
      annotateAll (number + if node.tag.hasOwnScope then 1 else 0) node.children := by
  rw [annotate_eq]
  split <;> rfl

/-- Noting scopes keeps every node's tag, and so everything that is read off the tags. -/
theorem map_tag_preorderAll_annotateAll (nodes : List Node) :
    ∀ number, (preorderAll (annotateAll number nodes)).map (·.tag) =
      (preorderAll nodes).map (·.tag) := by
  induction nodes using forest_induction with
  | nil =>
      intro number
      rfl
  | cons node nodes hchildren hnodes =>
      intro number
      simp only [annotateAll, preorderAll, preorder_eq, List.map_append, List.map_cons,
        tag_annotate, children_annotate, hchildren, hnodes]

theorem map_tag_preorder_annotate (number : Nat) (node : Node) :
    (node.annotate number).preorder.map (·.tag) = node.preorder.map (·.tag) := by
  simpa [annotateAll, preorderAll] using map_tag_preorderAll_annotateAll [node] number

@[simp]
theorem scopeCount_annotate (number : Nat) (node : Node) :
    (node.annotate number).scopeCount = node.scopeCount := by
  have hcount : ∀ nodes : List Node,
      nodes.countP (·.tag.hasOwnScope) = (nodes.map (·.tag)).countP (·.hasOwnScope) := by
    intro nodes
    rw [List.countP_map]
    rfl
  rw [scopeCount, scopeCount, hcount, hcount, map_tag_preorder_annotate]

@[simp]
theorem size_annotate (number : Nat) (node : Node) : (node.annotate number).size = node.size := by
  rw [← length_preorder, ← length_preorder]
  simpa using congrArg List.length (map_tag_preorder_annotate number node)

@[simp]
theorem boundNames_annotate (number : Nat) (node : Node) :
    (node.annotate number).boundNames = node.boundNames := by
  have hnames : ∀ (nodes : List Node) (number : Nat),
      ((annotateAll number nodes).filter (·.is .ident)).filterMap (·.text) =
        (nodes.filter (·.is .ident)).filterMap (·.text) := by
    intro nodes
    induction nodes with
    | nil =>
        intro number
        rfl
    | cons node nodes ih =>
        intro number
        simp only [annotateAll, List.filter_cons, is, tag_annotate]
        split
        · simp only [List.filterMap_cons, text_annotate]
          split
          · exact ih _
          · exact congrArg _ (ih _)
        · exact ih _
  simp only [boundNames, text_annotate, children_annotate, hnames]

@[simp]
theorem declaredAt_annotate (number position : Nat) (node : Node) :
    (node.annotate number).declaredAt position = node.declaredAt position := by
  simp [declaredAt]

/-- The walk adds the same to the arena whether or not the scopes are noted already. -/
theorem gainAll_annotateAll (nodes : List Node) :
    ∀ parent number position,
      gainAll parent number position (annotateAll number nodes) =
        gainAll parent number position nodes := by
  induction nodes using forest_induction with
  | nil =>
      intro parent number position
      rfl
  | cons node nodes hchildren hnodes =>
      intro parent number position
      rw [annotateAll, gainAll, gainAll, scopeCount_annotate, size_annotate, hnodes, gain_eq,
        gain_eq, declaredAt_annotate, tag_annotate, span_annotate, children_annotate]
      split
      · rw [hchildren]
      · simp only [Nat.add_zero, hchildren]

/-- Noting scopes a second time changes nothing. -/
theorem annotateAll_annotateAll (nodes : List Node) :
    ∀ number, annotateAll number (annotateAll number nodes) = annotateAll number nodes := by
  induction nodes using forest_induction with
  | nil =>
      intro number
      rfl
  | cons node nodes hchildren hnodes =>
      intro number
      have hnode : (node.annotate number).annotate number = node.annotate number := by
        rw [annotate_eq number (node.annotate number), tag_annotate, children_annotate,
          annotate_eq]
        split
        · simp only [hchildren]
        · simp only [Nat.add_zero, hchildren]
      rw [annotateAll, annotateAll, scopeCount_annotate, hnodes, hnode]

theorem annotate_annotate (number : Nat) (node : Node) :
    (node.annotate number).annotate number = node.annotate number := by
  simpa [annotateAll] using annotateAll_annotateAll [node] number

/-! ## Bound trees -/

@[simp]
theorem openedBefore_annotate (number : Nat) (root : Node) :
    (root.annotate number).openedBefore = root.openedBefore := by
  simp [openedBefore]

theorem outermostGain_annotate (root : Node) :
    (root.annotate root.openedBefore).outermostGain = root.outermostGain := by
  simp only [outermostGain, openedBefore_annotate, ground, tag_annotate]
  by_cases hown : root.tag.hasOwnScope
  · simp only [openedBefore, hown, if_true, children_annotate, gainAll_annotateAll]
  · simp only [openedBefore, hown]
    exact gainAll_annotateAll [root] _ _ _

/-- The arena of a tree is that of the tree with its scopes noted. -/
theorem scopeArena_annotate (root : Node) :
    (root.annotate root.openedBefore).scopeArena = root.scopeArena := by
  simp only [scopeArena, outermost, outermostGain_annotate, tag_annotate, span_annotate]

/-- The scopes noted on a tree are those that its own binding would note. -/
def IsBound (root : Node) : Prop :=
  root.annotate root.openedBefore = root

theorem isBound_annotate (root : Node) : (root.annotate root.openedBefore).IsBound := by
  rw [IsBound, openedBefore_annotate, annotate_annotate]

end Node

end CanonTree
