import CanonTree.Proofs.Normalization
import CanonTree.Proofs.Shape

/-!
# Binding names only notes scopes

Whether names are bound is decided after a tree is reduced, and binding never fails.  So
the setting changes neither the outcome of a normalization nor what is counted while
reducing, and the two trees that come out have the same nodes in the same places.  A node
that opens no scope is the same in both; one that does may differ in the scope that is
noted on it, and in nothing else.
-/

namespace CanonTree

namespace Node

/-- The second node is the first one, up to the nodes below it and, if it opens a scope, up to
the scope noted on it. -/
structure NotedAs (plain bound : Node) : Prop where
  tag : bound.tag = plain.tag
  span : bound.span = plain.span
  text : bound.text = plain.text
  operator : bound.operator = plain.operator
  arity : bound.children.length = plain.children.length
  scope : plain.tag.hasOwnScope = false → bound.scope = plain.scope

theorem length_annotateAll (nodes : List Node) :
    ∀ number, (annotateAll number nodes).length = nodes.length := by
  induction nodes with
  | nil => exact fun _ => rfl
  | cons node nodes ih =>
      intro number
      rw [annotateAll, List.length_cons, List.length_cons, ih]

theorem notedAs_annotate (number : Nat) (node : Node) : node.NotedAs (node.annotate number) where
  tag := tag_annotate number node
  span := span_annotate number node
  text := text_annotate number node
  operator := by
    rw [annotate_eq]
    split <;> rfl
  arity := by
    rw [children_annotate, length_annotateAll]
  scope := by
    intro hown
    rw [annotate_eq, hown]
    rfl

/-- Noting scopes on trees keeps their nodes, in the order in which they are listed. -/
theorem forall₂_notedAs_annotateAll (nodes : List Node) :
    ∀ number, List.Forall₂ NotedAs (preorderAll nodes) (preorderAll (annotateAll number nodes)) := by
  induction nodes using forest_induction with
  | nil => exact fun _ => .nil
  | cons node nodes hchildren hnodes =>
      intro number
      rw [annotateAll, preorderAll, preorderAll, preorder_eq, preorder_eq, children_annotate]
      refine List.rel_append ?_ (hnodes _)
      exact .cons (notedAs_annotate number node) (hchildren _)

theorem forall₂_notedAs_annotate (number : Nat) (node : Node) :
    List.Forall₂ NotedAs node.toList (node.annotate number).toList := by
  rw [toList_eq_preorder, toList_eq_preorder]
  simpa [annotateAll, preorderAll] using forall₂_notedAs_annotateAll [node] number

end Node

namespace CanonicalTree

/-- Two normalizations of one tree, without and with its names bound, differ in nothing but the
scopes. -/
structure BoundAs (plain bound : CanonicalTree) : Prop where
  visited : bound.stats.visited = plain.stats.visited
  reduced : bound.stats.reduced = plain.stats.reduced
  discarded : bound.stats.discarded = plain.stats.discarded
  shape : bound.root.sameShape plain.root = true
  nodes : List.Forall₂ Node.NotedAs plain.root.toList bound.root.toList

end CanonicalTree

namespace Normalizer

/-- The same reduced tree, without and with its names bound. -/
theorem boundAs_bound {plain binding : Normalizer} (hplain : plain.config.bindScopes = false)
    (hbinding : binding.config.bindScopes = true) (tally : Reducing.Tally) (reduced : Node) :
    (plain.bound tally reduced).BoundAs (binding.bound tally reduced) where
  visited := rfl
  reduced := rfl
  discarded := rfl
  shape := by
    rw [Node.sameShape_iff, bound, bound, eraseScopes_bindNames, eraseScopes_bindNames]
  nodes := by
    simp only [bound, bindNames, hplain, hbinding, if_true, Bool.false_eq_true, if_false]
    rw [(BindingState.run_eq reduced).1]
    exact Node.forall₂_notedAs_annotate _ reduced

/-- Whatever the language, the other settings and the tree, it fails for the same reason with its
names to be bound and without, or it is normalized both times and the results differ in nothing
but the scopes. -/
theorem normalize_notes_scopes (language : Language) (config : Config) (root : Node) :
    (∃ error,
      normalize ⟨language, { config with bindScopes := true }⟩ root = .error error ∧
      normalize ⟨language, { config with bindScopes := false }⟩ root = .error error) ∨
    ∃ bound plain,
      normalize ⟨language, { config with bindScopes := true }⟩ root = .ok bound ∧
      normalize ⟨language, { config with bindScopes := false }⟩ root = .ok plain ∧
      plain.BoundAs bound := by
  rw [normalize_eq_reduceTree, normalize_eq_reduceTree]
  -- both settings lead to the same reduction
  dsimp only
  match Reducing.reduceTree language config.maxDepth 1 {} root with
  | (_, .error error) => exact .inl ⟨error, rfl, rfl⟩
  | (_, .ok []) => exact .inl ⟨.discardedRoot root.span, rfl, rfl⟩
  | (tally, .ok (reduced :: _)) =>
      exact .inr ⟨_, _, rfl, rfl, boundAs_bound rfl rfl tally reduced⟩

end Normalizer

end CanonTree
