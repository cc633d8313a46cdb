import CanonTree.Proofs.Binding.Scopes
import CanonTree.Proofs.Normalization

/-!
# The arena mirrors the nesting of the tree

Whatever is open during the walk is a scope of the arena, and a new scope is opened
inside one that is open.  So every scope lists exactly the scopes opened inside it, in
order, and the arena of a normalized tree is nested as the nodes are that open its
scopes.
-/

namespace CanonTree

/-! ## The links that the walk makes -/

namespace BindingState

/-- The open scopes are scopes of the arena, and the links between all its scopes are right. -/
structure Sound (state : BindingState) : Prop where
  active : ∀ id ∈ state.active, state.arena.contains id = true
  linked : state.arena.Linked
  nested : state.arena.Nested

variable {state : BindingState}

theorem sound_empty : Sound {} :=
  ⟨by simp, Arena.linked_empty, Arena.nested_empty⟩

/-- The innermost open scope is a scope of the arena, so the one opened in it is nested. -/
theorem Sound.openScope (hstate : Sound state) (tag : Tag) (span : Span) :
    Sound (state.openScope tag span) where
  active := by
    intro id hid
    rw [Arena.contains_iff]
    change ∃ number, number < (state.arena.openScope _ tag span).size ∧ id = .ofNumber number
    rw [Arena.size_openScope]
    cases hid with
    | head => exact ⟨state.arena.size, by omega, rfl⟩
    | tail _ hid =>
        obtain ⟨number, hnumber, rfl⟩ := Arena.contains_iff.mp (hstate.active id hid)
        exact ⟨number, by omega, rfl⟩
  linked := Arena.linked_openScope hstate.linked _ tag span
  nested := by
    apply Arena.nested_openScope hstate.nested
    intro id hid
    exact hstate.active id (List.mem_of_head? hid)

theorem Sound.closeScope (hstate : Sound state) : Sound state.closeScope where
  active := by
    intro id hid
    exact hstate.active id (List.mem_of_mem_tail hid)
  linked := hstate.linked
  nested := hstate.nested

theorem Sound.register (hstate : Sound state) (scope : ScopeId) (node : Node) (name : String) :
    Sound (state.register scope node name) where
  active := by
    intro id hid
    rw [Arena.contains_iff]
    change ∃ number, number < (state.arena.bind scope _).size ∧ id = .ofNumber number
    rw [Arena.size_bind]
    exact Arena.contains_iff.mp (hstate.active id hid)
  linked := Arena.linked_bind hstate.linked _ _
  nested := Arena.nested_bind hstate.nested _ _

theorem Sound.declare (hstate : Sound state) (node : Node) : Sound (state.declare node) := by
  rw [BindingState.declare]
  split
  · rename_i scope _
    split
    · apply List.foldlRecOn node.boundNames (BindingState.register scope node) hstate
      intro before hbefore name _
      exact hbefore.register scope node name
    · exact hstate
  · exact hstate

theorem Sound.advance (hstate : Sound state) : Sound state.advance :=
  ⟨hstate.active, hstate.linked, hstate.nested⟩

theorem sound_enter (context : Option ScopeId) (node : Node) (state : BindingState)
    (hstate : Sound state) : Sound (walk.enter context node state).1 := by
  have hdeclared := (hstate.declare node).advance
  simp only [walk]
  split
  · exact hdeclared.openScope node.tag node.span
  · exact hdeclared

theorem sound_leave (context : Option ScopeId) (node : Node) (results : List Node)
    (state : BindingState) (hstate : Sound state) :
    Sound (walk.leave context node results state).1 := by
  cases context with
  | none => exact hstate
  | some id => exact hstate.closeScope

theorem sound_start (root : Node) : Sound (start root) := by
  rw [start]
  split
  · exact sound_empty
  · exact sound_empty.openScope root.tag root.span

theorem sound_run (root : Node) : Sound (run root).1 := by
  have hvisit := Walk.visit_preserves sound_enter sound_leave root none (sound_start root)
  rw [run, Walk.runTree_eq_visit]
  split <;> rename_i hresult <;> rw [hresult] at hvisit <;> exact hvisit

end BindingState

/-! ## Normalized trees -/

namespace Node

theorem children_scopeArena {root : Node} {id : ScopeId} {scope : Scope}
    (hscope : root.scopeArena.get? id = some scope) :
    scope.children.toList =
      ((List.range root.scopeArena.size).map ScopeId.ofNumber).filter fun child =>
        decide (root.scopeArena.parent? child = some id) := by
  have hsound := BindingState.sound_run root
  have harena := (BindingState.run_eq root).2
  rw [← harena] at hscope ⊢
  exact Arena.children_eq_of_nested hsound.linked hsound.nested hscope

theorem map_snd_scopeOwners (root : Node) :
    root.scopeOwners.map (·.2) = root.toList.filter (·.tag.hasOwnScope) := by
  rw [← map_snd_lineage, List.filter_map]
  rfl

end Node

/-- The scopes of a tree are nested as the nodes are that open them. -/
structure CanonicalTree.Mirrors (tree : CanonicalTree) : Prop where
  /-- Each node that opens a scope has one, and one more is opened for a root without a scope. -/
  size : tree.scopes.size =
    tree.root.toList.countP (·.tag.hasOwnScope) + tree.root.openedBefore
  root : tree.scopes.root = some (.ofNumber 0)
  /-- The nodes that open a scope carry the identifiers of the scopes in opening order.  The
  parent of a scope is that of the nearest ancestor that opens one, or else the one around the
  whole tree, if there is one. -/
  owner : ∀ index ancestors node, tree.root.scopeOwners[index]? = some (ancestors, node) →
    node.scope = some (.ofNumber (index + tree.root.openedBefore)) ∧
      ∃ scope, tree.scopes.get? (.ofNumber (index + tree.root.openedBefore)) = some scope ∧
        scope.tag = node.tag ∧ scope.span = node.span ∧
        scope.parent = enclosing tree.root.around ancestors
  outermost : tree.root.tag.hasOwnScope = false →
    ∃ scope, tree.scopes.get? (.ofNumber 0) = some scope ∧
      scope.tag = tree.root.tag ∧ scope.span = tree.root.span ∧ scope.parent = none
  /-- The children of a scope are all scopes with this parent, in opening order. -/
  children : ∀ id scope, tree.scopes.get? id = some scope →
    scope.children.toList =
      ((List.range tree.scopes.size).map ScopeId.ofNumber).filter fun child =>
        decide (tree.scopes.parent? child = some id)

namespace Normalizer

variable {normalizer : Normalizer} {root : Node} {tree : CanonicalTree}

/-- If names are bound, the arena of a normalized tree mirrors the nesting of its nodes. -/
theorem normalize_mirrors (hbind : normalizer.config.bindScopes = true)
    (hok : normalizer.normalize root = .ok tree) : tree.Mirrors := by
  obtain ⟨hscopes, hbound⟩ := scopes_of_normalize hbind hok
  constructor <;> rw [hscopes]
  case size =>
    rw [Node.size_scopeArena hbound, List.countP_eq_length_filter, ← Node.map_snd_scopeOwners,
      List.length_map]
  case root => rfl
  case owner =>
    intro index ancestors node hentry
    obtain ⟨scope, hscope, hopened⟩ := Node.exists_openedBy hbound hentry
    exact ⟨hopened.noted, scope, hscope, hopened.tag, hopened.span, hopened.parent⟩
  case outermost =>
    intro _
    exact ⟨tree.root.outermost, rfl, rfl, rfl, rfl⟩
  case children =>
    intro id scope hscope
    exact Node.children_scopeArena hscope

theorem normalize_mirrors_mixedUnit :
    ∃ tree, (⟨.java, {}⟩ : Normalizer).normalize mixedUnit = .ok tree ∧ tree.Mirrors := by
  obtain ⟨tree, hok⟩ := exists_normalize_mixedUnit
  exact ⟨tree, hok, normalize_mirrors rfl hok⟩

end Normalizer

end CanonTree
