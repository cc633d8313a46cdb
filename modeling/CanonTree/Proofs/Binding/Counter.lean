import CanonTree.Proofs.Binding.Nesting

/-!
# Names are counted as they are bound

The walk counts a name when it registers it, and it registers it in an open scope,
which is a scope of the arena.  So the counter is, at any time, the number of bindings
that the arena holds, and equal arenas were filled with equally many names.
-/

namespace CanonTree

namespace BindingState

/-- The counter of the walk is the number of bindings in its arena. -/
structure Counted (state : BindingState) : Prop extends Sound state where
  bindings : state.bindings = state.arena.bindingCount

variable {state : BindingState}

theorem Counted.openScope (hstate : Counted state) (tag : Tag) (span : Span) :
    Counted (state.openScope tag span) where
  toSound := hstate.toSound.openScope tag span
  bindings := hstate.bindings.trans (Arena.bindingCount_openScope _ _ _ _).symm

theorem Counted.register (hstate : Counted state) {scope : ScopeId}
    (hscope : state.arena.contains scope = true) (node : Node) (name : String) :
    Counted (state.register scope node name) where
  toSound := hstate.toSound.register scope node name
  bindings := by
    simp only [BindingState.register, Arena.bindingCount_bind hscope, hstate.bindings]

/-- The scope that names are registered in stays a scope of the arena. -/
theorem Counted.foldl_register {scope : ScopeId} (node : Node) (names : List String) :
    ∀ {state : BindingState}, Counted state → state.arena.contains scope = true →
      Counted (names.foldl (BindingState.register scope node) state) := by
  induction names with
  | nil =>
      intro state hstate _
      exact hstate
  | cons name names ih =>
      intro state hstate hscope
      apply ih (hstate.register hscope node name)
      rw [Arena.contains_iff] at hscope ⊢
      simpa only [BindingState.register, Arena.size_bind] using hscope

theorem Counted.declare (hstate : Counted state) (node : Node) :
    Counted (state.declare node) := by
  rw [BindingState.declare]
  split
  · rename_i scope hactive
    split
    · exact Counted.foldl_register node node.boundNames hstate
        (hstate.active scope (List.mem_of_head? hactive))
    · exact hstate
  · exact hstate

theorem counted_enter (context : Option ScopeId) (node : Node) (state : BindingState)
    (hstate : Counted state) : Counted (walk.enter context node state).1 := by
  have hdeclared : Counted (state.declare node).advance :=
    ⟨(hstate.declare node).toSound.advance, (hstate.declare node).bindings⟩
  simp only [walk]
  split
  · exact hdeclared.openScope node.tag node.span
  · exact hdeclared

theorem counted_leave (context : Option ScopeId) (node : Node) (results : List Node)
    (state : BindingState) (hstate : Counted state) :
    Counted (walk.leave context node results state).1 := by
  refine ⟨sound_leave context node results state hstate.toSound, ?_⟩
  cases context with
  | none => exact hstate.bindings
  | some id => exact hstate.bindings

theorem counted_start (root : Node) : Counted (start root) := by
  have hempty : Counted {} := ⟨sound_empty, rfl⟩
  rw [start]
  split
  · exact hempty
  · exact hempty.openScope root.tag root.span

/-- After the walk, as many names were counted as the arena binds. -/
theorem bindings_run (root : Node) : (run root).1.bindings = (run root).1.arena.bindingCount := by
  have hvisit := Walk.visit_preserves counted_enter counted_leave root none (counted_start root)
  rw [run, Walk.runTree_eq_visit]
  split <;> rename_i hresult <;> rw [hresult] at hvisit <;> exact hvisit.bindings

end BindingState

end CanonTree
