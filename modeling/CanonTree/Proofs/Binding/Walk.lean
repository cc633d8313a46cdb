import CanonTree.Proofs.Binding.Gain

/-!
# The binding walk, in closed form

Entering a node registers its names in the innermost open scope and may open a scope;
leaving it closes that scope again.  So a walk through some trees finds the same
scope open for each of them, and all that it does to the arena is the gain of these
trees.  For a whole tree this gives the arena and the annotated tree outright:
`BindingState.run_eq`.
-/

namespace CanonTree

namespace BindingState

/-- The state after a walk through a number of nodes inside the open scope `number`. -/
structure Gained (before after : BindingState) (number : Nat) (gain : Gain) (nodes : Nat) :
    Prop where
  arena : after.arena = before.arena.grow number gain
  active : after.active = before.active
  entered : after.entered = before.entered + nodes

theorem Gained.size {before after : BindingState} {number count : Nat} {gain : Gain}
    (hgained : Gained before after number gain count) :
    after.arena.size = before.arena.size + gain.opened.length := by
  rw [hgained.arena, Arena.size_grow]

theorem Gained.trans {first second third : BindingState} {number count more : Nat}
    {gain others : Gain} (hnumber : number < first.arena.size)
    (hfirst : Gained first second number gain count)
    (hsecond : Gained second third number others more) :
    Gained first third number (gain ++ others) (count + more) where
  arena := by
    rw [hsecond.arena, hfirst.arena, Arena.grow_grow _ hnumber]
  active := by
    rw [hsecond.active, hfirst.active]
  entered := by
    rw [hsecond.entered, hfirst.entered, Nat.add_assoc]

/-! ## Entering and leaving one node -/

theorem gained_foldl_register {number : Nat} (node : Node) (names : List String) :
    ∀ state : BindingState, number < state.arena.size →
      Gained state (names.foldl (register (.ofNumber number) node) state) number
        { bindings := names.map (⟨·, node.tag, node.span, state.entered⟩) } 0 := by
  induction names with
  | nil =>
      intro state hnumber
      exact ⟨(Arena.grow_empty _ _).symm, rfl, rfl⟩
  | cons name names ih =>
      intro state hnumber
      have hname : Gained state (register (.ofNumber number) node state name) number
          { bindings := [⟨name, node.tag, node.span, state.entered⟩] } 0 :=
        ⟨Arena.bind_eq_grow _ _ _, rfl, rfl⟩
      have hstill : number < (register (.ofNumber number) node state name).arena.size := by
        rw [hname.size]
        omega
      exact hname.trans hnumber (ih _ hstill)

/-- A node declares its names in the innermost open scope. -/
theorem gained_declare {state : BindingState} {number : Nat} {outer : List ScopeId}
    (hactive : state.active = .ofNumber number :: outer) (hnumber : number < state.arena.size)
    (node : Node) :
    Gained state (state.declare node) number
      { bindings := node.declaredAt state.entered } 0 := by
  simp only [declare, hactive, List.head?_cons, Node.declaredAt]
  split
  · exact gained_foldl_register node node.boundNames state hnumber
  · exact ⟨(Arena.grow_empty _ _).symm, rfl, rfl⟩

theorem gained_advance_declare {state : BindingState} {number : Nat} {outer : List ScopeId}
    (hactive : state.active = .ofNumber number :: outer) (hnumber : number < state.arena.size)
    (node : Node) :
    Gained state (state.declare node).advance number
      { bindings := node.declaredAt state.entered } 1 := by
  have hdeclare := gained_declare hactive hnumber node
  exact ⟨hdeclare.arena, hdeclare.active, congrArg (· + 1) hdeclare.entered⟩

/-- What a walk through several trees comes to inside the open scope `number`. -/
def WalksAs (nodes : List Node) : Prop :=
  ∀ (context : Option ScopeId) (state : BindingState) (number : Nat) (outer : List ScopeId),
    state.active = .ofNumber number :: outer → number < state.arena.size →
    ∃ after,
      walk.visitAll context state nodes =
        (after, .ok (Node.annotateAll state.arena.size nodes)) ∧
      Gained state after number
        (Node.gainAll (.ofNumber number) state.arena.size state.entered nodes)
        (Node.sizeAll nodes)

def VisitsAs (node : Node) : Prop :=
  ∀ (context : Option ScopeId) (state : BindingState) (number : Nat) (outer : List ScopeId),
    state.active = .ofNumber number :: outer → number < state.arena.size →
    ∃ after,
      walk.visit context state node = (after, .ok [node.annotate state.arena.size]) ∧
      Gained state after number
        (node.gain (.ofNumber number) state.arena.size state.entered) node.size

theorem arena_openScope {state : BindingState} {number : Nat} {outer : List ScopeId}
    (hactive : state.active = .ofNumber number :: outer)
    (hnumber : number < state.arena.size) (tag : Tag) (span : Span) :
    (state.openScope tag span).arena =
      state.arena.grow number (.ofScope (.ofNumber number) state.arena.size tag span {}) := by
  simp only [openScope, hactive, List.head?_cons]
  exact Arena.openScope_eq_grow _ hnumber tag span

/-- A node that opens a scope is walked through with that scope on top of the stack, which the
walk below it leaves there to be closed. -/
theorem visitsAs_own {node : Node} (hchildren : WalksAs node.children)
    (hown : node.tag.hasOwnScope = true) : VisitsAs node := by
  intro context state number outer hactive hnumber
  have hentered := gained_advance_declare hactive hnumber node
  generalize hstate : (state.declare node).advance = entered at hentered
  have hsize : entered.arena.size = state.arena.size := hentered.size
  have henter : walk.enter context node state =
      (entered.openScope node.tag node.span,
        .ok (some (some (.ofNumber state.arena.size)))) := by
    simp [walk, hstate, hown, Arena.nextId, hsize]
  have hopened : (entered.openScope node.tag node.span).arena =
      entered.arena.grow number
        (.ofScope (.ofNumber number) entered.arena.size node.tag node.span {}) :=
    arena_openScope (hentered.active.trans hactive) (by omega) node.tag node.span
  have hsizeOpened : (entered.openScope node.tag node.span).arena.size =
      state.arena.size + 1 := by
    rw [hopened, Arena.size_grow, hsize]
    rfl
  obtain ⟨below, hvisit, hbelow⟩ := hchildren (some (.ofNumber state.arena.size))
    (entered.openScope node.tag node.span) state.arena.size entered.active
    (by rw [← hsize]; rfl) (by omega)
  have hposition : (entered.openScope node.tag node.span).entered = state.entered + 1 :=
    hentered.entered
  rw [hsizeOpened] at hvisit hbelow
  rw [hposition] at hbelow
  refine ⟨below.closeScope, ?_, ?_, ?_, ?_⟩
  · rw [Walk.visit_eq, Node.annotate_eq]
    simp only [henter, hvisit, hown, if_true]
    rfl
  · -- the scope is there, empty, before the children add to it
    have harena := hbelow.arena
    rw [hopened, ← hsize, Arena.grow_ofScope_grow, hsize, hentered.arena,
      Arena.grow_grow _ hnumber] at harena
    rw [Node.gain_eq, if_pos hown]
    exact harena
  · change below.active.tail = state.active
    rw [hbelow.active, ← hentered.active]
    rfl
  · change below.entered = state.entered + node.size
    rw [hbelow.entered, hposition, Node.size_eq]
    omega

/-- Below a node that opens no scope, the walk goes on in the scope around it. -/
theorem visitsAs_other {node : Node} (hchildren : WalksAs node.children)
    (hown : node.tag.hasOwnScope = false) : VisitsAs node := by
  intro context state number outer hactive hnumber
  have hentered := gained_advance_declare hactive hnumber node
  generalize hstate : (state.declare node).advance = entered at hentered
  have hsize : entered.arena.size = state.arena.size := hentered.size
  have henter : walk.enter context node state = (entered, .ok (some none)) := by
    simp [walk, hstate, hown]
  obtain ⟨below, hvisit, hbelow⟩ := hchildren none entered number outer
    (hentered.active.trans hactive) (by omega)
  rw [hsize, hentered.entered] at hbelow
  refine ⟨below, ?_, ?_⟩
  · rw [Walk.visit_eq, Node.annotate_eq]
    simp only [henter, hvisit, hown, hsize]
    rfl
  · have htotal := hentered.trans hnumber hbelow
    rw [Nat.add_comm 1] at htotal
    rw [Node.gain_eq, Node.size_eq, hown]
    exact htotal

theorem visitsAs_of_children {node : Node} (hchildren : WalksAs node.children) : VisitsAs node := by
  cases hown : node.tag.hasOwnScope with
  | true => exact visitsAs_own hchildren hown
  | false => exact visitsAs_other hchildren hown

/-- A walk inside an open scope adds exactly the gain of its trees, and gives back exactly the
annotated trees. -/
theorem walksAs (nodes : List Node) : WalksAs nodes := by
  induction nodes using Node.forest_induction with
  | nil =>
      intro context state number outer hactive hnumber
      exact ⟨state, rfl, (Arena.grow_empty _ _).symm, rfl, rfl⟩
  | cons node nodes hchildren hnodes =>
      intro context state number outer hactive hnumber
      obtain ⟨middle, hvisit, hmiddle⟩ :=
        visitsAs_of_children hchildren context state number outer hactive hnumber
      have hsize : middle.arena.size = state.arena.size + node.scopeCount := by
        rw [hmiddle.size, Node.length_opened_gain]
      obtain ⟨after, hrest, hafter⟩ := hnodes context middle number outer
        (by rw [hmiddle.active, hactive]) (by omega)
      rw [hsize, hmiddle.entered] at hafter
      refine ⟨after, ?_, hmiddle.trans hnumber hafter⟩
      rw [Walk.visitAll, hvisit]
      simp only [hrest, hsize]
      rfl

end BindingState

/-! ## The whole tree -/

namespace Node

/-- The trees that are walked through inside the outermost scope: those below a root that opens
it, or else the root itself. -/
def ground (root : Node) : List Node :=
  if root.tag.hasOwnScope then root.children else [root]

def openedBefore (root : Node) : Nat :=
  if root.tag.hasOwnScope then 0 else 1

/-- What a tree adds to its outermost scope. -/
def outermostGain (root : Node) : Gain :=
  gainAll (.ofNumber 0) 1 (1 - root.openedBefore) root.ground

def outermost (root : Node) : Scope :=
  ⟨none, root.outermostGain.children.toArray, root.tag, root.span,
    root.outermostGain.bindings.toArray⟩

/-- All scopes of a tree: the outermost one and then the others, in the order of the nodes that
open them. -/
def scopeArena (root : Node) : Arena :=
  ⟨(root.outermost :: root.outermostGain.opened).toArray, some (.ofNumber 0)⟩

end Node

namespace BindingState

/-- The arena in which only the outermost scope of a tree is open. -/
def firstArena (root : Node) : Arena :=
  Arena.empty.openScope none root.tag root.span

theorem firstArena_grow (root : Node) (gain : Gain) :
    (firstArena root).grow 0 gain =
      ⟨(⟨none, gain.children.toArray, root.tag, root.span, gain.bindings.toArray⟩ ::
        gain.opened).toArray, some (.ofNumber 0)⟩ := by
  simp [firstArena, Arena.openScope, Arena.empty, Arena.nextId, Arena.size, Arena.grow,
    Scope.extend]

/-- The outermost scope is open while the trees of the ground are walked through, whether the
root opens it or it is opened for the root. -/
theorem visit_root (root : Node) :
    ∃ after,
      walk.visit none (start root) root = (after, .ok [root.annotate root.openedBefore]) ∧
      after.arena = (firstArena root).grow 0 root.outermostGain := by
  cases hown : root.tag.hasOwnScope with
  | true =>
      let opened : BindingState := (({} : BindingState).advance).openScope root.tag root.span
      have henter : walk.enter none root (start root) =
          (opened, .ok (some (some (.ofNumber 0)))) := by
        simp only [walk, start, hown, if_true]
        rfl
      have hactive : opened.active = .ofNumber 0 :: [] := rfl
      have hsize : opened.arena.size = 1 := rfl
      obtain ⟨below, hvisit, hbelow⟩ :=
        walksAs root.children (some (.ofNumber 0)) opened 0 [] hactive (by omega)
      refine ⟨below.closeScope, ?_, ?_⟩
      · rw [Walk.visit_eq, Node.annotate_eq]
        simp only [henter, hvisit, hown, Node.openedBefore, if_true]
        rfl
      · simp only [Node.outermostGain, Node.openedBefore, Node.ground, hown, if_true]
        exact hbelow.arena
  | false =>
      let opened : BindingState := ({} : BindingState).openScope root.tag root.span
      have hstart : start root = opened := by
        simp [start, hown, opened]
      have hactive : opened.active = .ofNumber 0 :: [] := rfl
      have hsize : opened.arena.size = 1 := rfl
      obtain ⟨after, hvisit, hafter⟩ :=
        visitsAs_other (walksAs root.children) hown none opened 0 [] hactive (by omega)
      refine ⟨after, ?_, ?_⟩
      · rw [hstart, hvisit, hsize]
        simp [Node.openedBefore, hown]
      · simp only [Node.outermostGain, Node.openedBefore, Node.ground, hown, Bool.false_eq_true,
          if_false, Node.gainAll, Gain.append_empty]
        exact hafter.arena

/-- Binding the names of a tree notes their scopes on its nodes and fills the arena. -/
theorem run_eq (root : Node) :
    (run root).2 = root.annotate root.openedBefore ∧
      (run root).1.arena = root.scopeArena := by
  obtain ⟨after, hvisit, harena⟩ := visit_root root
  rw [run, Walk.runTree_eq_visit, hvisit]
  refine ⟨rfl, ?_⟩
  rw [harena, firstArena_grow]
  rfl

end BindingState

end CanonTree
