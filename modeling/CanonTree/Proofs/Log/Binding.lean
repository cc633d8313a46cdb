import CanonTree.Proofs.Binding.Declarations
import CanonTree.Proofs.Log.Passages

/-!
# Records of the binding walk

Binding leaves its records when a node is entered: one for each name that the node declares
and then one for the scope that it opens.  So the records can be read off the bound tree, node
by node and parents first, because the identifier of a scope is noted on its node and the
scope around it is that of the nearest node above that opens one.
-/

namespace CanonTree

def Record.ofDeclaration (declared : String × Tag × Span) : Record :=
  .binding declared.1 declared.2.2

namespace Node

/-- The records of one node of a bound tree, with its ancestors: those of its names come before
the one of its scope. -/
def notes (around : Option ScopeId) (entry : List Node × Node) : List Record :=
  entry.2.declarations.map Record.ofDeclaration ++
    if entry.2.tag.hasOwnScope then
      entry.2.scope.toList.map
        (.openedScope · entry.2.tag entry.2.span (enclosing around entry.1))
    else []

/-- The records of a bound tree.  The scope around a root that opens none is opened first. -/
def bindingTrace (root : Node) : List Record :=
  (if root.tag.hasOwnScope then [] else [.openedScope (.ofNumber 0) root.tag root.span none]) ++
    root.lineage.flatMap (notes root.around)

@[simp]
theorem declarations_annotate (number : Nat) (node : Node) :
    (node.annotate number).declarations = node.declarations := by
  simp [declarations]

theorem scope_annotate {node : Node} (hown : node.tag.hasOwnScope = true) (number : Nat) :
    (node.annotate number).scope = some (.ofNumber number) := by
  rw [annotate_eq, if_pos hown]

theorem notes_annotate_own {node : Node} (hown : node.tag.hasOwnScope = true)
    (around : Option ScopeId) (ancestors : List Node) (number : Nat) :
    notes around (ancestors, node.annotate number) =
      [.openedScope (.ofNumber number) node.tag node.span (enclosing around ancestors)] := by
  simp [notes, hown, scope_annotate, declarations_of_hasOwnScope]

theorem notes_annotate_other {node : Node} (hown : node.tag.hasOwnScope = false)
    (around : Option ScopeId) (ancestors : List Node) (number : Nat) :
    notes around (ancestors, node.annotate number) =
      node.declarations.map Record.ofDeclaration := by
  simp [notes, hown]

end Node

open Node

namespace BindingState

variable {state entered : BindingState} {node : Node}

/-! ## One node -/

theorem log_foldl_register (scope : ScopeId) (node : Node) (names : List String) :
    ∀ state : BindingState, (names.foldl (register scope node) state).log.toList =
      state.log.toList ++ names.map (.binding · node.span) := by
  induction names with
  | nil => simp
  | cons name names ih =>
      intro state
      rw [List.foldl_cons, ih, List.map_cons]
      simp [register]

/-- Inside an open scope, each declared name leaves a record. -/
theorem log_advance_declare {scope : ScopeId} {outer : List ScopeId}
    (hactive : state.active = scope :: outer) (node : Node) :
    (state.declare node).advance.log.toList =
      state.log.toList ++ node.declarations.map Record.ofDeclaration := by
  simp only [advance, declare, hactive, List.head?_cons, declarations]
  split
  · rw [log_foldl_register, List.map_map]
    rfl
  · simp

/-- Nothing is recorded after a node was entered but what is recorded below it. -/
theorem log_visit {context inner : Option ScopeId}
    (henter : walk.enter context node state = (entered, .ok (some inner))) :
    (walk.visit context state node).1.log = (walk.visitAll inner entered node.children).1.log := by
  rw [Walk.visit_eq, henter]
  dsimp only
  match walk.visitAll inner entered node.children with
  | (below, .ok results) => cases inner <;> rfl
  | (_, .error error) => cases error

theorem log_visitAll_cons (context : Option ScopeId) (state : BindingState) (node : Node)
    (nodes : List Node) :
    (walk.visitAll context state (node :: nodes)).1.log =
      (walk.visitAll context (walk.visit context state node).1 nodes).1.log := by
  rw [Walk.visitAll]
  match walk.visit context state node with
  | (_, .error error) => cases error
  | (middle, .ok first) =>
      dsimp only
      match walk.visitAll context middle nodes with
      | (_, .error error) => cases error
      | (_, .ok others) => rfl

/-! ## Several trees -/

/-- What a walk through several trees records inside the open scope `number`. -/
def LogsAs (nodes : List Node) : Prop :=
  ∀ (context : Option ScopeId) (state : BindingState) (number : Nat) (outer : List ScopeId)
    (around : Option ScopeId) (ancestors : List Node),
    state.active = .ofNumber number :: outer → number < state.arena.size →
    enclosing around ancestors = some (.ofNumber number) →
    (walk.visitAll context state nodes).1.log.toList =
      state.log.toList ++
        (lineageAll ancestors (annotateAll state.arena.size nodes)).flatMap (notes around)

def LogsTreeAs (node : Node) : Prop :=
  ∀ (context : Option ScopeId) (state : BindingState) (number : Nat) (outer : List ScopeId)
    (around : Option ScopeId) (ancestors : List Node),
    state.active = .ofNumber number :: outer → number < state.arena.size →
    enclosing around ancestors = some (.ofNumber number) →
    (walk.visit context state node).1.log.toList =
      state.log.toList ++
        (lineageBelow ancestors (node.annotate state.arena.size)).flatMap (notes around)

/-- The record of the scope comes before those of what is in it. -/
theorem logsTreeAs_own (hchildren : LogsAs node.children)
    (hown : node.tag.hasOwnScope = true) : LogsTreeAs node := by
  intro context state number outer around ancestors hactive hnumber henclosing
  have hentered := gained_advance_declare hactive hnumber node
  have hlog := log_advance_declare hactive node
  generalize hstate : (state.declare node).advance = entered at hentered hlog
  have hsize : entered.arena.size = state.arena.size := hentered.size
  have henter : walk.enter context node state =
      (entered.openScope node.tag node.span,
        .ok (some (some (.ofNumber state.arena.size)))) := by
    simp [walk, hstate, hown, Arena.nextId, hsize]
  have hsizeOpened : (entered.openScope node.tag node.span).arena.size = state.arena.size + 1 := by
    rw [← hsize]
    exact Arena.size_openScope _ _ _ _
  have hlogOpened : (entered.openScope node.tag node.span).log.toList =
      state.log.toList ++ notes around (ancestors, node.annotate state.arena.size) := by
    rw [notes_annotate_own hown, henclosing]
    simp [openScope, hlog, declarations_of_hasOwnScope hown, Arena.nextId, hsize,
      hentered.active, hactive]
  have htag : (node.annotate state.arena.size).tag.hasOwnScope = true := by
    rw [tag_annotate, hown]
  have hbelow := hchildren (some (.ofNumber state.arena.size))
    (entered.openScope node.tag node.span) state.arena.size entered.active around
    (node.annotate state.arena.size :: ancestors) (by rw [← hsize]; rfl) (by omega)
    (by rw [enclosing_cons_own htag, scope_annotate hown])
  rw [log_visit henter, hbelow, hlogOpened, hsizeOpened, lineageBelow_eq, List.flatMap_cons,
    children_annotate, if_pos hown, List.append_assoc]

theorem logsTreeAs_other (hchildren : LogsAs node.children)
    (hown : node.tag.hasOwnScope = false) : LogsTreeAs node := by
  intro context state number outer around ancestors hactive hnumber henclosing
  have hentered := gained_advance_declare hactive hnumber node
  have hlog := log_advance_declare hactive node
  generalize hstate : (state.declare node).advance = entered at hentered hlog
  have hsize : entered.arena.size = state.arena.size := hentered.size
  have henter : walk.enter context node state = (entered, .ok (some none)) := by
    simp [walk, hstate, hown]
  have htag : (node.annotate state.arena.size).tag.hasOwnScope = false := by
    rw [tag_annotate, hown]
  have hbelow := hchildren none entered number outer around
    (node.annotate state.arena.size :: ancestors) (hentered.active.trans hactive) (by omega)
    (by rw [enclosing_cons_other htag, henclosing])
  rw [log_visit henter, hbelow, hlog, lineageBelow_eq, List.flatMap_cons,
    notes_annotate_other hown, children_annotate, hown, hsize, List.append_assoc]
  rfl

theorem logsTreeAs_of_children (hchildren : LogsAs node.children) : LogsTreeAs node := by
  cases hown : node.tag.hasOwnScope with
  | true => exact logsTreeAs_own hchildren hown
  | false => exact logsTreeAs_other hchildren hown

/-- A walk inside an open scope records exactly what the annotated trees show. -/
theorem logsAs (nodes : List Node) : LogsAs nodes := by
  induction nodes using forest_induction with
  | nil =>
      intro context state number outer around ancestors _ _ _
      exact (List.append_nil _).symm
  | cons node nodes hchildren hnodes =>
      intro context state number outer around ancestors hactive hnumber henclosing
      have hfirst := logsTreeAs_of_children hchildren context state number outer around ancestors
        hactive hnumber henclosing
      obtain ⟨middle, hvisit, hmiddle⟩ := visitsAs_of_children (walksAs node.children) context
        state number outer hactive hnumber
      have hsize : middle.arena.size = state.arena.size + node.scopeCount := by
        rw [hmiddle.size, length_opened_gain]
      rw [hvisit] at hfirst
      have hothers := hnodes context middle number outer around ancestors
        (hmiddle.active.trans hactive) (by omega) henclosing
      rw [log_visitAll_cons, hvisit, hothers, hfirst, hsize, annotateAll, lineageAll,
        List.flatMap_append, List.append_assoc]

/-! ## The whole tree -/

/-- The records of binding a tree can be read off the bound tree. -/
theorem log_run (root : Node) : (run root).1.log.toList = (run root).2.bindingTrace := by
  have hlog : (run root).1.log = (walk.visit none (start root) root).1.log := by
    rw [run, Walk.runTree_eq_visit]
    split <;> rename_i hvisit <;> rw [hvisit]
  rw [hlog, (run_eq root).1, bindingTrace, around, tag_annotate, span_annotate]
  cases hown : root.tag.hasOwnScope with
  | true =>
      let opened : BindingState := (({} : BindingState).advance).openScope root.tag root.span
      have henter : walk.enter none root (start root) =
          (opened, .ok (some (some (.ofNumber 0)))) := by
        simp only [walk, start, hown, if_true]
        rfl
      have htag : (root.annotate 0).tag.hasOwnScope = true := by
        rw [tag_annotate, hown]
      have hbelow := logsAs root.children (some (.ofNumber 0)) opened 0 [] none [root.annotate 0]
        rfl (Nat.lt_succ_self 0) (by rw [enclosing_cons_own htag, scope_annotate hown])
      rw [log_visit henter, hbelow, openedBefore, if_pos hown, if_pos rfl, if_pos rfl, lineage,
        lineageBelow_eq, List.flatMap_cons, notes_annotate_own hown, children_annotate,
        if_pos hown]
      rfl
  | false =>
      let opened : BindingState := ({} : BindingState).openScope root.tag root.span
      have hstart : start root = opened := by
        simp [start, hown, opened]
      have htree := logsTreeAs_other (logsAs root.children) hown none opened 0 []
        (some (.ofNumber 0)) [] rfl (Nat.lt_succ_self 0) rfl
      rw [hstart, htree, openedBefore, hown]
      rfl

/-! ## Numbers of records -/

/-- As many records tell of names and of scopes as there are bindings and scopes, and there are no
others. -/
structure Recorded (state : BindingState) : Prop where
  kinds : ∀ record ∈ state.log.toList, record.kind = .binding ∨ record.kind = .opening
  bindings : Record.numberOf .binding state.log = state.bindings
  scopes : Record.numberOf .opening state.log = state.arena.size

theorem Recorded.numberOf_other {kind : Record.Kind} (hstate : Recorded state)
    (hbinding : kind ≠ .binding) (hopening : kind ≠ .opening) :
    Record.numberOf kind state.log = 0 := by
  apply Record.numberOf_eq_zero
  intro record hrecord hkind
  rw [← hkind] at hbinding hopening
  exact (hstate.kinds record hrecord).elim hbinding hopening

theorem Recorded.openScope (hstate : Recorded state) (tag : Tag) (span : Span) :
    Recorded (state.openScope tag span) where
  kinds := by
    simpa [BindingState.openScope, or_imp, forall_and, Record.kind] using hstate.kinds
  bindings := by
    simp [BindingState.openScope, Record.kind, hstate.bindings]
  scopes := by
    simp [BindingState.openScope, Record.kind, hstate.scopes]

theorem Recorded.register (hstate : Recorded state) (scope : ScopeId) (node : Node)
    (name : String) : Recorded (state.register scope node name) where
  kinds := by
    simpa [BindingState.register, or_imp, forall_and, Record.kind] using hstate.kinds
  bindings := by
    simp [BindingState.register, Record.kind, hstate.bindings]
  scopes := by
    simp [BindingState.register, Record.kind, hstate.scopes]

theorem Recorded.declare (hstate : Recorded state) (node : Node) :
    Recorded (state.declare node) := by
  rw [BindingState.declare]
  split
  · rename_i scope _
    split
    · apply List.foldlRecOn node.boundNames (BindingState.register scope node) hstate
      intro before hbefore name _
      exact hbefore.register scope node name
    · exact hstate
  · exact hstate

theorem recorded_enter (context : Option ScopeId) (node : Node) (state : BindingState)
    (hstate : Recorded state) : Recorded (walk.enter context node state).1 := by
  have hdeclared : Recorded (state.declare node).advance :=
    ⟨(hstate.declare node).kinds, (hstate.declare node).bindings, (hstate.declare node).scopes⟩
  simp only [walk]
  split
  · exact hdeclared.openScope node.tag node.span
  · exact hdeclared

theorem recorded_leave (context : Option ScopeId) (node : Node) (results : List Node)
    (state : BindingState) (hstate : Recorded state) :
    Recorded (walk.leave context node results state).1 := by
  cases context with
  | none => exact hstate
  | some id => exact ⟨hstate.kinds, hstate.bindings, hstate.scopes⟩

theorem recorded_empty : Recorded {} :=
  ⟨List.forall_mem_nil _, rfl, rfl⟩

theorem recorded_start (root : Node) : Recorded (start root) := by
  rw [start]
  split
  · exact recorded_empty
  · exact recorded_empty.openScope root.tag root.span

theorem recorded_run (root : Node) : Recorded (run root).1 := by
  have hvisit := Walk.visit_preserves recorded_enter recorded_leave root none
    (recorded_start root)
  rw [run, Walk.runTree_eq_visit]
  split <;> rename_i hresult <;> rw [hresult] at hvisit <;> exact hvisit

end BindingState

end CanonTree
