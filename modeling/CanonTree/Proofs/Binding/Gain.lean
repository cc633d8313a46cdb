import CanonTree.Normalize.Bind
import CanonTree.Proofs.Arena
import CanonTree.Proofs.Forest

/-!
# What the binding walk leaves behind

A walk through some trees, inside an open scope, registers names in that scope, opens
scopes in it, and fills new slots of the arena.  `Node.gainAll` computes all three by
recursion on the trees, and `Node.annotateAll` the trees with their scopes noted.
The walk adds exactly this gain to the arena, gives back exactly these trees, and
leaves the stack of open scopes as it found it.
-/

namespace CanonTree

namespace Node

def scopeCount (node : Node) : Nat :=
  node.preorder.countP (·.tag.hasOwnScope)

def scopeCountAll (nodes : List Node) : Nat :=
  (preorderAll nodes).countP (·.tag.hasOwnScope)

@[simp]
theorem scopeCountAll_nil : scopeCountAll [] = 0 := rfl

@[simp]
theorem scopeCountAll_cons (node : Node) (nodes : List Node) :
    scopeCountAll (node :: nodes) = node.scopeCount + scopeCountAll nodes := by
  rw [scopeCountAll, preorderAll, List.countP_append]
  rfl

theorem scopeCount_eq (node : Node) :
    node.scopeCount = scopeCountAll node.children + if node.tag.hasOwnScope then 1 else 0 := by
  rw [scopeCount, preorder_eq, List.countP_cons]
  rfl

mutual

/-- The tree with its scope noted on each node that opens one.  The scopes are numbered from
`number` on, parents first. -/
def annotate (number : Nat) : Node → Node
  | ⟨tag, span, text, operator, children, scope⟩ =>
      if tag.hasOwnScope then
        ⟨tag, span, text, operator, annotateAll (number + 1) children, some (.ofNumber number)⟩
      else ⟨tag, span, text, operator, annotateAll number children, scope⟩

/-- The same on several trees, numbered one tree after the other. -/
def annotateAll (number : Nat) : List Node → List Node
  | [] => []
  | node :: nodes => annotate number node :: annotateAll (number + node.scopeCount) nodes

end

theorem annotate_eq (number : Nat) (node : Node) :
    node.annotate number =
      if node.tag.hasOwnScope then
        { node with
          children := annotateAll (number + 1) node.children, scope := some (.ofNumber number) }
      else { node with children := annotateAll number node.children } := by
  cases node
  rfl

/-- The bindings of the names that a node declares, with the position of the node. -/
def declaredAt (position : Nat) (node : Node) : List Binding :=
  if node.tag.isDecl then
    node.boundNames.map (⟨·, node.tag, node.span, position⟩)
  else []

end Node

/-- What a walk inside an open scope adds to that scope and to the arena. -/
structure Gain where
  /-- The bindings registered in the scope. -/
  bindings : List Binding := []
  /-- The scopes opened directly inside the scope. -/
  children : List ScopeId := []
  /-- All scopes opened, in opening order. -/
  opened : List Scope := []

namespace Gain

instance : Append Gain where
  append first others :=
    ⟨first.bindings ++ others.bindings, first.children ++ others.children,
      first.opened ++ others.opened⟩

@[simp]
theorem bindings_append (first others : Gain) :
    (first ++ others).bindings = first.bindings ++ others.bindings := rfl

@[simp]
theorem children_append (first others : Gain) :
    (first ++ others).children = first.children ++ others.children := rfl

@[simp]
theorem opened_append (first others : Gain) :
    (first ++ others).opened = first.opened ++ others.opened := rfl

theorem append_empty (gain : Gain) : gain ++ {} = gain := by
  show Gain.mk _ _ _ = _
  simp

/-- The gain of opening one scope that then has a gain of its own. -/
def ofScope (parent : ScopeId) (number : Nat) (tag : Tag) (span : Span) (inner : Gain) : Gain where
  children := [.ofNumber number]
  opened := ⟨some parent, inner.children.toArray, tag, span, inner.bindings.toArray⟩ ::
    inner.opened

end Gain

namespace Node

mutual

/-- The gain of a walk through one tree inside the scope `parent`.  The next scope to be opened
is `number`, and `position` is where the root stands when all nodes are listed. -/
def gain (parent : ScopeId) (number position : Nat) : Node → Gain
  | ⟨tag, span, text, operator, children, scope⟩ =>
      { bindings := declaredAt position ⟨tag, span, text, operator, children, scope⟩ } ++
        if tag.hasOwnScope then
          .ofScope parent number tag span
            (gainAll (.ofNumber number) (number + 1) (position + 1) children)
        else gainAll parent number (position + 1) children

def gainAll (parent : ScopeId) (number position : Nat) : List Node → Gain
  | [] => {}
  | node :: nodes =>
      gain parent number position node ++
        gainAll parent (number + node.scopeCount) (position + node.size) nodes

end

theorem gain_eq (parent : ScopeId) (number position : Nat) (node : Node) :
    node.gain parent number position =
      { bindings := node.declaredAt position } ++
        if node.tag.hasOwnScope then
          .ofScope parent number node.tag node.span
            (gainAll (.ofNumber number) (number + 1) (position + 1) node.children)
        else gainAll parent number (position + 1) node.children := by
  cases node
  rfl

/-- A walk opens as many scopes as there are nodes that open one. -/
theorem length_opened_gainAll (nodes : List Node) :
    ∀ parent number position,
      (gainAll parent number position nodes).opened.length = scopeCountAll nodes := by
  induction nodes using forest_induction with
  | nil =>
      intro parent number position
      rfl
  | cons node nodes hchildren hnodes =>
      intro parent number position
      rw [gainAll, Gain.opened_append, List.length_append, hnodes, scopeCountAll_cons,
        scopeCount_eq, gain_eq, Gain.opened_append, List.length_append]
      split
      · simp [Gain.ofScope, hchildren]
      · simp [hchildren]

theorem length_opened_gain (parent : ScopeId) (number position : Nat) (node : Node) :
    (node.gain parent number position).opened.length = node.scopeCount := by
  simpa [gainAll] using length_opened_gainAll [node] parent number position

end Node

/-! ## The gain in the arena -/

def Scope.extend (scope : Scope) (gain : Gain) : Scope :=
  { scope with
    children := scope.children ++ gain.children.toArray,
    bindings := scope.bindings ++ gain.bindings.toArray }

theorem Scope.extend_extend (scope : Scope) (first others : Gain) :
    (scope.extend first).extend others = scope.extend (first ++ others) := by
  simp [extend, Array.append_assoc]

theorem Scope.extend_empty (scope : Scope) : scope.extend {} = scope := by
  simp [extend]

namespace Arena

def grow (arena : Arena) (number : Nat) (gain : Gain) : Arena :=
  { arena with scopes := arena.scopes.modify number (·.extend gain) ++ gain.opened.toArray }

@[simp]
theorem size_grow (arena : Arena) (number : Nat) (gain : Gain) :
    (arena.grow number gain).size = arena.size + gain.opened.length := by
  simp [grow, size]

theorem getElem?_grow (arena : Arena) (number : Nat) (gain : Gain) (slot : Nat) :
    (arena.grow number gain).scopes[slot]? =
      if slot < arena.size then
        arena.scopes[slot]?.map fun scope => if number = slot then scope.extend gain else scope
      else gain.opened[slot - arena.size]? := by
  simp only [grow, Array.getElem?_append, Array.size_modify, Array.getElem?_modify,
    List.getElem?_toArray]
  rw [← size]
  split
  · split <;> simp
  · rfl

/-- Two arenas are equal if their roots and all their slots are. -/
theorem ext_slots {left right : Arena} (hroot : left.root = right.root)
    (hslots : ∀ slot : Nat, left.scopes[slot]? = right.scopes[slot]?) : left = right := by
  obtain ⟨leftScopes, leftRoot⟩ := left
  obtain ⟨rightScopes, rightRoot⟩ := right
  rw [Arena.mk.injEq]
  exact ⟨Array.ext_getElem? hslots, hroot⟩

/-- Two walks inside one scope add up. -/
theorem grow_grow (arena : Arena) {number : Nat} (hnumber : number < arena.size)
    (first others : Gain) :
    (arena.grow number first).grow number others = arena.grow number (first ++ others) := by
  apply ext_slots (by rfl)
  intro slot
  rw [getElem?_grow, getElem?_grow, getElem?_grow, size_grow, Gain.opened_append]
  by_cases hold : slot < arena.size
  · have hstill : slot < arena.size + first.opened.length := by omega
    simp only [hold, hstill, if_true, Option.map_map]
    congr 1
    funext scope
    by_cases hslot : number = slot
    · simp [hslot, Scope.extend_extend]
    · simp [hslot]
  · have hother : number ≠ slot := by omega
    simp only [hold, if_false, hother, List.getElem?_append]
    by_cases hfirst : slot < arena.size + first.opened.length
    · have hbound : slot - arena.size < first.opened.length := by omega
      simp [hfirst, hbound]
    · have hbound : ¬slot - arena.size < first.opened.length := by omega
      simp only [hfirst, hbound, if_false]
      congr 1
      omega

/-- A walk inside the scope that was opened last adds to that scope. -/
theorem grow_ofScope_grow (arena : Arena) (number : Nat)
    (parent : ScopeId) (tag : Tag) (span : Span) (inner : Gain) :
    (arena.grow number (.ofScope parent arena.size tag span {})).grow arena.size inner =
      arena.grow number (.ofScope parent arena.size tag span inner) := by
  apply ext_slots (by rfl)
  intro slot
  rw [getElem?_grow, getElem?_grow, getElem?_grow, size_grow]
  simp only [Gain.ofScope, List.length_cons, List.length_nil]
  by_cases hold : slot < arena.size
  · have hother : arena.size ≠ slot := by omega
    have hstill : slot < arena.size + (0 + 1) := by omega
    simp only [hold, hstill, hother, if_true, if_false, Option.map_map]
    rfl
  · by_cases hnew : slot = arena.size
    · subst hnew
      simp [Scope.extend]
    · obtain ⟨offset, rfl⟩ : ∃ offset, slot = arena.size + 1 + offset :=
        ⟨slot - (arena.size + 1), by omega⟩
      have hskip : arena.size + 1 + offset - arena.size = offset + 1 := by omega
      have hafter : ¬arena.size + 1 + offset < arena.size + (0 + 1) := by omega
      simp [hold, hafter, hskip]

theorem openScope_eq_grow (arena : Arena) {number : Nat} (hnumber : number < arena.size)
    (tag : Tag) (span : Span) :
    arena.openScope (some (.ofNumber number)) tag span =
      arena.grow number (.ofScope (.ofNumber number) arena.size tag span {}) := by
  apply ext_slots (by rfl)
  intro slot
  rw [getElem?_openScope, getElem?_grow]
  simp only [Gain.ofScope, Option.some.injEq, ScopeId.ofNumber_inj]
  by_cases hold : slot < arena.size
  · have hother : slot ≠ arena.size := by omega
    simp [hold, hother, Scope.extend, nextId]
  · by_cases hnew : slot = arena.size
    · have hparent : number ≠ arena.size := by omega
      simp [hnew, hparent]
    · obtain ⟨offset, rfl⟩ : ∃ offset, slot = arena.size + (offset + 1) :=
        ⟨slot - (arena.size + 1), by omega⟩
      have hnone : arena.scopes[arena.size + (offset + 1)]? = none :=
        Array.getElem?_eq_none (by rw [← size]; omega)
      simp [hnone]

theorem bind_eq_grow (arena : Arena) (number : Nat) (binding : Binding) :
    arena.bind (.ofNumber number) binding = arena.grow number { bindings := [binding] } := by
  apply ext_slots (by rfl)
  intro slot
  rw [bind, getElem?_modify, getElem?_grow]
  simp only [ScopeId.ofNumber_inj]
  by_cases hold : slot < arena.size
  · simp [hold, Scope.extend]
  · have hnone : arena.scopes[slot]? = none :=
      Array.getElem?_eq_none (by rw [← size]; omega)
    simp [hold, hnone]

theorem grow_empty (arena : Arena) (number : Nat) : arena.grow number {} = arena := by
  apply ext_slots (by rfl)
  intro slot
  rw [getElem?_grow]
  by_cases hold : slot < arena.size
  · simp [hold, Scope.extend_empty]
  · have hnone : arena.scopes[slot]? = none :=
      Array.getElem?_eq_none (by rw [← size]; omega)
    simp [hold, hnone]

end Arena

end CanonTree
