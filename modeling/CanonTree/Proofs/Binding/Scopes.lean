import CanonTree.Proofs.Binding.Numbering
import Mathlib.Data.List.Forall2

/-!
# Scopes and the nodes that open them

In a bound tree, the nodes that open a scope and the scopes of its arena correspond
one to one, in order: each scope was opened by its node, inside the scope of the
nearest node above that opens one, and holds the names declared below its node but
not below another node that opens a scope.  The identifiers noted on the nodes are
the numbers of their scopes.
-/

namespace CanonTree

namespace Node

mutual

/-- The nodes of a tree that are in the scope around it: the listing of the tree without what is
below a node that opens a scope. -/
def exposed : Node → List Node
  | ⟨tag, span, text, operator, children, scope⟩ =>
      ⟨tag, span, text, operator, children, scope⟩ ::
        if tag.hasOwnScope then [] else exposedAll children

def exposedAll : List Node → List Node
  | [] => []
  | node :: nodes => exposed node ++ exposedAll nodes

end

theorem exposed_eq (node : Node) :
    node.exposed = node :: if node.tag.hasOwnScope then [] else exposedAll node.children := by
  cases node
  rfl

/-- The names that a node declares, each with the tag and span of the node. -/
def declarations (node : Node) : List (String × Tag × Span) :=
  if node.tag.isDecl then node.boundNames.map fun name => (name, node.tag, node.span) else []

/-- The names that are declared in the scope around some trees. -/
def declarationsIn (nodes : List Node) : List (String × Tag × Span) :=
  (exposedAll nodes).flatMap declarations

end Node

/-- What a binding says of the declaration, apart from its position. -/
def Binding.declaration (binding : Binding) : String × Tag × Span :=
  (binding.name, binding.tag, binding.span)

/-- The names bound in a scope, in order, each with the tag and span of its declaration. -/
def Scope.declared (scope : Scope) : List (String × Tag × Span) :=
  scope.bindings.toList.map Binding.declaration

/-- The scope around a node with the given ancestors: that of the nearest one that opens a
scope, or else the one around the whole tree. -/
def enclosing (around : Option ScopeId) (ancestors : List Node) : Option ScopeId :=
  match ancestors.find? (·.tag.hasOwnScope) with
  | some ancestor => ancestor.scope
  | none => around

/-- The scope was opened by the node with the given ancestors. -/
structure OpenedBy (around : Option ScopeId) (entry : List Node × Node)
    (opened : ScopeId × Scope) : Prop where
  noted : entry.2.scope = some opened.1
  parent : opened.2.parent = enclosing around entry.1
  tag : opened.2.tag = entry.2.tag
  span : opened.2.span = entry.2.span
  declared : opened.2.declared = Node.declarationsIn entry.2.children

def numbered (number : Nat) (scopes : List Scope) : List (ScopeId × Scope) :=
  (scopes.zipIdx number).map fun entry => (.ofNumber entry.2, entry.1)

theorem numbered_append (number : Nat) (first others : List Scope) :
    numbered number (first ++ others) =
      numbered number first ++ numbered (number + first.length) others := by
  rw [numbered, List.zipIdx_append, List.map_append]
  rfl

namespace Node

theorem declaration_declaredAt (position : Nat) (node : Node) :
    (node.declaredAt position).map Binding.declaration = node.declarations := by
  rw [declaredAt, declarations]
  split
  · simp [Binding.declaration, Function.comp_def]
  · rfl

theorem declarationsIn_cons (node : Node) (nodes : List Node) :
    declarationsIn (node :: nodes) =
      node.declarations ++ (if node.tag.hasOwnScope then [] else declarationsIn node.children) ++
        declarationsIn nodes := by
  rw [declarationsIn, exposedAll, List.flatMap_append, exposed_eq, List.flatMap_cons]
  split <;> rfl

theorem declaration_gainAll (nodes : List Node) :
    ∀ parent number position,
      (gainAll parent number position nodes).bindings.map Binding.declaration =
        declarationsIn nodes := by
  induction nodes using forest_induction with
  | nil =>
      intro parent number position
      rfl
  | cons node nodes hchildren hnodes =>
      intro parent number position
      rw [gainAll, Gain.bindings_append, List.map_append, hnodes, declarationsIn_cons, gain_eq,
        Gain.bindings_append, List.map_append, declaration_declaredAt]
      congr 2
      split
      · rfl
      · exact hchildren _ _ _

theorem enclosing_cons_own {node : Node} (hown : node.tag.hasOwnScope = true)
    (around : Option ScopeId) (ancestors : List Node) :
    enclosing around (node :: ancestors) = node.scope := by
  simp [enclosing, hown]

theorem enclosing_cons_other {node : Node} (hown : node.tag.hasOwnScope = false)
    (around : Option ScopeId) (ancestors : List Node) :
    enclosing around (node :: ancestors) = enclosing around ancestors := by
  simp [enclosing, hown]

/-- A tree that is its own annotated form has the next number on its root, if that opens a
scope, and the numbers after it below. -/
theorem annotate_eq_self {number : Nat} {node : Node} (hnode : node.annotate number = node) :
    (node.tag.hasOwnScope = true → node.scope = some (.ofNumber number)) ∧
      annotateAll (number + if node.tag.hasOwnScope then 1 else 0) node.children =
        node.children := by
  constructor
  · intro hown
    rw [annotate_eq, if_pos hown] at hnode
    rw [← hnode]
  · rw [← children_annotate, hnode]

theorem annotateAll_cons_eq_self {number : Nat} {node : Node} {nodes : List Node}
    (hnodes : annotateAll number (node :: nodes) = node :: nodes) :
    node.annotate number = node ∧
      annotateAll (number + node.scopeCount) nodes = nodes :=
  List.cons.inj hnodes

def scopeOwnersAll (ancestors nodes : List Node) : List (List Node × Node) :=
  (lineageAll ancestors nodes).filter (·.2.tag.hasOwnScope)

def scopeOwners (root : Node) : List (List Node × Node) :=
  root.lineage.filter (·.2.tag.hasOwnScope)

theorem scopeOwnersAll_nil (ancestors : List Node) : scopeOwnersAll ancestors [] = [] := rfl

theorem scopeOwnersAll_cons (ancestors : List Node) (node : Node) (nodes : List Node) :
    scopeOwnersAll ancestors (node :: nodes) =
      (if node.tag.hasOwnScope then [(ancestors, node)] else []) ++
        scopeOwnersAll (node :: ancestors) node.children ++ scopeOwnersAll ancestors nodes := by
  simp only [scopeOwnersAll, lineageAll, lineageBelow_eq, List.filter_append, List.filter_cons]
  split <;> rfl

theorem scopeOwnersAll_singleton (root : Node) : scopeOwnersAll [] [root] = root.scopeOwners := by
  simp [scopeOwnersAll, scopeOwners, lineageAll, lineage]

/-- The scopes that a walk through a bound forest opens are, in order, those of its nodes that
open one. -/
theorem openedBy_gainAll {around : Option ScopeId} (nodes : List Node) :
    ∀ {ancestors parent number position}, annotateAll number nodes = nodes →
      enclosing around ancestors = some parent →
      List.Forall₂ (OpenedBy around) (scopeOwnersAll ancestors nodes)
        (numbered number (gainAll parent number position nodes).opened) := by
  induction nodes using forest_induction with
  | nil =>
      intro ancestors parent number position _ _
      exact List.Forall₂.nil
  | cons node nodes hchildren hnodes =>
      intro ancestors parent number position hbound hparent
      obtain ⟨hnode, hrest⟩ := annotateAll_cons_eq_self hbound
      obtain ⟨hscope, hbelow⟩ := annotate_eq_self hnode
      rw [scopeOwnersAll_cons, gainAll, Gain.opened_append, numbered_append, length_opened_gain]
      apply List.rel_append
      · rw [gain_eq, Gain.opened_append, List.nil_append]
        cases hown : node.tag.hasOwnScope with
        | true =>
            rw [hown] at hbelow
            refine List.Forall₂.cons ?_ (hchildren hbelow ?_)
            · exact ⟨hscope hown, hparent.symm, rfl, rfl, declaration_gainAll node.children _ _ _⟩
            · rw [enclosing_cons_own hown, hscope hown]
        | false =>
            rw [hown] at hbelow
            refine hchildren hbelow ?_
            rw [enclosing_cons_other hown, hparent]
      · exact hnodes hrest hparent

/-! ## The arena of a bound tree -/

/-- The scope around a whole tree; there is none if its root opens the outermost one. -/
def around (root : Node) : Option ScopeId :=
  if root.tag.hasOwnScope then none else some (.ofNumber 0)

theorem declared_outermost (root : Node) :
    root.outermost.declared = declarationsIn root.ground :=
  declaration_gainAll root.ground _ _ _

theorem toList_scopeArena (root : Node) :
    root.scopeArena.toList =
      (.ofNumber 0, root.outermost) :: numbered 1 root.outermostGain.opened :=
  rfl

/-- Apart from the one that is opened for a root without a scope, the scopes of a bound tree are
those of its nodes. -/
theorem openedBy_scopeArena {root : Node} (hbound : root.IsBound) :
    List.Forall₂ (OpenedBy root.around) root.scopeOwners
      (root.scopeArena.toList.drop root.openedBefore) := by
  rw [← scopeOwnersAll_singleton, toList_scopeArena, outermostGain]
  cases hown : root.tag.hasOwnScope with
  | true =>
      have hbefore : root.openedBefore = 0 := by
        simp [openedBefore, hown]
      have hground : root.ground = root.children := by
        simp [ground, hown]
      rw [IsBound, hbefore] at hbound
      obtain ⟨hscope, hbelow⟩ := annotate_eq_self hbound
      rw [hown] at hbelow
      have hopened : OpenedBy root.around ([], root) (.ofNumber 0, root.outermost) := by
        refine ⟨hscope hown, by simp [around, hown, enclosing, outermost], rfl, rfl, ?_⟩
        rw [declared_outermost, hground]
      have howners : scopeOwnersAll [] [root] =
          ([], root) :: scopeOwnersAll [root] root.children := by
        simp [scopeOwnersAll_cons, scopeOwnersAll_nil, hown]
      rw [hbefore, List.drop_zero, howners, hground]
      refine List.Forall₂.cons hopened (openedBy_gainAll root.children hbelow ?_)
      rw [enclosing_cons_own hown, hscope hown]
  | false =>
      have hbefore : root.openedBefore = 1 := by
        simp [openedBefore, hown]
      have hground : root.ground = [root] := by
        simp [ground, hown]
      rw [IsBound, hbefore] at hbound
      rw [hbefore, hground]
      refine openedBy_gainAll [root] ?_ ?_
      · simp [annotateAll, hbound]
      · simp [enclosing, around, hown]

theorem size_scopeArena {root : Node} (hbound : root.IsBound) :
    root.scopeArena.size = root.scopeOwners.length + root.openedBefore := by
  have hlength := (openedBy_scopeArena hbound).length_eq
  have hsize : root.scopeArena.toList.length = root.scopeArena.size := by
    simp [Arena.toList, Arena.size]
  have hbefore : root.openedBefore ≤ root.scopeArena.toList.length := by
    rw [openedBefore, toList_scopeArena, List.length_cons]
    split <;> omega
  rw [List.length_drop] at hlength
  omega

/-- In related lists, what stands at a position of the first has a partner in the second. -/
theorem exists_getElem?_of_forall₂ {α β : Type} {related : α → β → Prop} {left : List α}
    {right : List β} (hrelated : List.Forall₂ related left right) {index : Nat} {item : α}
    (hitem : left[index]? = some item) :
    ∃ partner, right[index]? = some partner ∧ related item partner := by
  induction hrelated generalizing index with
  | nil => simp at hitem
  | @cons head partner _ _ hhead _ ih =>
      cases index with
      | zero =>
          rw [List.getElem?_cons_zero, Option.some.injEq] at hitem
          subst hitem
          exact ⟨partner, List.getElem?_cons_zero, hhead⟩
      | succ index => exact ih hitem

theorem getElem?_drop_scopeArena (root : Node) (index : Nat) :
    (root.scopeArena.toList.drop root.openedBefore)[index]? =
      (root.scopeArena.get? (.ofNumber (index + root.openedBefore))).map
        (ScopeId.ofNumber (index + root.openedBefore), ·) := by
  rw [List.getElem?_drop, Arena.getElem?_toList, Nat.add_comm]

/-- Each node that opens a scope has its scope in the arena, in the same order. -/
theorem exists_openedBy {root : Node} (hbound : root.IsBound) {index : Nat}
    {entry : List Node × Node} (hentry : root.scopeOwners[index]? = some entry) :
    ∃ scope, root.scopeArena.get? (.ofNumber (index + root.openedBefore)) = some scope ∧
      OpenedBy root.around entry (.ofNumber (index + root.openedBefore), scope) := by
  obtain ⟨opened, hopened, hby⟩ :=
    exists_getElem?_of_forall₂ (openedBy_scopeArena hbound) hentry
  rw [getElem?_drop_scopeArena, Option.map_eq_some_iff] at hopened
  obtain ⟨scope, hscope, rfl⟩ := hopened
  exact ⟨scope, hscope, hby⟩

/-- Each scope but the one that is opened for a root without a scope has a node that opened it. -/
theorem exists_scopeOwner {root : Node} (hbound : root.IsBound) {index : Nat} {scope : Scope}
    (hscope : root.scopeArena.get? (.ofNumber (index + root.openedBefore)) = some scope) :
    ∃ entry ∈ root.scopeOwners,
      OpenedBy root.around entry (.ofNumber (index + root.openedBefore), scope) := by
  have hopened : (root.scopeArena.toList.drop root.openedBefore)[index]? =
      some (.ofNumber (index + root.openedBefore), scope) := by
    rw [getElem?_drop_scopeArena, hscope, Option.map_some]
  obtain ⟨entry, hentry, hby⟩ :=
    exists_getElem?_of_forall₂ (openedBy_scopeArena hbound).flip hopened
  exact ⟨entry, List.mem_of_getElem? hentry, hby⟩

end Node

end CanonTree
