import CanonTree.Proofs.Binding.Scopes
import CanonTree.Proofs.Normalization

/-!
# Every declaration is bound once, in its innermost scope

Each scope of a normalized tree covers a part of the tree: all that is below the node
that opened it, or the whole tree if it was opened for a root without a scope.  It
binds exactly the names that are declared there and not below a node that opens
another scope.  Over the whole tree no name of a declaration is lost and none is
bound twice.
-/

namespace CanonTree

namespace Node

theorem hasOwnScope_eq_false_of_isDecl {tag : Tag} (hdecl : tag.isDecl = true) :
    tag.hasOwnScope = false := by
  cases tag with
  | shared tag => cases tag <;> first | rfl | cases hdecl
  | java tag => cases tag <;> rfl
  | raw tag => obtain tag | tag := tag <;> cases tag <;> rfl

theorem declarations_of_hasOwnScope {node : Node} (hown : node.tag.hasOwnScope = true) :
    node.declarations = [] := by
  have hdecl : node.tag.isDecl ≠ true := by
    intro hdecl
    rw [hasOwnScope_eq_false_of_isDecl hdecl] at hown
    cases hown
  rw [declarations, if_neg hdecl]

/-! ## The declarations of a tree, scope by scope -/

def registrationsAll (around : Option ScopeId) (ancestors nodes : List Node) :
    List (Option ScopeId × String × Tag × Span) :=
  (lineageAll ancestors nodes).flatMap fun entry =>
    entry.2.declarations.map (enclosing around entry.1, ·)

/-- The declared names of a tree, each with the scope around its declaration. -/
def registrations (root : Node) : List (Option ScopeId × String × Tag × Span) :=
  root.lineage.flatMap fun entry => entry.2.declarations.map (enclosing root.around entry.1, ·)

/-- The names declared inside the scopes of some nodes, each with its scope. -/
def declaredBelow (owners : List (List Node × Node)) :
    List (Option ScopeId × String × Tag × Span) :=
  owners.flatMap fun entry => (declarationsIn entry.2.children).map (entry.2.scope, ·)

theorem registrationsAll_cons (around : Option ScopeId) (ancestors : List Node) (node : Node)
    (nodes : List Node) :
    registrationsAll around ancestors (node :: nodes) =
      node.declarations.map (enclosing around ancestors, ·) ++
        registrationsAll around (node :: ancestors) node.children ++
        registrationsAll around ancestors nodes := by
  simp only [registrationsAll, lineageAll, lineageBelow_eq, List.flatMap_append,
    List.flatMap_cons]

/-- The declarations of a forest are those in the scope around it and those inside the scopes
of its nodes. -/
theorem registrationsAll_perm (around : Option ScopeId) (nodes : List Node) :
    ∀ ancestors, (registrationsAll around ancestors nodes).Perm
      ((declarationsIn nodes).map (enclosing around ancestors, ·) ++
        declaredBelow (scopeOwnersAll ancestors nodes)) := by
  induction nodes using forest_induction with
  | nil =>
      intro ancestors
      exact List.Perm.nil
  | cons node nodes hchildren hnodes =>
      intro ancestors
      have hbelow := hchildren (node :: ancestors)
      have hothers := hnodes ancestors
      rw [registrationsAll_cons, declarationsIn_cons, scopeOwnersAll_cons]
      simp only [declaredBelow, List.flatMap_append, List.map_append] at hbelow hothers ⊢
      rw [List.perm_iff_count] at hbelow hothers ⊢
      intro registration
      have hbelow := hbelow registration
      have hothers := hothers registration
      cases hown : node.tag.hasOwnScope with
      | true =>
          rw [enclosing_cons_own hown] at hbelow
          simp only [List.count_append, if_true, List.flatMap_cons, List.flatMap_nil,
            List.map_nil, List.count_nil] at hbelow hothers ⊢
          omega
      | false =>
          rw [enclosing_cons_other hown] at hbelow
          simp only [List.count_append, Bool.false_eq_true, if_false, List.flatMap_nil,
            List.count_nil] at hbelow hothers ⊢
          omega

end Node

/-- The names bound in an arena, each with the scope that binds it. -/
def Arena.registrations (arena : Arena) : List (Option ScopeId × String × Tag × Span) :=
  arena.toList.flatMap fun entry => entry.2.declared.map (some entry.1, ·)

namespace Node

theorem declaredBelow_of_openedBy {around : Option ScopeId} {owners : List (List Node × Node)}
    {opened : List (ScopeId × Scope)} (hopened : List.Forall₂ (OpenedBy around) owners opened) :
    declaredBelow owners = opened.flatMap fun entry => entry.2.declared.map (some entry.1, ·) := by
  induction hopened with
  | nil => rfl
  | cons hfirst _ ih =>
      rw [declaredBelow, List.flatMap_cons, List.flatMap_cons, hfirst.noted, hfirst.declared]
      exact congrArg _ ih

/-- Every declared name of a bound tree is bound once, in the scope around its declaration. -/
theorem registrations_perm {root : Node} (hbound : root.IsBound) :
    root.scopeArena.registrations.Perm root.registrations := by
  have hperm := registrationsAll_perm root.around [root] []
  have hroot : registrationsAll root.around [] [root] = root.registrations := by
    simp [registrationsAll, registrations, lineageAll, lineage]
  have hopened := declaredBelow_of_openedBy (openedBy_scopeArena hbound)
  rw [hroot, scopeOwnersAll_singleton, hopened] at hperm
  refine List.Perm.trans (List.Perm.of_eq ?_) hperm.symm
  cases hown : root.tag.hasOwnScope with
  | true =>
      -- a root that opens a scope declares nothing, so nothing is outside its scope
      have hnone : declarationsIn [root] = [] := by
        rw [declarationsIn_cons, if_pos hown, declarations_of_hasOwnScope hown]
        rfl
      simp [hnone, openedBefore, hown, Arena.registrations]
  | false =>
      have hground : root.ground = [root] := by
        simp [ground, hown]
      rw [Arena.registrations, toList_scopeArena, List.flatMap_cons, declared_outermost, hground]
      simp [openedBefore, hown, around, enclosing]

theorem exists_scopeOwners_getElem? {root owner : Node} (hmem : owner ∈ root.toList)
    (hown : owner.tag.hasOwnScope = true) :
    ∃ (index : Nat) (ancestors : List Node),
      root.scopeOwners[index]? = some (ancestors, owner) := by
  rw [← map_snd_lineage] at hmem
  obtain ⟨⟨ancestors, node⟩, hentry, rfl⟩ := List.mem_map.mp hmem
  have howner : (ancestors, node) ∈ root.scopeOwners := List.mem_filter.mpr ⟨hentry, hown⟩
  obtain ⟨index, hindex⟩ := List.mem_iff_getElem?.mp howner
  exact ⟨index, ancestors, hindex⟩

end Node

/-! ## Normalized trees -/

/-- The trees that stand in a scope of a normalized tree. -/
inductive CanonicalTree.Covers (tree : CanonicalTree) : ScopeId → List Node → Prop where
  /-- The scope of a node covers what is below that node. -/
  | below {owner : Node} {id : ScopeId} (hmem : owner ∈ tree.root.toList)
      (hown : owner.tag.hasOwnScope = true) (hscope : owner.scope = some id) :
      Covers tree id owner.children
  /-- The scope that is opened for a root without one covers the root too. -/
  | outermost (hown : tree.root.tag.hasOwnScope = false) :
      Covers tree (.ofNumber 0) [tree.root]

namespace CanonicalTree

variable {tree : CanonicalTree} {id : ScopeId} {scope : Scope} {nodes : List Node}

theorem exists_covers (hbound : tree.root.IsBound)
    (hscope : tree.root.scopeArena.get? id = some scope) : ∃ nodes, tree.Covers id nodes := by
  obtain ⟨number, rfl, _⟩ := Arena.get?_eq_some_iff.mp hscope
  by_cases hnumber : tree.root.openedBefore ≤ number
  · obtain ⟨index, rfl⟩ := Nat.exists_eq_add_of_le' hnumber
    obtain ⟨entry, hentry, hopened⟩ := Node.exists_scopeOwner hbound hscope
    obtain ⟨hlineage, hown⟩ := List.mem_filter.mp hentry
    have hmem : entry.2 ∈ tree.root.toList := by
      rw [← Node.map_snd_lineage]
      exact List.mem_map_of_mem hlineage
    exact ⟨_, .below hmem hown hopened.noted⟩
  · have hzero : number = 0 ∧ tree.root.tag.hasOwnScope = false := by
      simp only [Node.openedBefore] at hnumber
      split at hnumber <;> simp_all
    rw [hzero.1]
    exact ⟨_, .outermost hzero.2⟩

theorem Covers.declared (hbound : tree.root.IsBound) (hcovers : tree.Covers id nodes) :
    ∃ scope, tree.root.scopeArena.get? id = some scope ∧
      scope.declared = Node.declarationsIn nodes := by
  cases hcovers with
  | below hmem hown hscope =>
      obtain ⟨index, ancestors, hentry⟩ := Node.exists_scopeOwners_getElem? hmem hown
      obtain ⟨scope, hget, hopened⟩ := Node.exists_openedBy hbound hentry
      have hid := hscope.symm.trans hopened.noted
      cases hid
      exact ⟨scope, hget, hopened.declared⟩
  | outermost hown =>
      refine ⟨tree.root.outermost, rfl, ?_⟩
      rw [Node.declared_outermost, Node.ground, hown]
      rfl

end CanonicalTree

namespace Normalizer

variable {normalizer : Normalizer} {root : Node} {tree : CanonicalTree}

/-- The scopes of a normalized tree bind exactly the names declared in the part of the tree that
they cover, in the order of the listing; over all scopes, these are the declared names of the tree,
each once and in the innermost scope around its declaration. -/
theorem normalize_declared (hbind : normalizer.config.bindScopes = true)
    (hok : normalizer.normalize root = .ok tree) :
    (∀ id scope, tree.scopes.get? id = some scope → ∃ nodes, tree.Covers id nodes) ∧
      (∀ id nodes, tree.Covers id nodes →
        ∃ scope, tree.scopes.get? id = some scope ∧
          scope.declared = Node.declarationsIn nodes) ∧
      tree.scopes.registrations.Perm tree.root.registrations := by
  obtain ⟨hscopes, hbound⟩ := scopes_of_normalize hbind hok
  rw [hscopes]
  refine ⟨?_, ?_, ?_⟩
  · intro id scope hscope
    exact CanonicalTree.exists_covers hbound hscope
  · intro id nodes hcovers
    exact hcovers.declared hbound
  · exact Node.registrations_perm hbound

/-- The package is bound in the scope of the whole tree, and both names of the declaration in the
inner block in the scope of that block. -/
theorem normalize_declared_mixedUnit :
    ∃ tree, (⟨.java, {}⟩ : Normalizer).normalize mixedUnit = .ok tree ∧
      (∃ scope, tree.Covers (.ofNumber 0) [tree.root] ∧
        tree.scopes.get? (.ofNumber 0) = some scope ∧
        scope.declared = [("p", .shared .decl, ⟨0, 9, 1, 1⟩)]) ∧
      (∃ nodes scope, tree.Covers (.ofNumber 2) nodes ∧
        tree.scopes.get? (.ofNumber 2) = some scope ∧
        scope.declared =
          [("y", .shared .decl, ⟨22, 30, 3, 5⟩), ("z", .shared .decl, ⟨22, 30, 3, 5⟩)]) ∧
      tree.scopes.registrations.Perm
        [(some (.ofNumber 0), "p", .shared .decl, ⟨0, 9, 1, 1⟩),
          (some (.ofNumber 1), "x", .shared .decl, ⟨12, 13, 2, 3⟩),
          (some (.ofNumber 2), "y", .shared .decl, ⟨22, 30, 3, 5⟩),
          (some (.ofNumber 2), "z", .shared .decl, ⟨22, 30, 3, 5⟩)] := by
  have htest : ((⟨.java, {}⟩ : Normalizer).normalize mixedUnit).toOption.any (fun tree => decide
      (tree.root.tag.hasOwnScope = false ∧
        Node.declarationsIn [tree.root] = [("p", .shared .decl, ⟨0, 9, 1, 1⟩)] ∧
        (∃ owner ∈ tree.root.toList, owner.tag.hasOwnScope = true ∧
          owner.scope = some (.ofNumber 2) ∧ Node.declarationsIn owner.children =
            [("y", .shared .decl, ⟨22, 30, 3, 5⟩), ("z", .shared .decl, ⟨22, 30, 3, 5⟩)]) ∧
        tree.root.registrations =
          [(some (.ofNumber 0), "p", .shared .decl, ⟨0, 9, 1, 1⟩),
            (some (.ofNumber 1), "x", .shared .decl, ⟨12, 13, 2, 3⟩),
            (some (.ofNumber 2), "y", .shared .decl, ⟨22, 30, 3, 5⟩),
            (some (.ofNumber 2), "z", .shared .decl, ⟨22, 30, 3, 5⟩)])) = true := by
    decide +kernel
  obtain ⟨tree, hok, htree⟩ := exists_normalize_of_any htest
  obtain ⟨hroot, hpackage, ⟨owner, hmem, hown, hscope, hinner⟩, hnames⟩ := of_decide_eq_true htree
  obtain ⟨-, hcovered, hperm⟩ := normalize_declared rfl hok
  have houtermost : tree.Covers (.ofNumber 0) [tree.root] := .outermost hroot
  have hbelow : tree.Covers (.ofNumber 2) owner.children := .below hmem hown hscope
  obtain ⟨outer, houter, hdeclaredOuter⟩ := hcovered _ _ houtermost
  obtain ⟨inner, hget, hdeclaredInner⟩ := hcovered _ _ hbelow
  exact ⟨tree, hok, ⟨outer, houtermost, houter, hdeclaredOuter.trans hpackage⟩,
    ⟨_, inner, hbelow, hget, hdeclaredInner.trans hinner⟩, hnames ▸ hperm⟩

end Normalizer

end CanonTree
