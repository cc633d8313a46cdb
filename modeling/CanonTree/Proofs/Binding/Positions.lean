import CanonTree.Proofs.Binding.Declarations

/-!
# Bindings stand for the nodes at their positions

The binding walk counts the nodes that it enters and writes the count into each binding;
whoever looks a declaration up counts along another listing.  The two agree: the bindings
with the position of a declaration are the names of that declaration, all in one scope and
in order, and no binding has any other position.
-/

namespace CanonTree

/-- The bindings that stand for the node at one position, in registration order. -/
def Scope.bindingsAt (scope : Scope) (position : Nat) : List Binding :=
  scope.bindings.toList.filter (·.node == position)

/-- The bindings that stand for the node at one position over all scopes, in opening and then
registration order. -/
def Arena.bindingsAt (arena : Arena) (position : Nat) : List (ScopeId × Binding) :=
  arena.toList.flatMap fun entry => (entry.2.bindingsAt position).map (entry.1, ·)

theorem Arena.mem_bindingsAt {arena : Arena} {id : ScopeId} {scope : Scope} {binding : Binding}
    (hscope : arena.get? id = some scope) (hbinding : binding ∈ scope.bindings) :
    (id, binding) ∈ arena.bindingsAt binding.node := by
  obtain ⟨number, rfl, -⟩ := get?_eq_some_iff.mp hscope
  have hentry : arena.toList[number]? = some (.ofNumber number, scope) := by
    rw [getElem?_toList, hscope]
    rfl
  refine List.mem_flatMap.mpr ⟨_, List.mem_of_getElem? hentry, List.mem_map_of_mem ?_⟩
  exact List.mem_filter.mpr ⟨Array.mem_toList_iff.mpr hbinding, beq_self_eq_true _⟩

/-! ## Bindings along a listing -/

namespace Node

/-- The bindings of all names that are declared along a listing, if its first node has the given
position. -/
def declaredAlong (start : Nat) (listing : List Node) : List Binding :=
  (listing.zipIdx start).flatMap fun entry => entry.1.declaredAt entry.2

theorem declaredAlong_cons (start : Nat) (node : Node) (listing : List Node) :
    declaredAlong start (node :: listing) =
      node.declaredAt start ++ declaredAlong (start + 1) listing :=
  rfl

theorem declaredAlong_append (start : Nat) (first others : List Node) :
    declaredAlong start (first ++ others) =
      declaredAlong start first ++ declaredAlong (start + first.length) others := by
  rw [declaredAlong, List.zipIdx_append, List.flatMap_append]
  rfl

theorem mem_declaredAt {node : Node} {position : Nat} {binding : Binding}
    (hbinding : binding ∈ node.declaredAt position) :
    node.tag.isDecl = true ∧ binding.name ∈ node.boundNames ∧
      binding = ⟨binding.name, node.tag, node.span, position⟩ := by
  rw [declaredAt] at hbinding
  split at hbinding
  · rename_i hdecl
    obtain ⟨name, hname, rfl⟩ := List.mem_map.mp hbinding
    exact ⟨hdecl, hname, rfl⟩
  · cases hbinding

theorem node_of_mem_declaredAt {node : Node} {position : Nat} {binding : Binding}
    (hbinding : binding ∈ node.declaredAt position) : binding.node = position :=
  congrArg Binding.node (mem_declaredAt hbinding).2.2

theorem filter_declaredAt (node : Node) (position : Nat) :
    (node.declaredAt position).filter (·.node == position) = node.declaredAt position := by
  apply List.filter_eq_self.mpr
  intro binding hbinding
  exact beq_iff_eq.mpr (node_of_mem_declaredAt hbinding)

theorem filter_declaredAt_of_ne (node : Node) {start position : Nat} (hne : start ≠ position) :
    (node.declaredAt start).filter (·.node == position) = [] := by
  apply List.filter_eq_nil_iff.mpr
  intro binding hbinding
  rw [node_of_mem_declaredAt hbinding, beq_iff_eq]
  exact hne

/-- Outside a listing nothing is declared along it. -/
theorem filter_declaredAlong_eq_nil {start position : Nat} {listing : List Node}
    (houtside : position < start ∨ start + listing.length ≤ position) :
    (declaredAlong start listing).filter (·.node == position) = [] := by
  rw [declaredAlong, List.filter_flatMap, List.flatMap_eq_nil_iff]
  intro entry hentry
  apply filter_declaredAt_of_ne
  have hbounds := List.mem_zipIdx hentry
  omega

theorem filter_declaredAlong_of_getElem? (start : Nat) {offset : Nat} {listing : List Node}
    {node : Node} (hnode : listing[offset]? = some node) :
    (declaredAlong start listing).filter (·.node == start + offset) =
      node.declaredAt (start + offset) := by
  induction listing generalizing start offset with
  | nil => cases hnode
  | cons first listing ih =>
      rw [declaredAlong_cons, List.filter_append]
      cases offset with
      | zero =>
          rw [List.getElem?_cons_zero, Option.some.injEq] at hnode
          rw [Nat.add_zero, filter_declaredAt, filter_declaredAlong_eq_nil (.inl (by omega)),
            List.append_nil, hnode]
      | succ offset =>
          rw [filter_declaredAt_of_ne first (by omega), List.nil_append, Nat.add_comm offset,
            ← Nat.add_assoc]
          exact ih (start + 1) hnode

end Node

/-! ## Bindings of a walk -/

namespace Gain

/-- What a walk inside the scope `parent` registers for one position, in that scope and in those
that it opens from `number` on. -/
def bindingsAt (gain : Gain) (position : Nat) (parent : ScopeId) (number : Nat) :
    List (ScopeId × Binding) :=
  (gain.bindings.filter (·.node == position)).map (parent, ·) ++
    (numbered number gain.opened).flatMap fun entry =>
      (entry.2.bindingsAt position).map (entry.1, ·)

/-- Two walks of which only one comes by a position register all names there in one scope if each
of them does. -/
theorem exists_bindingsAt_append {first others : Gain} {position number : Nat} {parent : ScopeId}
    {here there : List Binding}
    (hfirst : ∃ id, first.bindingsAt position parent number = here.map (id, ·))
    (hothers : ∃ id, others.bindingsAt position parent (number + first.opened.length) =
      there.map (id, ·))
    (hone : here = [] ∨ there = []) :
    ∃ id, (first ++ others).bindingsAt position parent number = (here ++ there).map (id, ·) := by
  obtain ⟨id, hfirst⟩ := hfirst
  obtain ⟨other, hothers⟩ := hothers
  -- a walk with nothing at the position has nothing in the scope around it and nothing below
  rcases hone with rfl | rfl
  · obtain ⟨hbindings, hopened⟩ := List.append_eq_nil_iff.mp hfirst
    refine ⟨other, ?_⟩
    rw [bindingsAt, bindings_append, opened_append, numbered_append, List.filter_append,
      List.map_append, List.flatMap_append, hbindings, hopened]
    exact hothers
  · obtain ⟨hbindings, hopened⟩ := List.append_eq_nil_iff.mp hothers
    refine ⟨id, ?_⟩
    rw [bindingsAt, bindings_append, opened_append, numbered_append, List.filter_append,
      List.map_append, List.flatMap_append, hbindings, hopened, List.append_nil, List.append_nil,
      List.append_nil]
    exact hfirst

end Gain

namespace Node

variable {node : Node}

/-- A walk registers in one scope what is declared at any one position of the listing. -/
def RegistersTogether (nodes : List Node) : Prop :=
  ∀ (parent : ScopeId) (number start position : Nat),
    ∃ id, (gainAll parent number start nodes).bindingsAt position parent number =
      ((declaredAlong start (preorderAll nodes)).filter (·.node == position)).map (id, ·)

theorem exists_bindingsAt_gain (hchildren : RegistersTogether node.children) (parent : ScopeId)
    (number start position : Nat) :
    ∃ id, (node.gain parent number start).bindingsAt position parent number =
      ((declaredAlong start node.preorder).filter (·.node == position)).map (id, ·) := by
  rw [gain_eq, preorder_eq, declaredAlong_cons, List.filter_append]
  apply Gain.exists_bindingsAt_append
  · exact ⟨parent, List.append_nil _⟩
  · split
    · exact hchildren (.ofNumber number) (number + 1) (start + 1) position
    · exact hchildren parent number (start + 1) position
  · by_cases hposition : start = position
    · exact .inr (filter_declaredAlong_eq_nil (.inl (by omega)))
    · exact .inl (filter_declaredAt_of_ne node hposition)

theorem registersTogether (nodes : List Node) : RegistersTogether nodes := by
  induction nodes using forest_induction with
  | nil =>
      intro parent number start position
      exact ⟨parent, rfl⟩
  | cons node nodes hchildren hnodes =>
      intro parent number start position
      rw [gainAll, preorderAll, declaredAlong_append, List.filter_append, length_preorder]
      apply Gain.exists_bindingsAt_append
      · exact exists_bindingsAt_gain hchildren parent number start position
      · rw [length_opened_gain]
        exact hnodes parent _ _ position
      · by_cases hposition : position < start + node.size
        · exact .inr (filter_declaredAlong_eq_nil (.inl hposition))
        · refine .inl (filter_declaredAlong_eq_nil (.inr ?_))
          rw [length_preorder]
          omega

/-! ## The arena of a tree -/

theorem bindingsAt_scopeArena (root : Node) (position : Nat) :
    root.scopeArena.bindingsAt position =
      root.outermostGain.bindingsAt position (.ofNumber 0) 1 :=
  rfl

/-- Over the whole arena, the bindings of one position are what is declared there, all in one
scope. -/
theorem exists_bindingsAt (root : Node) (position : Nat) :
    ∃ id, root.scopeArena.bindingsAt position =
      ((declaredAlong 0 root.toList).filter (·.node == position)).map (id, ·) := by
  rw [bindingsAt_scopeArena, outermostGain, toList_eq_preorder]
  cases hown : root.tag.hasOwnScope with
  | true =>
      have hroot : root.declaredAt 0 = [] := by
        rw [← List.map_eq_nil_iff, declaration_declaredAt, declarations_of_hasOwnScope hown]
      rw [preorder_eq, declaredAlong_cons, hroot, List.nil_append]
      simp only [openedBefore, ground, hown, if_true]
      exact registersTogether root.children _ _ _ position
  | false =>
      rw [← preorderAll_singleton]
      simp only [openedBefore, ground, hown]
      exact registersTogether [root] _ _ _ position

theorem bindingsAt_of_getElem? {root node : Node} {position : Nat}
    (hnode : root.toList[position]? = some node) :
    ∃ id, root.scopeArena.bindingsAt position = (node.declaredAt position).map (id, ·) := by
  obtain ⟨id, hid⟩ := exists_bindingsAt root position
  have hdeclared := filter_declaredAlong_of_getElem? 0 hnode
  rw [Nat.zero_add] at hdeclared
  exact ⟨id, by rw [hid, hdeclared]⟩

theorem bindingsAt_eq_nil {root : Node} {position : Nat}
    (hnone : root.toList[position]? = none) : root.scopeArena.bindingsAt position = [] := by
  obtain ⟨id, hid⟩ := exists_bindingsAt root position
  rw [List.getElem?_eq_none_iff] at hnone
  rw [hid, filter_declaredAlong_eq_nil (.inr (by omega))]
  rfl

end Node

/-! ## Normalized trees -/

namespace Normalizer

variable {normalizer : Normalizer} {root : Node} {tree : CanonicalTree}

/-- Every binding of a normalized tree stands for a declaration of its name, with its tag and its
span, and is found back by its position.  The bindings with the position of a declaration are all
in one scope and bind exactly the names of the declaration, in order; no binding has
any other position. -/
theorem normalize_locates (hbind : normalizer.config.bindScopes = true)
    (hok : normalizer.normalize root = .ok tree) :
    (∀ id scope, tree.scopes.get? id = some scope → ∀ binding ∈ scope.bindings,
        ∃ node, tree.declaration? binding = some node ∧ node.tag.isDecl = true ∧
          node.tag = binding.tag ∧ node.span = binding.span ∧
          binding.name ∈ node.boundNames) ∧
      (∀ position node, tree.root.toList[position]? = some node → node.tag.isDecl = true →
        ∃ id, tree.scopes.bindingsAt position =
          node.boundNames.map fun name => (id, ⟨name, node.tag, node.span, position⟩)) ∧
      (∀ position,
        (∀ node, tree.root.toList[position]? = some node → node.tag.isDecl = false) →
          tree.scopes.bindingsAt position = []) := by
  obtain ⟨hscopes, -⟩ := scopes_of_normalize hbind hok
  rw [hscopes]
  refine ⟨?_, ?_, ?_⟩
  · intro id scope hscope binding hbinding
    have hmem := Arena.mem_bindingsAt hscope hbinding
    cases hnode : tree.root.toList[binding.node]? with
    | none =>
        rw [Node.bindingsAt_eq_nil hnode] at hmem
        cases hmem
    | some node =>
        obtain ⟨_, hdeclared⟩ := Node.bindingsAt_of_getElem? hnode
        rw [hdeclared] at hmem
        obtain ⟨_, hnamed, heq⟩ := List.mem_map.mp hmem
        cases heq
        obtain ⟨hdecl, hname, hbinding⟩ := Node.mem_declaredAt hnamed
        exact ⟨node, hnode, hdecl, (congrArg Binding.tag hbinding).symm,
          (congrArg Binding.span hbinding).symm, hname⟩
  · intro position node hnode hdecl
    obtain ⟨id, hdeclared⟩ := Node.bindingsAt_of_getElem? hnode
    refine ⟨id, ?_⟩
    rw [hdeclared, Node.declaredAt, if_pos hdecl, List.map_map]
    rfl
  · intro position hother
    cases hnode : tree.root.toList[position]? with
    | none => exact Node.bindingsAt_eq_nil hnode
    | some node =>
        obtain ⟨id, hdeclared⟩ := Node.bindingsAt_of_getElem? hnode
        rw [hdeclared, Node.declaredAt, hother node hnode]
        rfl

/-- What binds a name of the declaration in the inner block of `mixedUnit`. -/
def innerBinding (name : String) : Binding :=
  ⟨name, .shared .decl, ⟨22, 30, 3, 5⟩, 8⟩

/-- Both names are bound in the scope of the block and lead back to their declaration, and the block
itself has no binding. -/
theorem normalize_locates_mixedUnit :
    ∃ tree, (⟨.java, {}⟩ : Normalizer).normalize mixedUnit = .ok tree ∧
      (∃ scope node, tree.scopes.get? (.ofNumber 2) = some scope ∧
        scope.bindings = #[innerBinding "y", innerBinding "z"] ∧
        tree.declaration? (innerBinding "y") = some node ∧ node.tag.isDecl = true ∧
        node.tag = .shared .decl ∧ node.span = ⟨22, 30, 3, 5⟩ ∧ "y" ∈ node.boundNames) ∧
      tree.scopes.bindingsAt 8 =
        [(.ofNumber 2, innerBinding "y"), (.ofNumber 2, innerBinding "z")] ∧
      tree.scopes.bindingsAt 7 = [] := by
  have htest : ((⟨.java, {}⟩ : Normalizer).normalize mixedUnit).toOption.any (fun tree => decide
      ((tree.scopes.get? (.ofNumber 2)).map (·.bindings) =
          some #[innerBinding "y", innerBinding "z"] ∧
        tree.root.toList[8]?.map (fun node => (node.tag, node.span, node.boundNames)) =
          some (.shared .decl, ⟨22, 30, 3, 5⟩, ["y", "z"]) ∧
        tree.root.toList[7]?.map (·.tag) = some (.shared .block))) = true := by
    decide +kernel
  obtain ⟨tree, hok, htree⟩ := exists_normalize_of_any htest
  obtain ⟨hscope, hdeclaration, hblock⟩ := of_decide_eq_true htree
  obtain ⟨scope, hscope, hbindings⟩ := Option.map_eq_some_iff.mp hscope
  obtain ⟨declaration, hdeclaration, hfields⟩ := Option.map_eq_some_iff.mp hdeclaration
  obtain ⟨block, hblock, hother⟩ := Option.map_eq_some_iff.mp hblock
  obtain ⟨htag, hspan, hnames⟩ : declaration.tag = .shared .decl ∧
      declaration.span = ⟨22, 30, 3, 5⟩ ∧ declaration.boundNames = ["y", "z"] := by
    simpa only [Prod.mk.injEq] using hfields
  obtain ⟨hback, hthere, hnone⟩ := normalize_locates rfl hok
  have hbinding : innerBinding "y" ∈ scope.bindings := by
    simp [hbindings]
  refine ⟨tree, hok, ?_, ?_, ?_⟩
  · obtain ⟨node, hnode⟩ := hback _ scope hscope _ hbinding
    exact ⟨scope, node, hscope, hbindings, hnode⟩
  · obtain ⟨id, hid⟩ := hthere 8 declaration hdeclaration (by rw [htag]; rfl)
    rw [htag, hspan, hnames] at hid
    have hmem := Arena.mem_bindingsAt hscope hbinding
    rw [show (innerBinding "y").node = 8 from rfl, hid] at hmem
    have hsame : ScopeId.ofNumber 2 = id := by
      simpa [innerBinding] using hmem
    rw [hid, hsame]
    rfl
  · apply hnone
    intro node hnode
    cases hblock.symm.trans hnode
    rw [hother]
    rfl

end Normalizer

end CanonTree
