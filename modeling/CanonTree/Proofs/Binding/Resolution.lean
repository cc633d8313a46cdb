import CanonTree.Proofs.Binding.Declarations
import CanonTree.Proofs.Binding.Nesting

/-!
# Names are resolved as the tree is nested

From a scope outwards, the parents in the arena of a normalized tree are the scopes of the
nodes on the path from the node that opened it up to the root, and last the scope around
the whole tree, if there is one.  A scope binds a name exactly if the name is declared
directly in it.  So a name is resolved to the innermost scope around that has a
declaration of it, and to none if there is no such declaration on the way.
-/

namespace CanonTree

namespace Node

/-! ## The path to the root -/

/-- Above a forest or inside of it, the nearest ancestor of a node is listed with its own
ancestors. -/
theorem parent_mem_lineageAll (nodes : List Node) :
    ∀ {base ancestors : List Node} {parent node : Node},
      (parent :: ancestors, node) ∈ lineageAll base nodes →
        parent :: ancestors = base ∨ (ancestors, parent) ∈ lineageAll base nodes := by
  induction nodes using forest_induction with
  | nil =>
      intro base ancestors parent node hmem
      cases hmem
  | cons first others hchildren hothers =>
      intro base ancestors parent node hmem
      rw [lineageAll, lineageBelow_eq, List.cons_append, List.mem_cons, List.mem_append] at hmem ⊢
      obtain hroot | hbelow | hlater := hmem
      · exact .inl (Prod.mk.inj hroot).1
      · obtain heq | hinside := hchildren hbelow
        · cases heq
          exact .inr (.inl rfl)
        · exact .inr (.inr (.inl hinside))
      · exact (hothers hlater).imp_right fun hinside => .inr (.inr hinside)

theorem parent_mem_lineage {root parent node : Node} {ancestors : List Node}
    (hmem : (parent :: ancestors, node) ∈ root.lineage) : (ancestors, parent) ∈ root.lineage := by
  have hforest : root.lineage = lineageAll [] [root] := by
    simp [lineage, lineageAll]
  rw [hforest] at hmem ⊢
  exact (parent_mem_lineageAll [root] hmem).resolve_left (List.cons_ne_nil _ _)

/-- A path from a node of a tree up to its root, the nearest node first. -/
def IsPath (root : Node) : List Node → Prop
  | [] => True
  | node :: ancestors => (ancestors, node) ∈ root.lineage

theorem IsPath.tail {root node : Node} {ancestors : List Node}
    (hpath : root.IsPath (node :: ancestors)) : root.IsPath ancestors := by
  cases ancestors with
  | nil => trivial
  | cons parent ancestors => exact parent_mem_lineage hpath

/-- The scopes of the nodes on a path that open one, and then the one around the whole tree. -/
def scopesAlong (around : Option ScopeId) (path : List Node) : List ScopeId :=
  (path.filter (·.tag.hasOwnScope)).filterMap (·.scope) ++ around.toList

theorem scopesAlong_cons_own {node : Node} {id : ScopeId} (hown : node.tag.hasOwnScope = true)
    (hscope : node.scope = some id) (around : Option ScopeId) (path : List Node) :
    scopesAlong around (node :: path) = id :: scopesAlong around path := by
  simp [scopesAlong, hown, hscope]

theorem scopesAlong_cons_other {node : Node} (hown : node.tag.hasOwnScope = false)
    (around : Option ScopeId) (path : List Node) :
    scopesAlong around (node :: path) = scopesAlong around path := by
  simp [scopesAlong, hown]

theorem exists_openedBy_of_mem {root node : Node} {ancestors : List Node} (hbound : root.IsBound)
    (hmem : (ancestors, node) ∈ root.lineage) (hown : node.tag.hasOwnScope = true) :
    ∃ id scope, root.scopeArena.get? id = some scope ∧
      OpenedBy root.around (ancestors, node) (id, scope) := by
  have howner : (ancestors, node) ∈ root.scopeOwners := List.mem_filter.mpr ⟨hmem, hown⟩
  obtain ⟨index, hindex⟩ := List.mem_iff_getElem?.mp howner
  obtain ⟨scope, hscope, hopened⟩ := exists_openedBy hbound hindex
  exact ⟨_, scope, hscope, hopened⟩

theorem leads_around {root : Node} {id : ScopeId} (haround : root.around = some id) :
    root.scopeArena.Leads id [id] := by
  rw [around] at haround
  split at haround
  · cases haround
  · cases haround
    exact @Arena.Leads.last root.scopeArena _ root.outermost rfl rfl

/-- The innermost scope along a path leads through all others, and there is none only if the path
has none. -/
theorem leads_enclosing {root : Node} (hbound : root.IsBound) (path : List Node) :
    root.IsPath path →
      (enclosing root.around path = none ∧ scopesAlong root.around path = []) ∨
      ∃ id, enclosing root.around path = some id ∧
        root.scopeArena.Leads id (scopesAlong root.around path) := by
  induction path with
  | nil =>
      intro _
      cases haround : root.around with
      | none => exact .inl ⟨rfl, rfl⟩
      | some id => exact .inr ⟨id, rfl, leads_around haround⟩
  | cons node ancestors ih =>
      intro hpath
      cases hown : node.tag.hasOwnScope with
      | false =>
          rw [enclosing_cons_other hown, scopesAlong_cons_other hown]
          exact ih hpath.tail
      | true =>
          obtain ⟨id, scope, hscope, hopened⟩ := exists_openedBy_of_mem hbound hpath hown
          rw [enclosing_cons_own hown, hopened.noted, scopesAlong_cons_own hown hopened.noted]
          refine .inr ⟨id, rfl, ?_⟩
          obtain ⟨hnone, hempty⟩ | ⟨parent, hparent, hleads⟩ := ih hpath.tail
          · rw [hempty]
            exact .last hscope (hopened.parent.trans hnone)
          · exact .step hscope (hopened.parent.trans hparent) hleads

theorem nested_scopeArena (root : Node) : root.scopeArena.Nested := by
  rw [← (BindingState.run_eq root).2]
  exact (BindingState.sound_run root).nested

/-! ## Names declared in a scope -/

/-- The name is declared in the tree, and the innermost scope around the declaration is the one
named. -/
def DeclaresIn (root : Node) (id : ScopeId) (name : String) : Prop :=
  ∃ ancestors node, (ancestors, node) ∈ root.lineage ∧ node.tag.isDecl = true ∧
    name ∈ node.boundNames ∧ enclosing root.around ancestors = some id

theorem mem_declarations_iff {node : Node} {name : String} {tag : Tag} {span : Span} :
    (name, tag, span) ∈ node.declarations ↔
      node.tag.isDecl = true ∧ name ∈ node.boundNames ∧ node.tag = tag ∧ node.span = span := by
  rw [declarations]
  cases node.tag.isDecl <;> simp

theorem declaresIn_iff_registrations {root : Node} {id : ScopeId} {name : String} :
    root.DeclaresIn id name ↔ ∃ tag span, (some id, name, tag, span) ∈ root.registrations := by
  simp only [registrations, List.mem_flatMap, List.mem_map]
  constructor
  · rintro ⟨ancestors, node, hmem, hdecl, hname, hscope⟩
    refine ⟨node.tag, node.span, (ancestors, node), hmem, (name, node.tag, node.span), ?_, ?_⟩
    · exact mem_declarations_iff.mpr ⟨hdecl, hname, rfl, rfl⟩
    · rw [hscope]
  · rintro ⟨tag, span, ⟨ancestors, node⟩, hmem, declaration, hdeclaration, heq⟩
    obtain ⟨hscope, rfl⟩ := Prod.mk.inj heq
    obtain ⟨hdecl, hname, -, -⟩ := mem_declarations_iff.mp hdeclaration
    exact ⟨ancestors, node, hmem, hdecl, hname, hscope⟩

end Node

namespace Arena

theorem mem_toList_iff {arena : Arena} {id : ScopeId} {scope : Scope} :
    (id, scope) ∈ arena.toList ↔ arena.get? id = some scope := by
  rw [List.mem_iff_getElem?, get?_eq_some_iff]
  simp only [getElem?_toList, Option.map_eq_some_iff, Prod.mk.injEq, get?_ofNumber]
  constructor
  · rintro ⟨number, found, hfound, rfl, rfl⟩
    exact ⟨number, rfl, hfound⟩
  · rintro ⟨number, rfl, hfound⟩
    exact ⟨number, scope, hfound, rfl, rfl⟩

theorem binds_iff_declared {scope : Scope} {name : String} :
    scope.binds name = true ↔ ∃ tag span, (name, tag, span) ∈ scope.declared := by
  simp only [Scope.binds, Scope.declared, List.any_eq_true, List.mem_map, beq_iff_eq]
  constructor
  · rintro ⟨binding, hmem, rfl⟩
    exact ⟨binding.tag, binding.span, binding, hmem, rfl⟩
  · rintro ⟨tag, span, binding, hmem, heq⟩
    exact ⟨binding, hmem, (Prod.mk.inj heq).1⟩

theorem bindsAt_iff_registrations {arena : Arena} {id : ScopeId} {name : String} :
    arena.bindsAt name id = true ↔
      ∃ tag span, (some id, name, tag, span) ∈ arena.registrations := by
  simp only [registrations, List.mem_flatMap, List.mem_map, bindsAt, Option.any_eq_true,
    binds_iff_declared, ← mem_toList_iff]
  constructor
  · rintro ⟨scope, hscope, tag, span, hmem⟩
    exact ⟨tag, span, (id, scope), hscope, _, hmem, rfl⟩
  · rintro ⟨tag, span, ⟨other, scope⟩, hscope, declaration, hmem, heq⟩
    obtain ⟨hid, rfl⟩ := Prod.mk.inj heq
    cases hid
    exact ⟨scope, hscope, tag, span, hmem⟩

end Arena

/-- A scope of a bound tree binds exactly the names that are declared directly in it. -/
theorem Node.bindsAt_scopeArena_iff {root : Node} (hbound : root.IsBound) {id : ScopeId}
    {name : String} : root.scopeArena.bindsAt name id = true ↔ root.DeclaresIn id name := by
  rw [Arena.bindsAt_iff_registrations, declaresIn_iff_registrations]
  exact exists₂_congr fun _ _ => (registrations_perm hbound).mem_iff

/-! ## Normalized trees -/

/-- The scopes around a scope of a normalized tree, itself first. -/
inductive CanonicalTree.Surrounds (tree : CanonicalTree) : ScopeId → List ScopeId → Prop where
  /-- Around the scope of a node there are those of its ancestors that open one, and the one that
  is opened for a root without a scope. -/
  | owner {ancestors : List Node} {node : Node} {id : ScopeId}
      (hmem : (ancestors, node) ∈ tree.root.lineage) (hown : node.tag.hasOwnScope = true)
      (hscope : node.scope = some id) :
      Surrounds tree id (Node.scopesAlong tree.root.around (node :: ancestors))
  /-- There is nothing around the scope that is opened for a root without one. -/
  | outermost {id : ScopeId} (haround : tree.root.around = some id) : Surrounds tree id [id]

namespace CanonicalTree

variable {tree : CanonicalTree} {id : ScopeId} {path : List ScopeId}

theorem Surrounds.leads (hbound : tree.root.IsBound) (hpath : tree.Surrounds id path) :
    tree.root.scopeArena.Leads id path := by
  cases hpath with
  | @owner ancestors node id hmem hown hscope =>
      have henclosing : enclosing tree.root.around (node :: ancestors) = some id := by
        rw [Node.enclosing_cons_own hown, hscope]
      obtain ⟨hnone, -⟩ | ⟨inner, hinner, hleads⟩ :=
        Node.leads_enclosing hbound (node :: ancestors) hmem
      · rw [henclosing] at hnone
        cases hnone
      · rw [henclosing] at hinner
        cases hinner
        exact hleads
  | outermost haround => exact Node.leads_around haround

theorem exists_surrounds (hbound : tree.root.IsBound) {scope : Scope}
    (hscope : tree.root.scopeArena.get? id = some scope) : ∃ path, tree.Surrounds id path := by
  obtain ⟨number, rfl, _⟩ := Arena.get?_eq_some_iff.mp hscope
  by_cases hnumber : tree.root.openedBefore ≤ number
  · obtain ⟨index, rfl⟩ := Nat.exists_eq_add_of_le' hnumber
    obtain ⟨entry, hentry, hopened⟩ := Node.exists_scopeOwner hbound hscope
    obtain ⟨hmem, hown⟩ := List.mem_filter.mp hentry
    exact ⟨_, .owner hmem hown hopened.noted⟩
  · have haround : tree.root.around = some (.ofNumber number) := by
      simp only [Node.openedBefore, Node.around] at hnumber ⊢
      split at hnumber
      · omega
      · rename_i hown
        rw [if_neg hown, Nat.lt_one_iff.mp (Nat.lt_of_not_le hnumber)]
    exact ⟨_, .outermost haround⟩

end CanonicalTree

namespace Normalizer

variable {normalizer : Normalizer} {root : Node} {tree : CanonicalTree}

/-- If names are bound, the walk outwards from a scope of a normalized tree ends, visits no scope
twice, and visits the scopes of the nodes above the one that opened the scope.  A name is resolved
to the first of them that has a declaration of the name directly in it, and it is unbound if none
of them has. -/
theorem normalize_resolves (hbind : normalizer.config.bindScopes = true)
    (hok : normalizer.normalize root = .ok tree) :
    (∀ id scope, tree.scopes.get? id = some scope → ∃ path, tree.Surrounds id path) ∧
    ∀ id path, tree.Surrounds id path →
      (∀ limit, tree.scopes.ancestors limit id = path.take limit) ∧ path.Nodup ∧
      ∀ name,
        (∀ found, tree.scopes.resolve id name = .found found ↔
          ∃ inner outer, path = inner ++ found :: outer ∧ tree.root.DeclaresIn found name ∧
            ∀ nearer ∈ inner, ¬tree.root.DeclaresIn nearer name) ∧
        (tree.scopes.resolve id name = .unbound ↔
          ∀ around ∈ path, ¬tree.root.DeclaresIn around name) := by
  obtain ⟨hscopes, hbound⟩ := scopes_of_normalize hbind hok
  have hnested := tree.root.nested_scopeArena
  rw [hscopes]
  refine ⟨fun id scope => CanonicalTree.exists_surrounds hbound, ?_⟩
  intro id path hpath
  have hleads := hpath.leads hbound
  refine ⟨hleads.ancestors_eq, hleads.nodup hnested, ?_⟩
  intro name
  simp only [← Node.bindsAt_scopeArena_iff hbound]
  exact ⟨fun found => hleads.resolve_eq_found_iff hnested, hleads.resolve_eq_unbound_iff hnested⟩

/-- A block inside another, below a root that opens no scope; two of the three scopes declare the
same name. -/
def shadowingUnit : Node :=
  .branch .list ⟨0, 40, 1, 1⟩
    [(Node.leaf .decl ⟨0, 9, 1, 1⟩).withText "x",
      .branch .block ⟨10, 40, 2, 1⟩
        [(Node.leaf .decl ⟨12, 13, 2, 3⟩).withText "y",
          .branch .block ⟨20, 38, 3, 3⟩ [(Node.leaf .decl ⟨22, 30, 3, 5⟩).withText "x"]]]

theorem normalize_resolves_shadowingUnit :
    ∃ tree, (⟨.java, {}⟩ : Normalizer).normalize shadowingUnit = .ok tree ∧
      ∃ path, tree.Surrounds (.ofNumber 2) path ∧
        (∀ limit, tree.scopes.ancestors limit (.ofNumber 2) = path.take limit) ∧ path.Nodup ∧
        (∃ inner outer, path = inner ++ .ofNumber 1 :: outer ∧
          tree.root.DeclaresIn (.ofNumber 1) "y" ∧
          ∀ nearer ∈ inner, ¬tree.root.DeclaresIn nearer "y") ∧
        ∀ around ∈ path, ¬tree.root.DeclaresIn around "z" := by
  have htest : ((⟨.java, {}⟩ : Normalizer).normalize shadowingUnit).toOption.any (fun tree =>
      (tree.scopes.get? (.ofNumber 2)).isSome &&
        (decide (tree.scopes.resolve (.ofNumber 2) "y" = .found (.ofNumber 1)) &&
          decide (tree.scopes.resolve (.ofNumber 2) "z" = .unbound))) = true := by
    decide +kernel
  obtain ⟨tree, hok, hresolved⟩ := exists_normalize_of_any htest
  simp only [Bool.and_eq_true, decide_eq_true_eq, Option.isSome_iff_exists] at hresolved
  obtain ⟨⟨scope, hscope⟩, hinner, hunbound⟩ := hresolved
  obtain ⟨hpaths, hresolves⟩ := normalize_resolves rfl hok
  obtain ⟨path, hpath⟩ := hpaths _ scope hscope
  obtain ⟨hancestors, hnodup, hnames⟩ := hresolves _ path hpath
  exact ⟨tree, hok, path, hpath, hancestors, hnodup, ((hnames "y").1 _).mp hinner,
    (hnames "z").2.mp hunbound⟩

end Normalizer

end CanonTree
