import CanonTree.Proofs.Binding.Counter
import CanonTree.Proofs.Binding.Declarations
import CanonTree.Proofs.Failure
import Mathlib.Algebra.BigOperators.Group.List.Basic
import Mathlib.Algebra.GroupWithZero.Nat

/-!
# What the counters count

The two walks of normalization count as they go: one the nodes that it enters, drops and
reduces, the other the scopes that it opens and the names that it binds.  Each counter is a
number that the trees have by themselves.  The first three are numbers of visible nodes of
the tree that was given; the other two are sums over the nodes of the tree that came out.
-/

namespace CanonTree

open Node

/-! ## Nodes that are reduced -/

namespace Reducing

variable {language : Language} {maxDepth : Nat} {before middle after : Tally} {node : Node}
  {entries others : List (List Node × Node)}

/-- The counters after some visible nodes: each was entered, the raw ones were reduced, and the
placeholders were dropped. -/
structure Tallied (before after : Tally) (entries : List (List Node × Node)) : Prop where
  visited : after.visited = before.visited + entries.length
  reduced : after.reduced = before.reduced + entries.countP (·.2.tag.isRaw)
  discarded : after.discarded = before.discarded + entries.countP (·.2.tag.isDiscarded)

theorem Tallied.append (hfirst : Tallied before middle entries)
    (hothers : Tallied middle after others) : Tallied before after (entries ++ others) where
  visited := by
    rw [hothers.visited, hfirst.visited, List.length_append, Nat.add_assoc]
  reduced := by
    rw [hothers.reduced, hfirst.reduced, List.countP_append, Nat.add_assoc]
  discarded := by
    rw [hothers.discarded, hfirst.discarded, List.countP_append, Nat.add_assoc]

/-- A placeholder is entered and dropped, and nothing below it is counted. -/
theorem tallied_dropped (hdiscarded : node.tag.isDiscarded = true) (ancestors : List Node) :
    Tallied before ⟨before.visited + 1, before.reduced, before.discarded + 1⟩
      [(ancestors, node)] where
  visited := rfl
  reduced := by
    simp [Tag.isRaw_of_isDiscarded hdiscarded]
  discarded := by
    simp [hdiscarded]

/-- A node that is not dropped is counted on entering it, and once more on leaving it if it is
raw. -/
theorem Tallied.settle {below results : List Node} (hvisible : node.tag.isDiscarded = false)
    (hbelow : Tallied { before with visited := before.visited + 1 } middle entries)
    (hsettle : Reducing.settle language middle { node with children := below } =
      (after, .ok results))
    (ancestors : List Node) : Tallied before after ((ancestors, node) :: entries) := by
  have hafter : after.visited = middle.visited ∧ after.discarded = middle.discarded ∧
      after.reduced = middle.reduced + if node.tag.isRaw then 1 else 0 := by
    obtain ⟨tag, htag, -, rfl⟩ | ⟨hkept, -, rfl⟩ := settle_ok hsettle
    · have hraw : node.tag.isRaw = true := by
        rw [show node.tag = .raw tag from htag]
        exact (Tag.flags_raw tag).1
      simp [hraw]
    · have hraw : node.tag.isRaw = false := Tag.isRaw_eq_false hkept
      simp [hraw]
  obtain ⟨hvisited, hdiscarded, hreduced⟩ := hafter
  constructor
  · rw [hvisited, hbelow.visited, List.length_cons, Nat.add_right_comm, Nat.add_assoc]
  · rw [hreduced, hbelow.reduced, List.countP_cons, Nat.add_assoc]
  · rw [hdiscarded, hbelow.discarded, List.countP_cons_of_neg (by simp [hvisible])]

/-- Reducing trees counts their visible nodes. -/
theorem tallied_reduceTrees (nodes : List Node) :
    ∀ {ancestors depth before after results},
      (∀ ancestor ∈ ancestors, ancestor.tag.isDiscarded = false) →
      reduceTrees language maxDepth depth before nodes = (after, .ok results) →
        Tallied before after (visibleAll ancestors nodes) := by
  induction nodes using forest_induction with
  | nil =>
      intro ancestors depth before after results _ hreduce
      cases hreduce
      exact ⟨rfl, rfl, rfl⟩
  | cons node nodes hchildren hnodes =>
      intro ancestors depth before after results hancestors hreduce
      obtain ⟨middle, first, others, hfirst, hothers, -⟩ := reduceTrees_cons_ok hreduce
      rw [visibleAll_cons hancestors, ← List.cons_append]
      refine Tallied.append ?_ (hnodes hancestors hothers)
      obtain ⟨-, ⟨hdiscarded, -, rfl⟩ | ⟨hvisible, _, below, hbelow, hsettle⟩⟩ :=
        reduceTree_ok hfirst
      · rw [if_pos hdiscarded]
        exact tallied_dropped hdiscarded ancestors
      · rw [hvisible, if_neg Bool.false_ne_true]
        have hinside := hchildren (List.forall_mem_cons.mpr ⟨hvisible, hancestors⟩) hbelow
        exact hinside.settle hvisible hsettle ancestors

theorem tallied_run {root reduced : Node} {state : Reducing}
    (hrun : run language maxDepth root = (state, .ok reduced)) :
    Tallied {} state.tally root.visible := by
  have hreduce := reduceTree_of_run hrun
  rw [← reduceTrees_singleton] at hreduce
  exact tallied_reduceTrees [root] (List.forall_mem_nil _) hreduce

end Reducing

/-! ## Scopes and names -/

namespace Node

variable {root : Node}

/-- A tree has a scope for each node that opens one, and one more if its root opens none. -/
theorem size_scopeArena_eq_countP (hbound : root.IsBound) :
    root.scopeArena.size =
      root.toList.countP (·.tag.hasOwnScope) + if root.tag.hasOwnScope then 0 else 1 := by
  have howners : root.scopeOwners.length = root.toList.countP (·.tag.hasOwnScope) := by
    rw [scopeOwners, ← List.countP_eq_length_filter, ← map_snd_lineage, List.countP_map]
    rfl
  rw [size_scopeArena hbound, howners, openedBefore]

theorem length_declarations (node : Node) :
    node.declarations.length = if node.tag.isDecl then node.boundNames.length else 0 := by
  rw [declarations]
  split
  · rw [List.length_map]
  · rfl

theorem length_registrations (root : Node) :
    root.registrations.length =
      ((root.toList.filter (·.tag.isDecl)).map (·.boundNames.length)).sum := by
  calc
    root.registrations.length = (root.lineage.map (·.2.declarations.length)).sum := by
      simp [registrations, List.length_flatMap]
    _ = (root.toList.map (·.declarations.length)).sum := by
      rw [← map_snd_lineage, List.map_map]
      rfl
    _ = ((root.toList.filter (·.tag.isDecl)).map (·.boundNames.length)).sum := by
      simp [length_declarations, List.sum_map_ite]

end Node

theorem Arena.length_registrations (arena : Arena) :
    arena.registrations.length = arena.bindingCount := by
  have hscopes : arena.toList.map (·.2) = arena.scopes.toList := by
    rw [toList, List.map_map]
    exact List.zipIdx_map_fst 0 arena.scopes.toList
  calc
    arena.registrations.length = (arena.toList.map (·.2.bindings.size)).sum := by
      simp [registrations, List.length_flatMap, Scope.declared]
    _ = (arena.scopes.toList.map (·.bindings.size)).sum := by
      rw [← hscopes, List.map_map]
      rfl
    _ = arena.bindingCount := by
      rw [bindingCount_eq_foldl, List.sum_eq_foldl]

/-- A tree binds each name of each of its declarations. -/
theorem Node.bindingCount_scopeArena {root : Node} (hbound : root.IsBound) :
    root.scopeArena.bindingCount =
      ((root.toList.filter (·.tag.isDecl)).map (·.boundNames.length)).sum := by
  rw [← Arena.length_registrations, (registrations_perm hbound).length_eq, length_registrations]

/-! ## Normalized trees -/

namespace Normalizer

variable {normalizer : Normalizer} {root : Node} {tree : CanonicalTree}

/-- The counters of a normalized tree are what they are said to be. -/
structure Counts (normalizer : Normalizer) (root : Node) (tree : CanonicalTree) : Prop where
  /-- Nodes of the given tree that are not below a placeholder. -/
  visited : tree.stats.visited = root.visible.length
  /-- Placeholders among them. -/
  discarded : tree.stats.discarded = root.visible.countP (·.2.tag.isDiscarded)
  /-- Raw nodes among them. -/
  reduced : tree.stats.reduced = root.visible.countP (·.2.tag.isRaw)
  /-- Nodes of the canonical tree that open a scope, and one more if the root does not. -/
  scopes : normalizer.config.bindScopes = true → tree.stats.scopes = tree.scopes.size ∧
    tree.scopes.size = tree.root.toList.countP (·.tag.hasOwnScope) +
      if tree.root.tag.hasOwnScope then 0 else 1
  /-- Names of all declarations of the canonical tree. -/
  bindings : normalizer.config.bindScopes = true →
    tree.stats.bindings = tree.scopes.bindingCount ∧
    tree.scopes.bindingCount =
      ((tree.root.toList.filter (·.tag.isDecl)).map (·.boundNames.length)).sum
  /-- Nothing is counted and there is no scope if names are not to be bound. -/
  unbound : normalizer.config.bindScopes = false →
    tree.stats.scopes = 0 ∧ tree.stats.bindings = 0 ∧ tree.scopes = Arena.empty

theorem normalize_counts (hok : normalizer.normalize root = .ok tree) :
    normalizer.Counts root tree := by
  obtain ⟨state, reduced, hrun, htree⟩ := normalize_ok_iff.mp hok
  have htallied := Reducing.tallied_run hrun
  constructor
  case visited =>
    rw [← htree]
    exact htallied.visited.trans (Nat.zero_add _)
  case discarded =>
    rw [← htree]
    exact htallied.discarded.trans (Nat.zero_add _)
  case reduced =>
    rw [← htree]
    exact htallied.reduced.trans (Nat.zero_add _)
  case scopes =>
    intro hbind
    obtain ⟨hscopes, hbound⟩ := scopes_of_normalize hbind hok
    refine ⟨by rw [← htree], ?_⟩
    rw [hscopes, size_scopeArena_eq_countP hbound]
  case bindings =>
    intro hbind
    obtain ⟨hscopes, hbound⟩ := scopes_of_normalize hbind hok
    refine ⟨?_, ?_⟩
    · rw [← htree, bindNames, if_pos hbind]
      exact BindingState.bindings_run reduced
    · rw [hscopes, bindingCount_scopeArena hbound]
  case unbound =>
    intro hbind
    rw [← htree, bindNames, hbind]
    exact ⟨rfl, rfl, rfl⟩

/-- The same tree with its names bound and without. -/
theorem normalize_counts_mixedUnit :
    (∃ tree, (⟨.java, {}⟩ : Normalizer).normalize mixedUnit = .ok tree ∧
      tree.stats = ⟨11, 2, 1, 3, 4⟩ ∧ Counts ⟨.java, {}⟩ mixedUnit tree) ∧
    ∃ tree, (⟨.java, { bindScopes := false }⟩ : Normalizer).normalize mixedUnit = .ok tree ∧
      tree.stats = ⟨11, 2, 1, 0, 0⟩ ∧
      Counts ⟨.java, { bindScopes := false }⟩ mixedUnit tree := by
  have hbound : ((⟨.java, {}⟩ : Normalizer).normalize mixedUnit).toOption.any
      (fun tree => tree.stats = ⟨11, 2, 1, 3, 4⟩) = true := by
    decide +kernel
  have hunbound : ((⟨.java, { bindScopes := false }⟩ : Normalizer).normalize
      mixedUnit).toOption.any (fun tree => tree.stats = ⟨11, 2, 1, 0, 0⟩) = true := by
    decide +kernel
  obtain ⟨bound, hok, hstats⟩ := exists_normalize_of_any hbound
  obtain ⟨unbound, hok', hstats'⟩ := exists_normalize_of_any hunbound
  exact ⟨⟨bound, hok, of_decide_eq_true hstats, normalize_counts hok⟩,
    unbound, hok', of_decide_eq_true hstats', normalize_counts hok'⟩

end Normalizer

end CanonTree
