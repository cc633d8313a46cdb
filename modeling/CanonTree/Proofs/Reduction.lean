import CanonTree.Normalize.Reduce
import CanonTree.Proofs.Forest
import CanonTree.Proofs.Rule.Outcome

/-!
# Reducing by recursion

What the reducing walk computes, said by recursion on the tree alone: no stack, no
shared array of results, and no frames.  A node is counted and measured when it is
met, its children are reduced from left to right, and the node with its new children
is kept or handed to its rule last.  The loop agrees with this definition in the
tree that it returns, in the error that it reports first, and in its counters.
-/

namespace CanonTree

namespace Reducing

/-- What is counted while a tree is reduced. -/
structure Tally where
  visited : Nat := 0
  reduced : Nat := 0
  discarded : Nat := 0
deriving DecidableEq

def tally (state : Reducing) : Tally :=
  ⟨state.visited, state.reduced, state.discarded⟩

/-- The outcome of a walk with its counters alone. -/
def counted {α : Type} (outcome : Reducing × α) : Tally × α :=
  (outcome.1.tally, outcome.2)

/-- A node whose children are reduced: it is kept, or replaced by what its rule makes of it. -/
def settle (language : Language) (tally : Tally) (node : Node) :
    Tally × Except NormalizeError (List Node) :=
  match node.tag with
  | .raw tag =>
      match Rule.reduce language tag node with
      | .error error => (tally, .error error)
      | .ok produced => ({ tally with reduced := tally.reduced + 1 }, .ok produced)
  | _ => (tally, .ok [node])

mutual

/-- The nodes that stand for a tree whose root is at the given depth. -/
def reduceTree (language : Language) (maxDepth depth : Nat) (tally : Tally) :
    Node → Tally × Except NormalizeError (List Node)
  | ⟨tag, span, text, operator, children, scope⟩ =>
      let tally := { tally with visited := tally.visited + 1 }
      if maxDepth < depth then (tally, .error (.tooDeep maxDepth span))
      else if tag.isDiscarded then ({ tally with discarded := tally.discarded + 1 }, .ok [])
      else
        match reduceTrees language maxDepth (depth + 1) tally children with
        | (tally, .error error) => (tally, .error error)
        | (tally, .ok reduced) => settle language tally ⟨tag, span, text, operator, reduced, scope⟩

/-- The nodes that stand for several trees, one tree after the other, up to the first error. -/
def reduceTrees (language : Language) (maxDepth depth : Nat) (tally : Tally) :
    List Node → Tally × Except NormalizeError (List Node)
  | [] => (tally, .ok [])
  | node :: nodes =>
      match reduceTree language maxDepth depth tally node with
      | (tally, .error error) => (tally, .error error)
      | (tally, .ok first) =>
          match reduceTrees language maxDepth depth tally nodes with
          | (tally, .error error) => (tally, .error error)
          | (tally, .ok others) => (tally, .ok (first ++ others))

end

/-- The node that stands for a whole tree; there is none if the root was dropped. -/
def reduceRoot (language : Language) (maxDepth : Nat) (root : Node) :
    Tally × Except NormalizeError Node :=
  match reduceTree language maxDepth 1 {} root with
  | (tally, .error error) => (tally, .error error)
  | (tally, .ok []) => (tally, .error (.discardedRoot root.span))
  | (tally, .ok (node :: _)) => (tally, .ok node)

theorem reduceTree_eq (language : Language) (maxDepth depth : Nat) (tally : Tally) (node : Node) :
    reduceTree language maxDepth depth tally node =
      let tally := { tally with visited := tally.visited + 1 }
      if maxDepth < depth then (tally, .error (.tooDeep maxDepth node.span))
      else if node.tag.isDiscarded then
        ({ tally with discarded := tally.discarded + 1 }, .ok [])
      else
        match reduceTrees language maxDepth (depth + 1) tally node.children with
        | (tally, .error error) => (tally, .error error)
        | (tally, .ok reduced) => settle language tally { node with children := reduced } := by
  cases node
  rfl

theorem reduceTrees_singleton (language : Language) (maxDepth depth : Nat) (tally : Tally)
    (node : Node) :
    reduceTrees language maxDepth depth tally [node] =
      reduceTree language maxDepth depth tally node := by
  rw [reduceTrees]
  match reduceTree language maxDepth depth tally node with
  | (_, .error _) => rfl
  | (_, .ok first) => simp [reduceTrees]

/-! ## How a tree comes to be reduced -/

section Reduced

variable {language : Language} {maxDepth depth : Nat} {before after : Tally} {node : Node}
  {nodes results : List Node}

/-- A settled node was replaced by its rule, or it is canonical and kept. -/
theorem settle_ok (hsettle : settle language before node = (after, .ok results)) :
    (∃ tag, node.tag = .raw tag ∧ Rule.reduce language tag node = .ok results ∧
      after = { before with reduced := before.reduced + 1 }) ∨
    ((∀ tag, node.tag ≠ .raw tag) ∧ results = [node] ∧ after = before) := by
  rw [settle] at hsettle
  split at hsettle
  · rename_i tag htag
    split at hsettle
    · cases hsettle
    · rename_i produced hrule
      cases hsettle
      exact .inl ⟨tag, htag, hrule, rfl⟩
  · rename_i hkept
    cases hsettle
    exact .inr ⟨hkept, rfl, rfl⟩

/-- Only the rule of a raw node can fail on it. -/
theorem settle_error {error : NormalizeError}
    (hsettle : settle language before node = (after, .error error)) :
    ∃ tag, node.tag = .raw tag ∧ Rule.reduce language tag node = .error error := by
  rw [settle] at hsettle
  split at hsettle
  · rename_i tag htag
    split at hsettle
    · rename_i hrule
      cases hsettle
      exact ⟨tag, htag, hrule⟩
    · cases hsettle
  · cases hsettle

/-- A reduced tree was dropped for its root, or its children were reduced and its root settled. -/
theorem reduceTree_ok
    (hreduce : reduceTree language maxDepth depth before node = (after, .ok results)) :
    depth ≤ maxDepth ∧
      (node.tag.isDiscarded = true ∧ results = [] ∧
          after = ⟨before.visited + 1, before.reduced, before.discarded + 1⟩ ∨
        node.tag.isDiscarded = false ∧ ∃ middle below,
          reduceTrees language maxDepth (depth + 1)
            { before with visited := before.visited + 1 } node.children = (middle, .ok below) ∧
          settle language middle { node with children := below } = (after, .ok results)) := by
  rw [reduceTree_eq] at hreduce
  dsimp only at hreduce
  split at hreduce
  · cases hreduce
  rename_i hdepth
  refine ⟨by omega, ?_⟩
  split at hreduce
  · rename_i hdiscarded
    cases hreduce
    exact .inl ⟨hdiscarded, rfl, rfl⟩
  rename_i hdiscarded
  split at hreduce
  · cases hreduce
  · rename_i middle below hbelow
    exact .inr ⟨by simpa using hdiscarded, middle, below, hbelow, hreduce⟩

theorem reduceTrees_cons_ok
    (hreduce : reduceTrees language maxDepth depth before (node :: nodes) =
      (after, .ok results)) :
    ∃ middle first others,
      reduceTree language maxDepth depth before node = (middle, .ok first) ∧
      reduceTrees language maxDepth depth middle nodes = (after, .ok others) ∧
      results = first ++ others := by
  rw [reduceTrees] at hreduce
  split at hreduce
  · cases hreduce
  rename_i middle first hfirst
  split at hreduce
  · cases hreduce
  · rename_i rest others hothers
    cases hreduce
    exact ⟨middle, first, others, hfirst, hothers, rfl⟩

/-- A tree fails because its root is too deep, because its children fail, or because its root
cannot be settled. -/
theorem reduceTree_error {error : NormalizeError}
    (hreduce : reduceTree language maxDepth depth before node = (after, .error error)) :
    (maxDepth < depth ∧ error = .tooDeep maxDepth node.span) ∨
      depth ≤ maxDepth ∧ node.tag.isDiscarded = false ∧
        (reduceTrees language maxDepth (depth + 1)
            { before with visited := before.visited + 1 } node.children = (after, .error error) ∨
          ∃ middle below,
            reduceTrees language maxDepth (depth + 1)
              { before with visited := before.visited + 1 } node.children = (middle, .ok below) ∧
            settle language middle { node with children := below } = (after, .error error)) := by
  rw [reduceTree_eq] at hreduce
  dsimp only at hreduce
  split at hreduce
  · rename_i hdepth
    cases hreduce
    exact .inl ⟨hdepth, rfl⟩
  rename_i hdepth
  split at hreduce
  · cases hreduce
  rename_i hdiscarded
  refine .inr ⟨by omega, by simpa using hdiscarded, ?_⟩
  split at hreduce
  · rename_i hbelow
    cases hreduce
    exact .inl hbelow
  · rename_i middle below hbelow
    exact .inr ⟨middle, below, hbelow, hreduce⟩

/-- The first tree fails, or it is reduced and the others fail. -/
theorem reduceTrees_cons_error {error : NormalizeError}
    (hreduce : reduceTrees language maxDepth depth before (node :: nodes) =
      (after, .error error)) :
    reduceTree language maxDepth depth before node = (after, .error error) ∨
      ∃ middle first,
        reduceTree language maxDepth depth before node = (middle, .ok first) ∧
        reduceTrees language maxDepth depth middle nodes = (after, .error error) := by
  rw [reduceTrees] at hreduce
  split at hreduce
  · rename_i hfirst
    cases hreduce
    exact .inl hfirst
  rename_i middle first hfirst
  split at hreduce
  · rename_i hothers
    cases hreduce
    exact .inr ⟨middle, first, hfirst, hothers⟩
  · cases hreduce

/-- A tree is reduced to at most one node, and that node has the span of the root. -/
theorem eq_singleton_of_reduceTree {result : Node}
    (hreduce : reduceTree language maxDepth depth before node = (after, .ok (result :: results))) :
    results = [] ∧ result.span = node.span := by
  obtain ⟨-, ⟨-, hnone, -⟩ | ⟨-, middle, below, -, hsettle⟩⟩ := reduceTree_ok hreduce
  · cases hnone
  · obtain ⟨tag, -, hrule, -⟩ | ⟨-, hkept, -⟩ := settle_ok hsettle
    · obtain ⟨made, hmade, -, hspan⟩ := Rule.reduce_head hrule
      cases hmade
      exact ⟨rfl, hspan⟩
    · cases hkept
      exact ⟨rfl, rfl⟩

end Reduced

/-! ## One step of the walk -/

section Steps

variable (language : Language) (maxDepth : Nat)

/-- On leaving a node, the walk settles it.  Dropping placeholders among the nodes that a rule
made changes nothing, because no rule makes one. -/
theorem counted_leave (depth : Nat) (node : Node) (results : List Node) (state : Reducing) :
    counted ((walk language maxDepth).leave depth node results state) =
      settle language state.tally { node with children := results } := by
  obtain ⟨tag, span, text, operator, children, scope⟩ := node
  cases tag with
  | raw tag =>
      by_cases howner : tag.owner = language
      · cases hrule : Rule.reduce language tag
            ⟨.raw tag, span, text, operator, results, scope⟩ with
        | error error => simp [walk, settle, counted, tally, howner, hrule]
        | ok produced =>
            obtain ⟨result, rfl, hresult, -⟩ := Rule.reduce_head hrule
            have hkept : result.tag.isDiscarded = false := by
              rw [hresult, Rule.isDiscarded_resultTag]
            simp [walk, settle, counted, tally, howner, hrule, hkept]
      · simp [walk, settle, counted, tally, howner, Rule.reduce_of_owner_ne howner]
  | shared tag => rfl
  | java tag => rfl

/-- The walk through one tree agrees with the recursion, if it does so on the children. -/
theorem counted_visit_of_children (node : Node)
    (hchildren : ∀ depth state,
      counted ((walk language maxDepth).visitAll depth state node.children) =
        reduceTrees language maxDepth depth state.tally node.children)
    (depth : Nat) (state : Reducing) :
    counted ((walk language maxDepth).visit depth state node) =
      reduceTree language maxDepth depth state.tally node := by
  rw [Walk.visit_eq, reduceTree_eq]
  by_cases hdeep : maxDepth < depth
  · simp [walk, counted, tally, hdeep]
  by_cases hdiscarded : node.tag.isDiscarded
  · simp [walk, counted, tally, hdeep, hdiscarded]
  have henter : (walk language maxDepth).enter depth node state =
      ({ state with visited := state.visited + 1 }, .ok (some (depth + 1))) := by
    simp [walk, hdeep, hdiscarded]
  have hbelow := hchildren (depth + 1) { state with visited := state.visited + 1 }
  have htally : ({ state with visited := state.visited + 1 } : Reducing).tally =
      { state.tally with visited := state.tally.visited + 1 } := rfl
  rw [htally] at hbelow
  simp only [henter, hdeep, hdiscarded, if_false, Bool.false_eq_true]
  rw [← hbelow]
  generalize (walk language maxDepth).visitAll (depth + 1)
    { state with visited := state.visited + 1 } node.children = outcome
  obtain ⟨below, error | results⟩ := outcome
  · rfl
  · exact counted_leave language maxDepth (depth + 1) node results below

/-- The walk through several trees agrees with the recursion. -/
theorem counted_visitAll (nodes : List Node) :
    ∀ depth state, counted ((walk language maxDepth).visitAll depth state nodes) =
      reduceTrees language maxDepth depth state.tally nodes := by
  induction nodes using Node.forest_induction with
  | nil =>
      intro depth state
      rfl
  | cons node nodes hchildren hnodes =>
      intro depth state
      have hnode := counted_visit_of_children language maxDepth node hchildren depth state
      rw [Walk.visitAll, reduceTrees, ← hnode]
      match (walk language maxDepth).visit depth state node with
      | (_, .error _) => rfl
      | (after, .ok first) =>
          have hothers := hnodes depth after
          simp only [counted] at hothers ⊢
          rw [← hothers]
          match (walk language maxDepth).visitAll depth after nodes with
          | (_, .error _) => rfl
          | (_, .ok others) => rfl

theorem counted_visit (depth : Nat) (state : Reducing) (node : Node) :
    counted ((walk language maxDepth).visit depth state node) =
      reduceTree language maxDepth depth state.tally node :=
  counted_visit_of_children language maxDepth node
    (counted_visitAll language maxDepth node.children) depth state

end Steps

/-! ## The whole walk -/

/-- A tree that is reduced by the loop is reduced by the recursion, to the same single node. -/
theorem reduceTree_of_run {language : Language} {maxDepth : Nat} {root reduced : Node}
    {state : Reducing} (hrun : run language maxDepth root = (state, .ok reduced)) :
    reduceTree language maxDepth 1 {} root = (state.tally, .ok [reduced]) := by
  have hvisit := counted_visit language maxDepth 1 {} root
  rw [run, Walk.runTree_eq_visit] at hrun
  split at hrun
  · rename_i after nodes hwalk
    rw [hwalk] at hvisit
    match nodes, hvisit, hrun with
    | [], _, hrun => cases hrun
    | [node], hvisit, hrun =>
        cases hrun
        exact hvisit.symm
    | first :: second :: others, hvisit, _ =>
        cases (eq_singleton_of_reduceTree hvisit.symm).1
  · cases hrun

/-- A tree that is reduced by the recursion is reduced by the loop, with the same counters. -/
theorem exists_run_of_reduceTree {language : Language} {maxDepth : Nat} {root reduced : Node}
    {tally : Tally}
    (hreduce : reduceTree language maxDepth 1 {} root = (tally, .ok [reduced])) :
    ∃ state, run language maxDepth root = (state, .ok reduced) ∧ state.tally = tally := by
  have hvisit := counted_visit language maxDepth 1 {} root
  change _ = reduceTree language maxDepth 1 {} root at hvisit
  rw [hreduce] at hvisit
  rw [run, Walk.runTree_eq_visit]
  match hwalk : (walk language maxDepth).visit 1 {} root with
  | (state, outcome) =>
      rw [hwalk] at hvisit
      cases hvisit
      exact ⟨state, rfl, rfl⟩

/-- The loop on a stack of frames, with one shared array of results, computes what the recursion
says: the same tree, or the same error, and the same counters in both cases. -/
theorem run_eq_reduceRoot (language : Language) (maxDepth : Nat) (root : Node) :
    ((run language maxDepth root).1.tally, (run language maxDepth root).2) =
      reduceRoot language maxDepth root := by
  have hvisit := counted_visit language maxDepth 1 {} root
  rw [run, reduceRoot, Walk.runTree_eq_visit]
  change _ = reduceTree language maxDepth 1 {} root at hvisit
  rw [← hvisit]
  match hwalk : (walk language maxDepth).visit 1 {} root with
  | (_, .error _) => rfl
  | (_, .ok []) => rfl
  | (_, .ok [_]) => rfl
  | (state, .ok (first :: second :: others)) =>
      rw [hwalk] at hvisit
      have hsingle := (eq_singleton_of_reduceTree hvisit.symm).1
      cases hsingle

end Reducing

end CanonTree
