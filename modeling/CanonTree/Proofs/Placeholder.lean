import CanonTree.Proofs.Normalization
import Mathlib.Logic.Relation

/-!
# Placeholders leave no trace

A placeholder is gone before the node above it is settled, so a tree reduces to what it
would reduce to if its placeholders had been cut out before.  Only the counters tell:
each placeholder that is met was visited once, and dropped once.  Nor does it matter what
a placeholder holds, because a walk that meets one looks at its depth and its span and at
nothing else.
-/

namespace CanonTree

namespace Node

/-! ## Cutting placeholders out -/

mutual

/-- A tree without the subtrees of its placeholders; the root is kept, whatever it is. -/
def prune : Node → Node
  | ⟨tag, span, text, operator, children, scope⟩ =>
      ⟨tag, span, text, operator, pruneAll children, scope⟩

def pruneAll : List Node → List Node
  | [] => []
  | node :: nodes =>
      if node.tag.isDiscarded then pruneAll nodes else prune node :: pruneAll nodes

end

theorem prune_eq (node : Node) :
    node.prune = { node with children := pruneAll node.children } := by
  cases node
  rfl

theorem pruneAll_cons_placeholder {node : Node} (hdiscarded : node.tag.isDiscarded = true)
    (nodes : List Node) : pruneAll (node :: nodes) = pruneAll nodes := by
  rw [pruneAll, if_pos hdiscarded]

theorem pruneAll_cons_kept {node : Node} (hkept : node.tag.isDiscarded = false)
    (nodes : List Node) : pruneAll (node :: nodes) = node.prune :: pruneAll nodes := by
  rw [pruneAll, if_neg (by simp [hkept])]

/-! ## Filling a placeholder anew -/

/-- The second tree is the first, but one placeholder in it, at any place, has another content.
The tag and the span of the placeholder are kept. -/
inductive Refilled : Node → Node → Prop where
  | placeholder {tag : Tag} (hdiscarded : tag.isDiscarded = true) (span : Span)
      (text text' : Option String) (operator operator' : Option Operator)
      (children children' : List Node) (scope scope' : Option ScopeId) :
      Refilled ⟨tag, span, text, operator, children, scope⟩
        ⟨tag, span, text', operator', children', scope'⟩
  | inside (node : Node) (left right : List Node) {child child' : Node}
      (hchild : Refilled child child') :
      Refilled { node with children := left ++ child :: right }
        { node with children := left ++ child' :: right }

end Node

open Node

/-- A walk through several trees can tell two trees apart only if it tells them apart alone. -/
theorem Walk.visitAll_replace {κ σ ε β : Type} (walk : Walk κ σ ε β) {child child' : Node}
    (hchild : ∀ context state, walk.visit context state child' = walk.visit context state child)
    (left right : List Node) (context : κ) :
    ∀ state, walk.visitAll context state (left ++ child' :: right) =
      walk.visitAll context state (left ++ child :: right) := by
  induction left with
  | nil =>
      intro state
      simp only [List.nil_append, visitAll, hchild]
  | cons node left ih =>
      intro state
      simp only [List.cons_append, visitAll, ih]

namespace Reducing

variable {language : Language} {maxDepth : Nat}

/-- A placeholder is not walked into. -/
theorem visit_placeholder {node : Node} (hdiscarded : node.tag.isDiscarded = true) (depth : Nat)
    (state : Reducing) :
    (walk language maxDepth).visit depth state node =
      match (walk language maxDepth).enter depth node state with
      | (state, .error error) => (state, .error error)
      | (state, .ok _) => (state, .ok []) := by
  rw [Walk.visit_eq]
  by_cases hdeep : maxDepth < depth
  · simp [walk, hdeep]
  · simp [walk, hdeep, hdiscarded]

/-- What a placeholder holds is not seen by the walk: not in its results, its error, its counters
or its records. -/
theorem visit_refilled {first second : Node} (hrefilled : Refilled first second) :
    ∀ depth state, (walk language maxDepth).visit depth state second =
      (walk language maxDepth).visit depth state first := by
  induction hrefilled with
  | placeholder hdiscarded =>
      intro depth state
      rw [visit_placeholder hdiscarded, visit_placeholder hdiscarded]
      rfl
  | inside node left right _ ih =>
      intro depth state
      rw [Walk.visit_eq, Walk.visit_eq]
      simp only [Walk.visitAll_replace _ ih]
      -- the parents differ in their old children only, which neither entering nor leaving reads
      rfl

theorem run_refilled {first second : Node} (hrefilled : Refilled first second) :
    run language maxDepth second = run language maxDepth first := by
  have hspan : second.span = first.span := by
    cases hrefilled <;> rfl
  rw [run, run, Walk.runTree_eq_visit, Walk.runTree_eq_visit, visit_refilled hrefilled, hspan]

/-! ## Two walks side by side -/

/-- The counters of a walk with placeholders and of one without them: each placeholder was visited
and dropped. -/
structure Tally.Spares (full pruned : Tally) : Prop where
  visited : full.visited = pruned.visited + full.discarded
  reduced : pruned.reduced = full.reduced
  discarded : pruned.discarded = 0

/-- What comes of a walk with placeholders and of one without them: the same, unless the first met
a node that is too deep. -/
inductive Alike : Tally × Except NormalizeError (List Node) →
    Tally × Except NormalizeError (List Node) → Prop where
  | tooDeep {full : Tally} {limit : Nat} {span : Span}
      {other : Tally × Except NormalizeError (List Node)} :
      Alike (full, .error (.tooDeep limit span)) other
  | same {full pruned : Tally} (hspares : full.Spares pruned)
      (outcome : Except NormalizeError (List Node)) : Alike (full, outcome) (pruned, outcome)

variable {full pruned : Tally} {node : Node}

theorem Tally.Spares.visit (hspares : full.Spares pruned) :
    Tally.Spares { full with visited := full.visited + 1 }
      { pruned with visited := pruned.visited + 1 } where
  visited := by
    have hvisited := hspares.visited
    dsimp only
    omega
  reduced := hspares.reduced
  discarded := hspares.discarded

theorem Tally.Spares.drop (hspares : full.Spares pruned) :
    Tally.Spares ⟨full.visited + 1, full.reduced, full.discarded + 1⟩ pruned where
  visited := by
    have hvisited := hspares.visited
    dsimp only
    omega
  reduced := hspares.reduced
  discarded := hspares.discarded

theorem Tally.Spares.reduce (hspares : full.Spares pruned) :
    Tally.Spares { full with reduced := full.reduced + 1 }
      { pruned with reduced := pruned.reduced + 1 } where
  visited := hspares.visited
  reduced := congrArg (· + 1) hspares.reduced
  discarded := hspares.discarded

/-- A placeholder that is not too deep is counted, and that is all. -/
theorem reduceTrees_cons_placeholder {depth : Nat} (hdiscarded : node.tag.isDiscarded = true)
    (hdepth : depth ≤ maxDepth) (tally : Tally) (nodes : List Node) :
    reduceTrees language maxDepth depth tally (node :: nodes) =
      reduceTrees language maxDepth depth
        ⟨tally.visited + 1, tally.reduced, tally.discarded + 1⟩ nodes := by
  simp only [reduceTrees, reduceTree_eq, Nat.not_lt_of_le hdepth, hdiscarded, if_true, if_false,
    List.nil_append]
  generalize reduceTrees language maxDepth depth
    ⟨tally.visited + 1, tally.reduced, tally.discarded + 1⟩ nodes = outcome
  obtain ⟨after, error | results⟩ := outcome
  · rfl
  · rfl

/-- What is alike goes on alike, if both walks go on alike with the same results. -/
theorem alike_continue {left right : Tally × Except NormalizeError (List Node)}
    {next next' : Tally → List Node → Tally × Except NormalizeError (List Node)}
    (hnext : ∀ {full pruned : Tally}, full.Spares pruned →
      ∀ results, Alike (next full results) (next' pruned results)) :
    Alike left right →
      Alike
        (match left with
          | (tally, .error error) => (tally, .error error)
          | (tally, .ok results) => next tally results)
        (match right with
          | (tally, .error error) => (tally, .error error)
          | (tally, .ok results) => next' tally results) := by
  intro halike
  cases halike with
  | tooDeep => exact .tooDeep
  | same hspares outcome =>
      cases outcome with
      | error error => exact .same hspares (.error error)
      | ok results => exact hnext hspares results

/-- Both walks settle a node alike. -/
theorem alike_settle (hspares : full.Spares pruned) (node : Node) :
    Alike (settle language full node) (settle language pruned node) := by
  rw [settle, settle]
  split
  · split
    · exact .same hspares _
    · exact .same hspares.reduce _
  · exact .same hspares _

/-- A tree whose root is kept is reduced alike with and without placeholders below the root, if its
children are. -/
theorem alike_reduceTree_of_children
    (hchildren : ∀ depth {full pruned : Tally}, full.Spares pruned →
      Alike (reduceTrees language maxDepth depth full node.children)
        (reduceTrees language maxDepth depth pruned (pruneAll node.children)))
    (hkept : node.tag.isDiscarded = false) (depth : Nat) (hspares : full.Spares pruned) :
    Alike (reduceTree language maxDepth depth full node)
      (reduceTree language maxDepth depth pruned node.prune) := by
  rw [reduceTree_eq, reduceTree_eq, prune_eq]
  simp only [hkept, Bool.false_eq_true, if_false]
  split
  · exact .tooDeep
  · refine alike_continue ?_ (hchildren (depth + 1) hspares.visit)
    intro full pruned hmiddle below
    exact alike_settle hmiddle { node with children := below }

/-- Trees are reduced alike with and without their placeholders. -/
theorem alike_reduceTrees (nodes : List Node) :
    ∀ depth {full pruned : Tally}, full.Spares pruned →
      Alike (reduceTrees language maxDepth depth full nodes)
        (reduceTrees language maxDepth depth pruned (pruneAll nodes)) := by
  induction nodes using forest_induction with
  | nil =>
      intro depth full pruned hspares
      exact .same hspares _
  | cons node nodes hchildren hnodes =>
      intro depth full pruned hspares
      cases hdiscarded : node.tag.isDiscarded with
      | true =>
          -- the first walk makes a step to which there is none in the second
          rw [pruneAll_cons_placeholder hdiscarded]
          by_cases hdeep : maxDepth < depth
          · simp only [reduceTrees, reduceTree_eq, hdeep, if_true]
            exact .tooDeep
          · rw [reduceTrees_cons_placeholder hdiscarded (Nat.le_of_not_lt hdeep)]
            exact hnodes depth hspares.drop
      | false =>
          rw [pruneAll_cons_kept hdiscarded, reduceTrees, reduceTrees]
          refine alike_continue ?_
            (alike_reduceTree_of_children hchildren hdiscarded depth hspares)
          intro full pruned hmiddle first
          refine alike_continue ?_ (hnodes depth hmiddle)
          intro full pruned hafter others
          exact .same hafter (.ok (first ++ others))

theorem alike_reduceTree (hkept : node.tag.isDiscarded = false) :
    Alike (reduceTree language maxDepth 1 {} node) (reduceTree language maxDepth 1 {} node.prune) :=
  alike_reduceTree_of_children (alike_reduceTrees node.children) hkept 1 ⟨rfl, rfl, rfl⟩

end Reducing

/-! ## Normalized trees -/

namespace Normalizer

variable {normalizer : Normalizer} {root : Node}

/-- A tree is too deep, or it fails as it does without its placeholders, or both are reduced to the
same node. -/
theorem normalize_prune_cases (normalizer : Normalizer) (hroot : root.tag.isDiscarded = false) :
    (∃ limit span, normalizer.normalize root = .error (.tooDeep limit span)) ∨
    (∃ error, normalizer.normalize root = .error error ∧
      normalizer.normalize root.prune = .error error) ∨
    ∃ full pruned reduced, Reducing.Tally.Spares full pruned ∧
      normalizer.normalize root = .ok (normalizer.bound full reduced) ∧
      normalizer.normalize root.prune = .ok (normalizer.bound pruned reduced) := by
  have hspan : root.prune.span = root.span := by
    rw [prune_eq]
  have halike : Reducing.Alike
      (Reducing.reduceTree normalizer.language normalizer.config.maxDepth 1 {} root)
      (Reducing.reduceTree normalizer.language normalizer.config.maxDepth 1 {} root.prune) :=
    Reducing.alike_reduceTree hroot
  rw [normalize_eq_reduceTree, normalize_eq_reduceTree, hspan]
  generalize Reducing.reduceTree _ _ 1 {} root = left at halike ⊢
  generalize Reducing.reduceTree _ _ 1 {} root.prune = right at halike ⊢
  cases halike with
  | tooDeep => exact .inl ⟨_, _, rfl⟩
  | same hspares outcome =>
      obtain error | _ | ⟨reduced, others⟩ := outcome
      · exact .inr (.inl ⟨error, rfl, rfl⟩)
      · exact .inr (.inl ⟨_, rfl, rfl⟩)
      · exact .inr (.inr ⟨_, _, reduced, hspares, rfl, rfl⟩)

theorem normalize_prune_ok (hroot : root.tag.isDiscarded = false) {tree : CanonicalTree}
    (hok : normalizer.normalize root = .ok tree) :
    ∃ visited, tree.stats.visited = visited + tree.stats.discarded ∧
      normalizer.normalize root.prune =
        .ok { tree with stats := { tree.stats with visited := visited, discarded := 0 } } := by
  obtain ⟨limit, span, hdeep⟩ | ⟨error, hfull, -⟩ |
    ⟨full, pruned, reduced, hspares, hfull, hpruned⟩ := normalize_prune_cases normalizer hroot
  · cases hok.symm.trans hdeep
  · cases hok.symm.trans hfull
  · cases hok.symm.trans hfull
    refine ⟨pruned.visited, hspares.visited, ?_⟩
    simp only [hpruned, bound, hspares.reduced, hspares.discarded]

theorem normalize_prune_error (hroot : root.tag.isDiscarded = false) {error : NormalizeError}
    (hshallow : ∀ limit span, error ≠ .tooDeep limit span)
    (hfailed : normalizer.normalize root = .error error) :
    normalizer.normalize root.prune = .error error := by
  obtain ⟨limit, span, hdeep⟩ | ⟨same, hfull, hpruned⟩ | ⟨full, pruned, reduced, -, hfull, -⟩ :=
    normalize_prune_cases normalizer hroot
  · cases hfailed.symm.trans hdeep
    exact absurd rfl (hshallow limit span)
  · cases hfailed.symm.trans hfull
    exact hpruned
  · cases hfailed.symm.trans hfull

theorem run_refilled {other : Node} (hrefilled : Relation.ReflTransGen Refilled root other) :
    normalizer.run other = normalizer.run root := by
  induction hrefilled with
  | refl => rfl
  | tail _ hstep ih => rw [← ih, run, run, Reducing.run_refilled hstep]

/-- Placeholders leave no trace.  If they are cut out below a root that is none, the tree is
normalized to the same tree with the same scopes and counters, except that they are not counted;
and it fails as before, unless the failure was that the tree is too deep.  What placeholders hold
changes neither the outcome nor the records, whether the tree is normalized or not. -/
theorem normalize_without_placeholders (normalizer : Normalizer) (root : Node) :
    (root.tag.isDiscarded = false →
      (∀ tree, normalizer.normalize root = .ok tree →
        ∃ visited, tree.stats.visited = visited + tree.stats.discarded ∧
          normalizer.normalize root.prune =
            .ok { tree with stats := { tree.stats with visited := visited, discarded := 0 } }) ∧
      ∀ error, (∀ limit span, error ≠ .tooDeep limit span) →
        normalizer.normalize root = .error error →
          normalizer.normalize root.prune = .error error) ∧
    ∀ other, Relation.ReflTransGen Refilled root other →
      normalizer.normalize other = normalizer.normalize root ∧
        normalizer.records other = normalizer.records root := by
  refine ⟨fun hroot => ⟨fun tree => normalize_prune_ok hroot,
    fun error => normalize_prune_error hroot⟩, ?_⟩
  intro other hrefilled
  rw [normalize, normalize, records, records, run_refilled hrefilled]
  exact ⟨rfl, rfl⟩

theorem normalize_without_placeholders_mixedUnit :
    (∃ tree visited, (⟨.java, {}⟩ : Normalizer).normalize mixedUnit = .ok tree ∧
      tree.stats.discarded = 1 ∧ tree.stats.visited = visited + 1 ∧
      (⟨.java, {}⟩ : Normalizer).normalize mixedUnit.prune =
        .ok { tree with stats := { tree.stats with visited := visited, discarded := 0 } }) ∧
    (⟨.ecma, {}⟩ : Normalizer).normalize mixedUnit.prune =
      .error (.unmapped (.java .typeInstantiation) .ecma .dummy) ∧
    ∀ text operator children,
      (⟨.java, {}⟩ : Normalizer).normalize
          { mixedUnit with
            children := ⟨.shared .discarded, .dummy, text, operator, children, none⟩ ::
              mixedUnit.children.tail } =
        (⟨.java, {}⟩ : Normalizer).normalize mixedUnit := by
  obtain ⟨hpruned, hrefilled⟩ := normalize_without_placeholders ⟨.java, {}⟩ mixedUnit
  refine ⟨?_, ?_, ?_⟩
  · have htest : ((⟨.java, {}⟩ : Normalizer).normalize mixedUnit).toOption.any
        (fun tree => decide (tree.stats.discarded = 1)) = true := by
      decide +kernel
    obtain ⟨tree, hok, hdiscarded⟩ := exists_normalize_of_any htest
    rw [decide_eq_true_eq] at hdiscarded
    obtain ⟨visited, hvisited, hprune⟩ := (hpruned rfl).1 tree hok
    exact ⟨tree, visited, hok, hdiscarded, hdiscarded ▸ hvisited, hprune⟩
  · have hfails : (⟨.ecma, {}⟩ : Normalizer).normalize mixedUnit =
        .error (.unmapped (.java .typeInstantiation) .ecma .dummy) := by
      decide +kernel
    exact ((normalize_without_placeholders ⟨.ecma, {}⟩ mixedUnit).1 rfl).2 _ (by simp) hfails
  · intro text operator children
    have hstep : Refilled mixedUnit
        { mixedUnit with
          children := ⟨.shared .discarded, .dummy, text, operator, children, none⟩ ::
            mixedUnit.children.tail } :=
      .inside mixedUnit [] mixedUnit.children.tail
        (.placeholder rfl .dummy none text none operator _ children none none)
    exact (hrefilled _ (.single hstep)).1

end Normalizer

end CanonTree
