import CanonTree.Proofs.Normalization

/-!
# Raising the depth limit

Two reducing walks that differ in their depth limit alone go in step: they enter the
same nodes in the same order and leave them with the same results, until the one with
the lower limit meets a node that is too deep for it.  So whatever a tree comes to under
a limit, unless the limit itself is what it fails for, it comes to under every higher
limit, with the same counters and records.  The tree need not fit the lower limit for
that: a rule that fails before the first node that is too deep is reported under either.
-/

namespace CanonTree

/-! ## Two walks in step -/

namespace Walk

variable {κ σ ε β α : Type} {stops : ε → Prop}

/-- The first outcome is an error of the given kind, or else it is the second outcome. -/
inductive SameUnless (stops : ε → Prop) : σ × Except ε α → σ × Except ε α → Prop where
  | stopped (state : σ) {error : ε} (hstops : stops error) (other : σ × Except ε α) :
      SameUnless stops (state, .error error) other
  | same (outcome : σ × Except ε α) : SameUnless stops outcome outcome

/-- Outcomes that are the same unless the first one stops stay so whatever is done with their
results, if that is the same unless it stops. -/
theorem sameUnless_continue {left right : σ × Except ε (List β)}
    {next next' : σ → List β → σ × Except ε (List β)}
    (hnext : ∀ state results, SameUnless stops (next state results) (next' state results)) :
    SameUnless stops left right →
      SameUnless stops
        (match left with
          | (state, .error error) => (state, .error error)
          | (state, .ok results) => next state results)
        (match right with
          | (state, .error error) => (state, .error error)
          | (state, .ok results) => next' state results) := by
  intro hsame
  cases hsame with
  | stopped state hstops => exact .stopped state hstops _
  | same =>
      obtain ⟨state, error | results⟩ := left
      · exact .same _
      · exact hnext state results

section InStep

variable {walk walk' : Walk κ σ ε β}
  (henter : ∀ context node state,
    SameUnless stops (walk.enter context node state) (walk'.enter context node state))
  (hleave : ∀ context node results state,
    walk'.leave context node results state = walk.leave context node results state)

include henter hleave

theorem sameUnless_visit_of_children {node : Node}
    (hchildren : ∀ context state,
      SameUnless stops (walk.visitAll context state node.children)
        (walk'.visitAll context state node.children))
    (context : κ) (state : σ) :
    SameUnless stops (walk.visit context state node) (walk'.visit context state node) := by
  have hentered := henter context node state
  rw [visit_eq, visit_eq]
  generalize walk.enter context node state = entered at hentered ⊢
  generalize walk'.enter context node state = entered' at hentered ⊢
  cases hentered with
  | stopped state hstops => exact .stopped state hstops _
  | same =>
      obtain ⟨state, error | _ | inner⟩ := entered
      · exact .same _
      · exact .same _
      · refine sameUnless_continue ?_ (hchildren inner state)
        intro state results
        rw [hleave]
        exact .same _

/-- Two walks that enter nodes alike unless the first one stops, and leave them alike, go through
trees alike unless the first one stops. -/
theorem sameUnless_visitAll (nodes : List Node) :
    ∀ context state,
      SameUnless stops (walk.visitAll context state nodes)
        (walk'.visitAll context state nodes) := by
  induction nodes using Node.forest_induction with
  | nil =>
      intro context state
      exact .same _
  | cons node nodes hchildren hnodes =>
      intro context state
      rw [visitAll, visitAll]
      refine sameUnless_continue ?_
        (sameUnless_visit_of_children henter hleave hchildren context state)
      intro state first
      refine sameUnless_continue ?_ (hnodes context state)
      intro state others
      exact .same _

theorem sameUnless_visit (node : Node) (context : κ) (state : σ) :
    SameUnless stops (walk.visit context state node) (walk'.visit context state node) :=
  sameUnless_visit_of_children henter hleave (sameUnless_visitAll henter hleave node.children)
    context state

end InStep

end Walk

open Walk

/-! ## Reducing under two limits -/

/-- The tree failed for the depth limit. -/
def NormalizeError.IsTooDeep (error : NormalizeError) : Prop :=
  ∃ limit span, error = .tooDeep limit span

namespace Reducing

variable {lower higher : Nat}

/-- A node that is entered under a limit is entered alike under a higher one. -/
theorem sameUnless_enter (hlimit : lower ≤ higher) (language : Language) (depth : Nat)
    (node : Node) (state : Reducing) :
    SameUnless NormalizeError.IsTooDeep ((walk language lower).enter depth node state)
      ((walk language higher).enter depth node state) := by
  by_cases hdeep : lower < depth
  · simp only [walk, hdeep, if_true]
    exact .stopped _ ⟨lower, node.span, rfl⟩ _
  · have hhigher : ¬higher < depth := by omega
    simp only [walk, hdeep, hhigher, if_false]
    exact .same _

theorem sameUnless_run (hlimit : lower ≤ higher) (language : Language) (root : Node) :
    SameUnless NormalizeError.IsTooDeep (run language lower root) (run language higher root) := by
  have hvisit := sameUnless_visit (sameUnless_enter hlimit language) (fun _ _ _ _ => rfl)
    root 1 {}
  rw [run, run, runTree_eq_visit, runTree_eq_visit]
  generalize (walk language lower).visit 1 {} root = low at hvisit ⊢
  generalize (walk language higher).visit 1 {} root = high at hvisit ⊢
  cases hvisit with
  | stopped state hstops => exact .stopped state hstops _
  | same => exact .same _

end Reducing

/-! ## Normalizing under two limits -/

namespace Normalizer

variable {lower higher : Nat}

/-- The limit matters for reducing alone: names are bound alike in what is reduced alike. -/
theorem sameUnless_run (hlimit : lower ≤ higher) (language : Language) (config : Config)
    (root : Node) :
    SameUnless NormalizeError.IsTooDeep
      ((⟨language, { config with maxDepth := lower }⟩ : Normalizer).run root)
      ((⟨language, { config with maxDepth := higher }⟩ : Normalizer).run root) := by
  have hreduce := Reducing.sameUnless_run hlimit language root
  rw [run, run]
  dsimp only
  generalize Reducing.run language lower root = low at hreduce ⊢
  generalize Reducing.run language higher root = high at hreduce ⊢
  cases hreduce with
  | stopped state hstops => exact .stopped _ hstops _
  | same => exact .same _

/-- A tree that does not fail for its depth under a limit comes to the same under every higher
limit: the same tree with the same scopes and counters, or the same error; and it leaves the same
records. -/
theorem normalize_of_higher_limit (language : Language) (config : Config) (root : Node)
    (hlimit : lower ≤ higher)
    (hshallow : ∀ limit span,
      (⟨language, { config with maxDepth := lower }⟩ : Normalizer).normalize root ≠
        .error (.tooDeep limit span)) :
    (⟨language, { config with maxDepth := higher }⟩ : Normalizer).normalize root =
        (⟨language, { config with maxDepth := lower }⟩ : Normalizer).normalize root ∧
      (⟨language, { config with maxDepth := higher }⟩ : Normalizer).records root =
        (⟨language, { config with maxDepth := lower }⟩ : Normalizer).records root := by
  have hsame := sameUnless_run hlimit language config root
  simp only [normalize, records] at hshallow ⊢
  generalize (⟨language, { config with maxDepth := lower }⟩ : Normalizer).run root = low
    at hsame hshallow ⊢
  generalize (⟨language, { config with maxDepth := higher }⟩ : Normalizer).run root = high
    at hsame ⊢
  cases hsame with
  | stopped log hstops =>
      obtain ⟨limit, span, rfl⟩ := hstops
      exact absurd rfl (hshallow limit span)
  | same => exact ⟨rfl, rfl⟩

/-- The unit is five nodes deep.  Under a limit of four it still fails for its raw nodes if it is
taken for another language, because they are left before the fifth level is met. -/
theorem normalize_of_higher_limit_mixedUnit :
    (∃ tree, (⟨.java, { maxDepth := 5 }⟩ : Normalizer).normalize mixedUnit = .ok tree ∧
      (⟨.java, { maxDepth := 4096 }⟩ : Normalizer).normalize mixedUnit = .ok tree) ∧
    (⟨.java, { maxDepth := 4 }⟩ : Normalizer).normalize mixedUnit =
      .error (.tooDeep 4 .dummy) ∧
    (⟨.ecma, { maxDepth := 4 }⟩ : Normalizer).normalize mixedUnit =
      .error (.unmapped (.java .typeInstantiation) .ecma .dummy) ∧
    (⟨.ecma, { maxDepth := 4096 }⟩ : Normalizer).normalize mixedUnit =
      .error (.unmapped (.java .typeInstantiation) .ecma .dummy) := by
  have htest : ((⟨.java, { maxDepth := 5 }⟩ : Normalizer).normalize mixedUnit).toOption.any
      (fun _ => true) = true := by
    decide +kernel
  obtain ⟨tree, hok, -⟩ := exists_normalize_of_any htest
  have hfails : (⟨.ecma, { maxDepth := 4 }⟩ : Normalizer).normalize mixedUnit =
      .error (.unmapped (.java .typeInstantiation) .ecma .dummy) := by
    decide +kernel
  refine ⟨⟨tree, hok, ?_⟩, by decide +kernel, hfails, ?_⟩
  · have hhigher := normalize_of_higher_limit .java {} mixedUnit (show 5 ≤ 4096 by decide)
      (by simp [hok])
    exact hhigher.1.trans hok
  · have hhigher := normalize_of_higher_limit .ecma {} mixedUnit (show 4 ≤ 4096 by decide)
      (by simp [hfails])
    exact hhigher.1.trans hfails

end Normalizer

end CanonTree
