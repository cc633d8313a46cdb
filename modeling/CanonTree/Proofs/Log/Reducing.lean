import CanonTree.Proofs.Log.Passages

/-!
# Records of the reducing walk

The first fault ends the reducing walk.  So its log is read off the passages of the tree up to
that fault, or off all of them if there is none, and then it has one record for each placeholder
and one for each raw node that was reduced.
-/

namespace CanonTree

open Node

namespace Reducing

variable {language : Language} {maxDepth : Nat} {before middle after : Reducing}
  {passages others : List Passage} {error : NormalizeError}

/-! ## What a walk leaves in the log -/

/-- The walk went through all passages. -/
structure Passed (language : Language) (maxDepth : Nat) (before after : Reducing)
    (passages : List Passage) : Prop where
  clear : ∀ passage ∈ passages, passage.Clear language maxDepth
  log : after.log.toList = before.log.toList ++ passages.filterMap (·.record? language maxDepth)

/-- The walk went through the passages up to the first that it cannot go on from. -/
def Stopped (language : Language) (maxDepth : Nat) (before after : Reducing)
    (passages : List Passage) (error : NormalizeError) : Prop :=
  ∃ passed fault rest, passages = passed ++ fault :: rest ∧
    (∀ passage ∈ passed, passage.Clear language maxDepth) ∧
    fault.FailsWith language maxDepth error ∧
    after.log.toList =
      before.log.toList ++ (passed ++ [fault]).filterMap (·.record? language maxDepth)

/-- How the walk ended, and with which records. -/
def Ends (language : Language) (maxDepth : Nat) (before : Reducing) (passages : List Passage) :
    Reducing × Except NormalizeError (List Node) → Prop
  | (after, .ok _) => Passed language maxDepth before after passages
  | (after, .error error) => Stopped language maxDepth before after passages error

theorem Passed.append (hfirst : Passed language maxDepth before middle passages)
    (hothers : Passed language maxDepth middle after others) :
    Passed language maxDepth before after (passages ++ others) where
  clear := List.forall_mem_append.mpr ⟨hfirst.clear, hothers.clear⟩
  log := by
    rw [hothers.log, hfirst.log, List.filterMap_append, List.append_assoc]

theorem Passed.stopped (hfirst : Passed language maxDepth before middle passages)
    (hothers : Stopped language maxDepth middle after others error) :
    Stopped language maxDepth before after (passages ++ others) error := by
  obtain ⟨passed, fault, rest, rfl, hclear, hfault, hlog⟩ := hothers
  refine ⟨passages ++ passed, fault, rest, (List.append_assoc ..).symm,
    List.forall_mem_append.mpr ⟨hfirst.clear, hclear⟩, hfault, ?_⟩
  rw [hlog, hfirst.log, List.append_assoc, List.append_assoc, ← List.filterMap_append]

theorem Stopped.append (hstopped : Stopped language maxDepth before after passages error)
    (others : List Passage) :
    Stopped language maxDepth before after (passages ++ others) error := by
  obtain ⟨passed, fault, rest, rfl, hclear, hfault, hlog⟩ := hstopped
  exact ⟨passed, fault, rest ++ others, by rw [List.append_assoc]; rfl, hclear, hfault, hlog⟩

/-- A walk that goes on after some passages ends as its rest does. -/
theorem Passed.ends {outcome : Reducing × Except NormalizeError (List Node)}
    (hfirst : Passed language maxDepth before middle passages)
    (hothers : Ends language maxDepth middle others outcome) :
    Ends language maxDepth before (passages ++ others) outcome := by
  obtain ⟨after, error | results⟩ := outcome
  · exact hfirst.stopped hothers
  · exact hfirst.append hothers

/-! ## One node -/

/-- A walk gives what the recursion gives. -/
theorem yields_of_visitAll {depth : Nat} {nodes results : List Node}
    (hvisit : (walk language maxDepth).visitAll depth before nodes = (after, .ok results)) :
    Yields language maxDepth depth nodes results := by
  have hcounted := counted_visitAll language maxDepth nodes depth before
  rw [hvisit] at hcounted
  exact ⟨before.tally, after.tally, hcounted.symm⟩

/-- Leaving a node whose children are reduced: a raw one is handed to its rule, which is recorded
first. -/
theorem ends_leave (ancestors : List Node) (node : Node) {results : List Node}
    (hbelow : Yields language maxDepth (ancestors.length + 2) node.children results)
    (context : Nat) (state : Reducing) :
    Ends language maxDepth state [.leaving ancestors node]
      ((walk language maxDepth).leave context node results state) := by
  obtain ⟨tag, span, text, operator, children, scope⟩ := node
  cases tag with
  | raw tag =>
      simp only [walk]
      split
      · rename_i howner
        split
        · rename_i error hrule
          refine ⟨[], _, [], rfl, List.forall_mem_nil _, ⟨tag, results, rfl, hbelow, hrule⟩, ?_⟩
          simp [Passage.record?, howner]
        · rename_i produced hrule
          refine ⟨List.forall_mem_singleton.mpr fun _ => ?_, by simp [Passage.record?, howner]⟩
          exact ⟨produced, tag, results, rfl, hbelow, hrule⟩
      · rename_i howner
        refine ⟨[], _, [], rfl, List.forall_mem_nil _, ⟨tag, results, rfl, hbelow, ?_⟩, ?_⟩
        · exact Rule.reduce_of_owner_ne howner
        · simp [Passage.record?, howner]
  | shared tag =>
      exact ⟨by simp [Passage.Clear, Tag.isRaw_eq_false], by simp [Passage.record?]⟩
  | java tag =>
      exact ⟨by simp [Passage.Clear, Tag.isRaw_eq_false], by simp [Passage.record?]⟩

/-- A walk through several trees, at the depth that their ancestors give them. -/
def EndsAll (language : Language) (maxDepth : Nat) (nodes : List Node) : Prop :=
  ∀ (ancestors : List Node) (state : Reducing),
    Ends language maxDepth state (passagesAll ancestors nodes)
      ((walk language maxDepth).visitAll (ancestors.length + 1) state nodes)

theorem ends_visit {node : Node} (hchildren : EndsAll language maxDepth node.children)
    (ancestors : List Node) (state : Reducing) :
    Ends language maxDepth state (passagesBelow ancestors node)
      ((walk language maxDepth).visit (ancestors.length + 1) state node) := by
  rw [Walk.visit_eq, passagesBelow_eq]
  by_cases hdeep : maxDepth < ancestors.length + 1
  · -- the limit is checked before anything else, and nothing is recorded
    simp only [walk, hdeep, if_true]
    refine ⟨[], _, _, rfl, List.forall_mem_nil _, ⟨by omega, rfl⟩, ?_⟩
    have hbound : ¬ancestors.length < maxDepth := by omega
    simp [Passage.record?, hbound]
  have hbound : ancestors.length < maxDepth := by omega
  cases hdiscarded : node.tag.isDiscarded with
  | true =>
      simp only [walk, hdeep, hdiscarded, if_true, if_false]
      refine ⟨List.forall_mem_singleton.mpr hbound, ?_⟩
      simp [Passage.record?, hbound, hdiscarded]
  | false =>
      have hentered : Passed language maxDepth state { state with visited := state.visited + 1 }
          [.entering ancestors node] := by
        refine ⟨List.forall_mem_singleton.mpr hbound, ?_⟩
        simp [Passage.record?, hdiscarded]
      have henter : (walk language maxDepth).enter (ancestors.length + 1) node state =
          ({ state with visited := state.visited + 1 }, .ok (some (ancestors.length + 2))) := by
        simp [walk, hdeep, hdiscarded]
      have hbelow := hchildren (node :: ancestors) { state with visited := state.visited + 1 }
      simp only [henter, Bool.false_eq_true, if_false]
      rw [List.length_cons] at hbelow
      generalize hvisit : (walk language maxDepth).visitAll (ancestors.length + 2)
        { state with visited := state.visited + 1 } node.children = outcome at hbelow
      obtain ⟨below, error | results⟩ := outcome
      · exact hentered.stopped (hbelow.append _)
      · exact hentered.ends (hbelow.ends
          (ends_leave ancestors node (yields_of_visitAll hvisit) _ below))

theorem endsAll (language : Language) (maxDepth : Nat) (nodes : List Node) :
    EndsAll language maxDepth nodes := by
  induction nodes using forest_induction with
  | nil =>
      intro ancestors state
      exact ⟨nofun, (List.append_nil _).symm⟩
  | cons node nodes hchildren hnodes =>
      intro ancestors state
      have hfirst := ends_visit hchildren ancestors state
      rw [Walk.visitAll, passagesAll]
      generalize (walk language maxDepth).visit (ancestors.length + 1) state node = outcome
        at hfirst
      obtain ⟨middle, error | first⟩ := outcome
      · exact hfirst.append _
      · have hothers := hfirst.ends (hnodes ancestors middle)
        dsimp only
        generalize (walk language maxDepth).visitAll (ancestors.length + 1) middle nodes = rest
          at hothers ⊢
        obtain ⟨after, error | others⟩ := rest
        · exact hothers
        · exact hothers

/-! ## The whole walk -/

/-- A walk through a whole tree, whatever is left of the tree. -/
theorem ends_runTree (language : Language) (maxDepth : Nat) (root : Node) :
    Ends language maxDepth {} root.passages ((walk language maxDepth).runTree 1 {} root) := by
  rw [Walk.runTree_eq_visit]
  exact ends_visit (endsAll language maxDepth root.children) [] {}

/-- A tree that is reduced was passed through as a whole. -/
theorem passed_run {root reduced : Node} {state : Reducing}
    (hrun : run language maxDepth root = (state, .ok reduced)) :
    Passed language maxDepth {} state root.passages := by
  have hends := ends_runTree language maxDepth root
  rw [run] at hrun
  split at hrun
  · rename_i after nodes hwalk
    rw [hwalk] at hends
    obtain ⟨rfl, -⟩ := Prod.mk.inj hrun
    exact hends
  · cases hrun

/-- A tree that is not reduced was passed through up to its first fault, or as a whole if nothing
is left of it. -/
theorem stopped_run {root : Node} {state : Reducing}
    (hrun : run language maxDepth root = (state, .error error)) :
    Stopped language maxDepth {} state root.passages error ∨
      (error = .discardedRoot root.span ∧ root.tag.isDiscarded = true ∧
        Passed language maxDepth {} state root.passages) := by
  have hends := ends_runTree language maxDepth root
  have hreduce := counted_visit language maxDepth 1 {} root
  rw [run] at hrun
  rw [← Walk.runTree_eq_visit] at hreduce
  split at hrun
  · rename_i after nodes hwalk
    rw [hwalk] at hends hreduce
    obtain _ | ⟨node, _ | ⟨other, nodes⟩⟩ := nodes
    · cases hrun
      exact .inr ⟨rfl, (isDiscarded_of_reduceTree hreduce.symm).1, hends⟩
    · cases hrun
    · cases hrun
  · rename_i after fault hwalk
    rw [hwalk] at hends
    cases hrun
    exact .inl hends

/-! ## Where the walk ended -/

/-- A raw node that its rule rejects is recorded last. -/
theorem Stopped.malformed {tag : RawTag} {span : Span} {defect : Defect}
    (hstopped : Stopped language maxDepth before after passages (.malformed tag span defect)) :
    ∃ passed ancestors node rest, passages = passed ++ .leaving ancestors node :: rest ∧
      node.tag = .raw tag ∧ node.span = span ∧
      after.log.toList = before.log.toList ++
        passed.filterMap (·.record? language maxDepth) ++ [.reducing tag span] := by
  obtain ⟨passed, fault, rest, hsplit, -, hfault, hlog⟩ := hstopped
  cases fault with
  | entering ancestors node => cases hfault.2
  | leaving ancestors node =>
      obtain ⟨tag, htag, ⟨-, herror⟩ | ⟨howner, defect, herror⟩⟩ := RuleGives.error_cases hfault
      · cases herror
      · cases herror
        have hrecord : Passage.record? language maxDepth (.leaving ancestors node) =
            some (.reducing tag node.span) := by
          simp only [Passage.record?, show node.tag = .raw tag from htag, howner, if_true]
        refine ⟨passed, ancestors, node, rest, hsplit, htag, rfl, ?_⟩
        rw [hlog, List.filterMap_append, List.filterMap_cons_some hrecord, List.append_assoc]
        rfl

/-- A raw node of another language is not recorded. -/
theorem Stopped.unmapped {tag : RawTag} {other : Language} {span : Span}
    (hstopped : Stopped language maxDepth before after passages (.unmapped tag other span)) :
    tag.owner ≠ language ∧
      ∃ passed ancestors node rest, passages = passed ++ .leaving ancestors node :: rest ∧
        node.tag = .raw tag ∧ node.span = span ∧
        after.log.toList = before.log.toList ++ passed.filterMap (·.record? language maxDepth) := by
  obtain ⟨passed, fault, rest, hsplit, -, hfault, hlog⟩ := hstopped
  cases fault with
  | entering ancestors node => cases hfault.2
  | leaving ancestors node =>
      obtain ⟨tag, htag, ⟨howner, herror⟩ | ⟨-, defect, herror⟩⟩ := RuleGives.error_cases hfault
      · cases herror
        have hrecord : Passage.record? language maxDepth (.leaving ancestors node) = none := by
          simp only [Passage.record?, show node.tag = .raw tag from htag, howner, if_false]
        refine ⟨howner, passed, ancestors, node, rest, hsplit, htag, rfl, ?_⟩
        rw [hlog, List.filterMap_append, List.filterMap_cons_none hrecord, List.filterMap_nil,
          List.append_nil]
      · cases herror

/-! ## Numbers of records -/

theorem Passed.numberOf_other {kind : Record.Kind}
    (hpassed : Passed language maxDepth {} after passages) (hdropping : kind ≠ .dropping)
    (hreducing : kind ≠ .reducing) : Record.numberOf kind after.log = 0 := by
  apply Record.numberOf_eq_zero
  intro record hrecord hkind
  rw [hpassed.log, List.mem_append, List.mem_filterMap] at hrecord
  obtain hbefore | ⟨passage, -, hpassage⟩ := hrecord
  · cases hbefore
  obtain ⟨span, rfl⟩ | ⟨tag, span, -, rfl⟩ := Passage.record?_cases hpassage
  · exact hdropping hkind.symm
  · exact hreducing hkind.symm

/-- A walk that goes through leaves one record for each placeholder. -/
theorem Passed.numberOf_dropping {root : Node}
    (hpassed : Passed language maxDepth {} after root.passages) :
    Record.numberOf .dropping after.log = root.visible.countP (·.2.tag.isDiscarded) := by
  rw [Record.numberOf, hpassed.log, ← filterMap_entered?_passages]
  simp only [List.nil_append, List.countP_filterMap]
  apply List.countP_congr
  intro passage hmem
  have hclear := hpassed.clear passage hmem
  cases passage with
  | entering ancestors node =>
      cases hdiscarded : node.tag.isDiscarded <;>
        simp_all [Passage.Clear, Passage.record?, Passage.entered?, Record.kind]
  | leaving ancestors node =>
      simp only [Passage.entered?, Passage.record?]
      split
      · split <;> simp [Record.kind]
      · simp

theorem owner_of_clear {ancestors : List Node} {node : Node} {tag : RawTag}
    (hclear : (Passage.leaving ancestors node).Clear language maxDepth)
    (htag : node.tag = .raw tag) : tag.owner = language := by
  have hraw : node.tag.isRaw = true := by
    rw [htag]
    exact (Tag.flags_raw tag).1
  obtain ⟨produced, hproduced⟩ := hclear hraw
  by_contra howner
  have hforeign : node.isForeign language = true := isForeign_iff.mpr ⟨tag, htag, howner⟩
  rw [hproduced.isForeign_eq_false] at hforeign
  cases hforeign

/-- A walk that goes through leaves one record for each raw node. -/
theorem Passed.numberOf_reducing {root : Node}
    (hpassed : Passed language maxDepth {} after root.passages) :
    Record.numberOf .reducing after.log = root.visible.countP (·.2.tag.isRaw) := by
  have hraw : root.visible.countP (·.2.tag.isRaw) = root.passages.countP (·.leftRaw?.isSome) := by
    rw [← List.length_filterMap_eq_countP, filterMap_leftRaw?_passages,
      List.countP_eq_length_filter]
    exact (rawPostorderAll_perm [] [root]).length_eq.symm
  rw [Record.numberOf, hpassed.log, hraw]
  simp only [List.nil_append, List.countP_filterMap]
  apply List.countP_congr
  intro passage hmem
  have hclear := hpassed.clear passage hmem
  cases passage with
  | entering ancestors node =>
      simp only [Passage.leftRaw?, Passage.record?]
      split <;> simp [Record.kind]
  | leaving ancestors node =>
      cases htag : node.tag with
      | raw tag =>
          have howner := owner_of_clear hclear htag
          simp [Passage.leftRaw?, Passage.record?, htag, howner, Tag.flags_raw, Record.kind]
      | shared tag => simp [Passage.leftRaw?, Passage.record?, htag, Tag.isRaw_eq_false]
      | java tag => simp [Passage.leftRaw?, Passage.record?, htag, Tag.isRaw_eq_false]

end Reducing

end CanonTree
