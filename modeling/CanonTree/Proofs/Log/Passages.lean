import CanonTree.Proofs.Failure

/-!
# Passages of a walk and their records

A walk passes each visible node on the way down and, unless it is a placeholder, once more on
the way up.  `Node.passages` lists these passages in the order in which they come.  A
placeholder leaves a record when it is entered, and a raw node of the language one when it is
left, whatever its rule then makes of it.
-/

namespace CanonTree

/-- What a record tells. -/
inductive Record.Kind where
  | opening
  | dropping
  | reducing
  | binding
  | summary
  | batch
deriving DecidableEq

def Record.kind : Record → Kind
  | .openedScope .. => .opening
  | .dropping .. => .dropping
  | .reducing .. => .reducing
  | .binding .. => .binding
  | .normalized .. => .summary
  | .batchStarted .. | .treeFailed .. => .batch

def Record.numberOf (kind : Kind) (log : Array Record) : Nat :=
  log.toList.countP (·.kind = kind)

@[simp]
theorem Record.numberOf_push (kind : Kind) (log : Array Record) (record : Record) :
    numberOf kind (log.push record) = numberOf kind log + if record.kind = kind then 1 else 0 := by
  simp [numberOf, List.countP_cons]

@[simp]
theorem Record.numberOf_append (kind : Kind) (log others : Array Record) :
    numberOf kind (log ++ others) = numberOf kind log + numberOf kind others := by
  simp [numberOf]

theorem Record.numberOf_eq_zero {kind : Kind} {log : Array Record}
    (hnone : ∀ record ∈ log.toList, record.kind ≠ kind) : numberOf kind log = 0 := by
  simpa [numberOf, List.countP_eq_zero] using hnone

/-- A walk comes by a node with the given ancestors, the nearest first. -/
inductive Passage where
  | entering (ancestors : List Node) (node : Node)
  | leaving (ancestors : List Node) (node : Node)

namespace Passage

def entered? : Passage → Option (List Node × Node)
  | .entering ancestors node => some (ancestors, node)
  | .leaving _ _ => none

def leftRaw? : Passage → Option (List Node × Node)
  | .entering _ _ => none
  | .leaving ancestors node => if node.tag.isRaw then some (ancestors, node) else none

/-- What the passage leaves in the log.  A placeholder that is too deep is not reached, and a raw
node of another language is not handed to a rule. -/
def record? (language : Language) (maxDepth : Nat) : Passage → Option Record
  | .entering ancestors node =>
      if ancestors.length < maxDepth && node.tag.isDiscarded then some (.dropping node.span)
      else none
  | .leaving _ node =>
      match node.tag with
      | .raw tag => if tag.owner = language then some (.reducing tag node.span) else none
      | _ => none

/-- Reducing tells of nothing but placeholders and raw nodes of the language. -/
theorem record?_cases {language : Language} {maxDepth : Nat} {passage : Passage}
    {record : Record} (hrecord : passage.record? language maxDepth = some record) :
    (∃ span, record = .dropping span) ∨
      ∃ tag span, tag.owner = language ∧ record = .reducing tag span := by
  cases passage with
  | entering ancestors node =>
      obtain ⟨-, hdropping⟩ := Option.ite_none_right_eq_some.mp hrecord
      cases hdropping
      exact .inl ⟨node.span, rfl⟩
  | leaving ancestors node =>
      simp only [record?] at hrecord
      split at hrecord
      · obtain ⟨howner, hreducing⟩ := Option.ite_none_right_eq_some.mp hrecord
        cases hreducing
        exact .inr ⟨_, _, howner, rfl⟩
      · cases hrecord

/-- The walk goes on after the passage. -/
def Clear (language : Language) (maxDepth : Nat) : Passage → Prop
  | .entering ancestors _ => ancestors.length < maxDepth
  | .leaving ancestors node => node.tag.isRaw = true →
      ∃ produced, Reducing.RuleGives language maxDepth (ancestors, node) (.ok produced)

/-- The walk ends at the passage, with an error. -/
def FailsWith (language : Language) (maxDepth : Nat) (error : NormalizeError) : Passage → Prop
  | .entering ancestors node =>
      maxDepth ≤ ancestors.length ∧ error = .tooDeep maxDepth node.span
  | .leaving ancestors node =>
      Reducing.RuleGives language maxDepth (ancestors, node) (.error error)

end Passage

/-! ## Passages in order -/

namespace Node

mutual

/-- The passages of a tree below the given ancestors; nothing below a placeholder is passed. -/
def passagesBelow (ancestors : List Node) : Node → List Passage
  | ⟨tag, span, text, operator, children, scope⟩ =>
      .entering ancestors ⟨tag, span, text, operator, children, scope⟩ ::
        if tag.isDiscarded then []
        else
          passagesAll (⟨tag, span, text, operator, children, scope⟩ :: ancestors) children ++
            [.leaving ancestors ⟨tag, span, text, operator, children, scope⟩]

def passagesAll (ancestors : List Node) : List Node → List Passage
  | [] => []
  | node :: nodes => passagesBelow ancestors node ++ passagesAll ancestors nodes

end

def passages (root : Node) : List Passage :=
  passagesBelow [] root

theorem passagesBelow_eq (ancestors : List Node) (node : Node) :
    passagesBelow ancestors node =
      .entering ancestors node ::
        if node.tag.isDiscarded then []
        else passagesAll (node :: ancestors) node.children ++ [.leaving ancestors node] := by
  cases node
  rfl

/-- The nodes that are entered are the visible ones, parents first. -/
theorem filterMap_entered? (nodes : List Node) :
    ∀ {ancestors}, (∀ ancestor ∈ ancestors, ancestor.tag.isDiscarded = false) →
      (passagesAll ancestors nodes).filterMap Passage.entered? = visibleAll ancestors nodes := by
  induction nodes using forest_induction with
  | nil =>
      intro ancestors _
      rfl
  | cons node nodes hchildren hnodes =>
      intro ancestors hancestors
      rw [passagesAll, passagesBelow_eq, List.filterMap_append, hnodes hancestors,
        visibleAll_cons hancestors, ← List.cons_append]
      congr 1
      cases hdiscarded : node.tag.isDiscarded with
      | true => rfl
      | false =>
          have hbelow := hchildren (List.forall_mem_cons.mpr ⟨hdiscarded, hancestors⟩)
          simp [Passage.entered?, hbelow]

/-- The raw nodes that are left are the visible ones, children first. -/
theorem filterMap_leftRaw? (nodes : List Node) :
    ∀ {ancestors}, (∀ ancestor ∈ ancestors, ancestor.tag.isDiscarded = false) →
      (passagesAll ancestors nodes).filterMap Passage.leftRaw? =
        rawPostorderAll ancestors nodes := by
  induction nodes using forest_induction with
  | nil =>
      intro ancestors _
      rfl
  | cons node nodes hchildren hnodes =>
      intro ancestors hancestors
      rw [passagesAll, passagesBelow_eq, List.filterMap_append, hnodes hancestors,
        rawPostorderAll_append_cons, rawPostorderAll_singleton hancestors]
      congr 1
      cases hdiscarded : node.tag.isDiscarded with
      | true =>
          rw [rawPostorderAll_of_discarded hdiscarded, Tag.isRaw_of_isDiscarded hdiscarded]
          rfl
      | false =>
          have hbelow := hchildren (List.forall_mem_cons.mpr ⟨hdiscarded, hancestors⟩)
          rw [if_neg Bool.false_ne_true, List.filterMap_cons_none rfl, List.filterMap_append,
            hbelow]
          cases hraw : node.tag.isRaw <;> simp [Passage.leftRaw?, hraw]

theorem filterMap_entered?_passages (root : Node) :
    root.passages.filterMap Passage.entered? = root.visible := by
  simpa [passagesAll, passages, visible] using @filterMap_entered? [root] [] nofun

theorem filterMap_leftRaw?_passages (root : Node) :
    root.passages.filterMap Passage.leftRaw? = root.rawPostorder := by
  simpa [passagesAll, passages, rawPostorder] using @filterMap_leftRaw? [root] [] nofun

end Node

end CanonTree
