import CanonTree.Proofs.Conservation

/-!
# Where a tree fails

A node is visible if no placeholder stands above it.  Reducing enters the visible nodes
parents first, and there it may find that the tree is too deep; it leaves those that are no
placeholders children first, and there a raw node may be found to belong to another
language or to be malformed.  `Fails` follows the walk to the first fault: what stands
before it, in the order of entering as in the order of leaving, is without fault.  So the
error names the first node that is too deep, or the first raw node that cannot be
reduced, and nothing below a placeholder can be at fault.
-/

namespace CanonTree

namespace Node

/-! ## Leaving order -/

mutual

/-- The nodes of a tree below the given ancestors, each with its own ancestors, the nearest
first; children first and siblings in order. -/
def postorderBelow (ancestors : List Node) : Node → List (List Node × Node)
  | ⟨tag, span, text, operator, children, scope⟩ =>
      postorderAll (⟨tag, span, text, operator, children, scope⟩ :: ancestors) children ++
        [(ancestors, ⟨tag, span, text, operator, children, scope⟩)]

def postorderAll (ancestors : List Node) : List Node → List (List Node × Node)
  | [] => []
  | node :: nodes => postorderBelow ancestors node ++ postorderAll ancestors nodes

end

theorem postorderBelow_eq (ancestors : List Node) (node : Node) :
    postorderBelow ancestors node =
      postorderAll (node :: ancestors) node.children ++ [(ancestors, node)] := by
  cases node
  rfl

/-- Children first or parents first, the nodes are the same. -/
theorem postorderAll_perm (nodes : List Node) :
    ∀ ancestors, (postorderAll ancestors nodes).Perm (lineageAll ancestors nodes) := by
  induction nodes using forest_induction with
  | nil => exact fun ancestors => .refl _
  | cons node nodes hchildren hnodes =>
      intro ancestors
      rw [postorderAll, lineageAll, postorderBelow_eq, lineageBelow_eq]
      refine List.Perm.append ?_ (hnodes ancestors)
      exact (List.perm_append_singleton _ _).trans ((hchildren (node :: ancestors)).cons _)

/-- The visible nodes of a tree, each with its ancestors, parents first. -/
def visible (root : Node) : List (List Node × Node) :=
  visibleAll [] [root]

def rawPostorderAll (ancestors nodes : List Node) : List (List Node × Node) :=
  (postorderAll ancestors nodes).filter fun entry =>
    entry.1.all (!·.tag.isDiscarded) && entry.2.tag.isRaw

/-- The visible raw nodes of a tree, each with its ancestors, children first. -/
def rawPostorder (root : Node) : List (List Node × Node) :=
  rawPostorderAll [] [root]

def isForeign (language : Language) (node : Node) : Bool :=
  node.rawTag?.any (·.owner != language)

theorem isForeign_iff {language : Language} {node : Node} :
    node.isForeign language = true ↔ ∃ tag, node.tag = .raw tag ∧ tag.owner ≠ language := by
  rw [isForeign, rawTag?]
  cases node.tag <;> simp [Tag.raw?]

theorem rawPostorderAll_perm (ancestors nodes : List Node) :
    (rawPostorderAll ancestors nodes).Perm
      ((visibleAll ancestors nodes).filter (·.2.tag.isRaw)) := by
  rw [visibleAll, List.filter_filter]
  refine ((postorderAll_perm nodes ancestors).filter _).trans (.of_eq ?_)
  simp only [Bool.and_comm]

theorem visibleAll_append_cons (ancestors : List Node) (node : Node) (nodes : List Node) :
    visibleAll ancestors (node :: nodes) =
      visibleAll ancestors [node] ++ visibleAll ancestors nodes := by
  simp only [visibleAll, lineageAll, List.append_nil, List.filter_append]

theorem rawPostorderAll_append_cons (ancestors : List Node) (node : Node) (nodes : List Node) :
    rawPostorderAll ancestors (node :: nodes) =
      rawPostorderAll ancestors [node] ++ rawPostorderAll ancestors nodes := by
  simp only [rawPostorderAll, postorderAll, List.append_nil, List.filter_append]

/-- A raw node is left after the raw nodes below it. -/
theorem rawPostorderAll_singleton {ancestors : List Node}
    (hancestors : ∀ ancestor ∈ ancestors, ancestor.tag.isDiscarded = false) (node : Node) :
    rawPostorderAll ancestors [node] =
      rawPostorderAll (node :: ancestors) node.children ++
        if node.tag.isRaw then [(ancestors, node)] else [] := by
  have hvisible : ancestors.all (!·.tag.isDiscarded) = true := by
    simpa using hancestors
  rw [rawPostorderAll, postorderAll, postorderAll, List.append_nil, postorderBelow_eq,
    List.filter_append, List.filter_singleton, hvisible, Bool.true_and]
  cases node.tag.isRaw <;> rfl

theorem rawPostorderAll_of_discarded {node : Node} (hdiscarded : node.tag.isDiscarded = true)
    (ancestors : List Node) : rawPostorderAll (node :: ancestors) node.children = [] := by
  have hperm := rawPostorderAll_perm (node :: ancestors) node.children
  rw [visibleAll_of_discarded node.children ⟨node, List.mem_cons_self, hdiscarded⟩] at hperm
  exact hperm.eq_nil

end Node

open Node

namespace Reducing

variable {language : Language} {maxDepth depth : Nat} {node : Node} {nodes results : List Node}
  {error : NormalizeError}

/-! ## Forests without fault -/

/-- Trees at the given depth are reduced to these nodes. -/
def Yields (language : Language) (maxDepth depth : Nat) (nodes results : List Node) : Prop :=
  ∃ before after, reduceTrees language maxDepth depth before nodes = (after, .ok results)

/-- The children of the raw node are reduced, and its rule then comes to this outcome. -/
def RuleGives (language : Language) (maxDepth : Nat) (entry : List Node × Node)
    (outcome : Except NormalizeError (List Node)) : Prop :=
  ∃ tag below, entry.2.tag = .raw tag ∧
    Yields language maxDepth (entry.1.length + 2) entry.2.children below ∧
    Rule.reduce language tag { entry.2 with children := below } = outcome

/-- No visible node is too deep, and every visible raw node is reduced. -/
structure Faultless (language : Language) (maxDepth : Nat) (ancestors nodes : List Node) :
    Prop where
  shallow : ∀ entry ∈ visibleAll ancestors nodes, entry.1.length < maxDepth
  rewritten : ∀ entry ∈ rawPostorderAll ancestors nodes,
    ∃ produced, RuleGives language maxDepth entry (.ok produced)

theorem Faultless.append {ancestors : List Node}
    (hnode : Faultless language maxDepth ancestors [node])
    (hnodes : Faultless language maxDepth ancestors nodes) :
    Faultless language maxDepth ancestors (node :: nodes) where
  shallow := by
    rw [visibleAll_append_cons]
    exact List.forall_mem_append.mpr ⟨hnode.shallow, hnodes.shallow⟩
  rewritten := by
    rw [rawPostorderAll_append_cons]
    exact List.forall_mem_append.mpr ⟨hnode.rewritten, hnodes.rewritten⟩

/-- A forest is reduced tree by tree. -/
theorem Yields.cons (hyields : Yields language maxDepth depth (node :: nodes) results) :
    ∃ first others, Yields language maxDepth depth [node] first ∧
      Yields language maxDepth depth nodes others := by
  obtain ⟨before, after, hreduce⟩ := hyields
  obtain ⟨middle, first, others, hfirst, hothers, -⟩ := reduceTrees_cons_ok hreduce
  rw [← reduceTrees_singleton] at hfirst
  exact ⟨first, others, ⟨before, middle, hfirst⟩, middle, after, hothers⟩

/-- A tree is reduced from its children on. -/
theorem Yields.singleton (hyields : Yields language maxDepth depth [node] results) :
    depth ≤ maxDepth ∧ (node.tag.isDiscarded = false →
      ∃ below, Yields language maxDepth (depth + 1) node.children below ∧
        ∀ tag, node.tag = .raw tag →
          ∃ produced, Rule.reduce language tag { node with children := below } = .ok produced) := by
  obtain ⟨before, after, hreduce⟩ := hyields
  obtain ⟨_, first, _, hfirst, -, -⟩ := reduceTrees_cons_ok hreduce
  obtain ⟨hdepth, ⟨hdiscarded, -, -⟩ | ⟨-, _, below, hbelow, hsettle⟩⟩ := reduceTree_ok hfirst
  · refine ⟨hdepth, fun hvisible => ?_⟩
    rw [hdiscarded] at hvisible
    cases hvisible
  · refine ⟨hdepth, fun _ => ⟨below, ⟨_, _, hbelow⟩, ?_⟩⟩
    intro tag htag
    obtain ⟨tag', htag', hrule, -⟩ | ⟨hkept, -, -⟩ := settle_ok hsettle
    · cases htag.symm.trans htag'
      exact ⟨_, hrule⟩
    · exact absurd htag (hkept tag)

/-- A tree whose children are without fault is so itself. -/
theorem faultless_singleton {ancestors : List Node}
    (hancestors : ∀ ancestor ∈ ancestors, ancestor.tag.isDiscarded = false)
    (hyields : Yields language maxDepth (ancestors.length + 1) [node] results)
    (hchildren : node.tag.isDiscarded = false →
      Faultless language maxDepth (node :: ancestors) node.children) :
    Faultless language maxDepth ancestors [node] := by
  obtain ⟨hdepth, hbelow⟩ := hyields.singleton
  constructor
  case shallow =>
    rw [visibleAll_cons hancestors, List.forall_mem_cons]
    refine ⟨Nat.lt_of_succ_le hdepth, ?_⟩
    cases hdiscarded : node.tag.isDiscarded with
    | true => simp [visibleAll, lineageAll]
    | false =>
        intro entry hentry
        rw [if_neg Bool.false_ne_true, visibleAll.eq_def ancestors [], lineageAll,
          List.filter_nil, List.append_nil] at hentry
        exact (hchildren hdiscarded).shallow entry hentry
  case rewritten =>
    rw [rawPostorderAll_singleton hancestors]
    cases hdiscarded : node.tag.isDiscarded with
    | true =>
        rw [rawPostorderAll_of_discarded hdiscarded, Tag.isRaw_of_isDiscarded hdiscarded]
        simp
    | false =>
        refine List.forall_mem_append.mpr ⟨(hchildren hdiscarded).rewritten, ?_⟩
        intro entry hentry
        obtain ⟨below, hyieldsBelow, hrule⟩ := hbelow hdiscarded
        cases hraw : node.tag with
        | raw tag =>
            rw [hraw, if_pos (Tag.flags_raw tag).1, List.mem_singleton] at hentry
            obtain ⟨produced, hproduced⟩ := hrule tag hraw
            exact ⟨produced, by rw [hentry]; exact ⟨tag, below, hraw, hyieldsBelow, hproduced⟩⟩
        | shared tag =>
            rw [hraw, Tag.isRaw_eq_false (by simp)] at hentry
            cases hentry
        | java tag =>
            rw [hraw, Tag.isRaw_eq_false (by simp)] at hentry
            cases hentry

/-- A forest that is reduced is without fault. -/
theorem faultless_of_yields (nodes : List Node) :
    ∀ {ancestors results}, (∀ ancestor ∈ ancestors, ancestor.tag.isDiscarded = false) →
      Yields language maxDepth (ancestors.length + 1) nodes results →
      Faultless language maxDepth ancestors nodes := by
  induction nodes using forest_induction with
  | nil =>
      intro ancestors results _ _
      exact ⟨nofun, nofun⟩
  | cons node nodes hchildren hnodes =>
      intro ancestors results hancestors hyields
      obtain ⟨first, others, hfirst, hothers⟩ := hyields.cons
      refine .append (faultless_singleton hancestors hfirst ?_) (hnodes hancestors hothers)
      intro hdiscarded
      obtain ⟨below, hbelow, -⟩ := hfirst.singleton.2 hdiscarded
      exact hchildren (List.forall_mem_cons.mpr ⟨hdiscarded, hancestors⟩) hbelow

/-! ## The first fault -/

/-- Reducing trees at the given depth ends with this error. -/
inductive Fails (language : Language) (maxDepth : Nat) :
    Nat → List Node → NormalizeError → Prop where
  | tooDeep {depth : Nat} {node : Node} {nodes : List Node} (hdepth : maxDepth < depth) :
      Fails language maxDepth depth (node :: nodes) (.tooDeep maxDepth node.span)
  | inside {depth : Nat} {node : Node} {nodes : List Node} {error : NormalizeError}
      (hdepth : depth ≤ maxDepth) (hvisible : node.tag.isDiscarded = false)
      (hbelow : Fails language maxDepth (depth + 1) node.children error) :
      Fails language maxDepth depth (node :: nodes) error
  | rejected {depth : Nat} {tag : RawTag} {node : Node} {nodes below : List Node}
      {error : NormalizeError} (hdepth : depth ≤ maxDepth) (htag : node.tag = .raw tag)
      (hbelow : Yields language maxDepth (depth + 1) node.children below)
      (hrule : Rule.reduce language tag { node with children := below } = .error error) :
      Fails language maxDepth depth (node :: nodes) error
  | later {depth : Nat} {node : Node} {nodes first : List Node} {error : NormalizeError}
      (hfirst : Yields language maxDepth depth [node] first)
      (hlater : Fails language maxDepth depth nodes error) :
      Fails language maxDepth depth (node :: nodes) error

/-- A walk that ends with an error met a fault that nothing before it had. -/
theorem fails_of_reduceTrees (nodes : List Node) :
    ∀ {depth before after error},
      reduceTrees language maxDepth depth before nodes = (after, .error error) →
        Fails language maxDepth depth nodes error := by
  induction nodes using forest_induction with
  | nil =>
      intro depth before after error hreduce
      cases hreduce
  | cons node nodes hchildren hnodes =>
      intro depth before after error hreduce
      obtain hfirst | ⟨middle, first, hfirst, hothers⟩ := reduceTrees_cons_error hreduce
      · obtain ⟨hdepth, rfl⟩ | ⟨hdepth, hvisible, hbelow | ⟨_, below, hbelow, hsettle⟩⟩ :=
          reduceTree_error hfirst
        · exact .tooDeep hdepth
        · exact .inside hdepth hvisible (hchildren hbelow)
        · obtain ⟨tag, htag, hrule⟩ := settle_error hsettle
          exact .rejected hdepth htag ⟨_, _, hbelow⟩ hrule
      · rw [← reduceTrees_singleton] at hfirst
        exact .later ⟨before, middle, hfirst⟩ (hnodes hothers)

/-- The error of the first visible node just below the greatest depth, or of the first visible raw
node that its rule does not accept. -/
inductive FirstFault (language : Language) (maxDepth : Nat) (ancestors nodes : List Node) :
    NormalizeError → Prop where
  | tooDeep {entry : List Node × Node}
      (hfirst : (visibleAll ancestors nodes).find? (·.1.length == maxDepth) = some entry) :
      FirstFault language maxDepth ancestors nodes (.tooDeep maxDepth entry.2.span)
  | rejected {before after : List (List Node × Node)} {entry : List Node × Node}
      {error : NormalizeError}
      (hsplit : rawPostorderAll ancestors nodes = before ++ entry :: after)
      (hbefore : ∀ earlier ∈ before,
        ∃ produced, RuleGives language maxDepth earlier (.ok produced))
      (hentry : RuleGives language maxDepth entry (.error error)) :
      FirstFault language maxDepth ancestors nodes error

section FirstFault

variable {ancestors : List Node}
  (hancestors : ∀ ancestor ∈ ancestors, ancestor.tag.isDiscarded = false)

include hancestors

/-- The first fault below a node that is not too deep is the first fault of its tree, and of all
trees from it on. -/
theorem FirstFault.of_children (hlength : ancestors.length < maxDepth)
    (hvisible : node.tag.isDiscarded = false)
    (hfault : FirstFault language maxDepth (node :: ancestors) node.children error) :
    FirstFault language maxDepth ancestors (node :: nodes) error := by
  cases hfault with
  | tooDeep hfirst =>
      apply FirstFault.tooDeep
      rw [visibleAll_cons hancestors, List.find?_cons_of_neg (by simp; omega), hvisible,
        if_neg Bool.false_ne_true, List.find?_append, hfirst]
      rfl
  | @rejected before after entry _ hsplit hbefore hentry =>
      have hwhole : rawPostorderAll ancestors (node :: nodes) =
          before ++ entry :: (after ++ ((if node.tag.isRaw then [(ancestors, node)] else []) ++
            rawPostorderAll ancestors nodes)) := by
        simp only [rawPostorderAll_append_cons ancestors node nodes,
          rawPostorderAll_singleton hancestors, hsplit, List.append_assoc, List.cons_append]
      exact .rejected hwhole hbefore hentry

omit hancestors in
/-- The first fault behind a tree without fault is the first fault from that tree on. -/
theorem FirstFault.of_later (hfaultless : Faultless language maxDepth ancestors [node])
    (hfault : FirstFault language maxDepth ancestors nodes error) :
    FirstFault language maxDepth ancestors (node :: nodes) error := by
  cases hfault with
  | tooDeep hfirst =>
      have hnone : (visibleAll ancestors [node]).find? (·.1.length == maxDepth) = none := by
        rw [List.find?_eq_none]
        intro entry hentry
        have hshallow := hfaultless.shallow entry hentry
        simp only [beq_iff_eq]
        omega
      apply FirstFault.tooDeep
      rw [visibleAll_append_cons, List.find?_append, hnone, hfirst]
      rfl
  | @rejected before after entry _ hsplit hbefore hentry =>
      have hwhole : rawPostorderAll ancestors (node :: nodes) =
          (rawPostorderAll ancestors [node] ++ before) ++ entry :: after := by
        rw [rawPostorderAll_append_cons, hsplit, List.append_assoc]
      exact .rejected hwhole (List.forall_mem_append.mpr ⟨hfaultless.rewritten, hbefore⟩) hentry

/-- A raw node that its rule rejects is the first fault, if there is none below it. -/
theorem firstFault_of_reduce {tag : RawTag} {below : List Node} (htag : node.tag = .raw tag)
    (hbelow : Yields language maxDepth (ancestors.length + 2) node.children below)
    (hrule : Rule.reduce language tag { node with children := below } = .error error) :
    FirstFault language maxDepth ancestors (node :: nodes) error := by
  obtain ⟨hraw, hvisible⟩ := Tag.flags_raw tag
  rw [← htag] at hraw hvisible
  have hfaultless : Faultless language maxDepth (node :: ancestors) node.children :=
    faultless_of_yields node.children (List.forall_mem_cons.mpr ⟨hvisible, hancestors⟩) hbelow
  have hwhole : rawPostorderAll ancestors (node :: nodes) =
      rawPostorderAll (node :: ancestors) node.children ++
        (ancestors, node) :: rawPostorderAll ancestors nodes := by
    rw [rawPostorderAll_append_cons, rawPostorderAll_singleton hancestors, if_pos hraw,
      List.append_assoc]
    rfl
  have hnode : RuleGives language maxDepth (ancestors, node) (.error error) :=
    ⟨tag, below, htag, hbelow, hrule⟩
  exact .rejected hwhole hfaultless.rewritten hnode

end FirstFault

theorem Fails.firstFault (hfails : Fails language maxDepth depth nodes error) :
    ∀ ancestors : List Node, (∀ ancestor ∈ ancestors, ancestor.tag.isDiscarded = false) →
      ancestors.length + 1 = depth → depth ≤ maxDepth + 1 →
      FirstFault language maxDepth ancestors nodes error := by
  induction hfails with
  | @tooDeep depth node nodes hdepth =>
      intro ancestors hancestors hlength hbound
      have hhere : ancestors.length = maxDepth := by omega
      apply @FirstFault.tooDeep _ _ _ _ (ancestors, node)
      rw [visibleAll_cons hancestors, List.find?_cons_of_pos (by simpa using hhere)]
  | inside hdepth hvisible _ ih =>
      intro ancestors hancestors hlength hbound
      refine .of_children hancestors (by omega) hvisible (ih _ ?_ (by simp; omega) (by omega))
      exact List.forall_mem_cons.mpr ⟨hvisible, hancestors⟩
  | rejected hdepth htag hbelow hrule =>
      intro ancestors hancestors hlength hbound
      subst hlength
      exact firstFault_of_reduce hancestors htag hbelow hrule
  | later hfirst _ ih =>
      intro ancestors hancestors hlength hbound
      have hfault := ih ancestors hancestors hlength hbound
      subst hlength
      exact hfault.of_later (faultless_of_yields _ hancestors hfirst)

/-- A tree that is reduced to nothing is a placeholder that is not too deep. -/
theorem isDiscarded_of_reduceTree {before after : Tally}
    (hreduce : reduceTree language maxDepth depth before node = (after, .ok [])) :
    node.tag.isDiscarded = true ∧ depth ≤ maxDepth := by
  obtain ⟨hdepth, ⟨hdiscarded, -, -⟩ | ⟨-, _, below, -, hsettle⟩⟩ := reduceTree_ok hreduce
  · exact ⟨hdiscarded, hdepth⟩
  · obtain ⟨tag, -, hrule, -⟩ | ⟨-, hkept, -⟩ := settle_ok hsettle
    · obtain ⟨result, hresult, -⟩ := Rule.reduce_head hrule
      cases hresult
    · cases hkept

/-- The error of a raw node says whether it is of another language or malformed. -/
theorem RuleGives.error_cases {entry : List Node × Node}
    (hentry : RuleGives language maxDepth entry (.error error)) :
    ∃ tag, entry.2.tag = .raw tag ∧
      ((tag.owner ≠ language ∧ error = .unmapped tag language entry.2.span) ∨
        (tag.owner = language ∧ ∃ defect, error = .malformed tag entry.2.span defect)) := by
  obtain ⟨tag, below, htag, -, hrule⟩ := hentry
  have hcases := Rule.reduce_error hrule
  exact ⟨tag, htag, hcases⟩

/-- A raw node that was reduced is of the language. -/
theorem RuleGives.isForeign_eq_false {entry : List Node × Node} {produced : List Node}
    (hentry : RuleGives language maxDepth entry (.ok produced)) :
    entry.2.isForeign language = false := by
  obtain ⟨tag, below, htag, -, hrule⟩ := hentry
  rw [← Bool.not_eq_true, isForeign_iff]
  rintro ⟨foreign, hforeign, howner⟩
  cases htag.symm.trans hforeign
  rw [Rule.reduce_of_owner_ne howner] at hrule
  cases hrule

end Reducing

/-! ## Normalizing -/

namespace Normalizer

open Reducing

variable {normalizer : Normalizer} {root : Node}

theorem faultless_of_normalize {tree : CanonicalTree} (hok : normalizer.normalize root = .ok tree) :
    Faultless normalizer.language normalizer.config.maxDepth [] [root] := by
  obtain ⟨state, reduced, hrun, -⟩ := normalize_ok_iff.mp hok
  have hyields : Yields normalizer.language normalizer.config.maxDepth 1 [root] [reduced] :=
    ⟨{}, state.tally, by rw [reduceTrees_singleton, reduceTree_of_run hrun]⟩
  exact faultless_of_yields [root] (List.forall_mem_nil _) hyields

/-- A tree fails for its first fault, or because nothing is left of it. -/
theorem firstFault_of_normalize {error : NormalizeError}
    (hfailed : normalizer.normalize root = .error error) :
    FirstFault normalizer.language normalizer.config.maxDepth [] [root] error ∨
      (error = .discardedRoot root.span ∧ root.tag.isDiscarded = true ∧
        1 ≤ normalizer.config.maxDepth) := by
  rw [normalize_eq_reduceTree] at hfailed
  split at hfailed
  · rename_i tally fault hreduce
    cases hfailed
    rw [← reduceTrees_singleton] at hreduce
    have hfails := fails_of_reduceTrees [root] hreduce
    exact .inl (hfails.firstFault [] (List.forall_mem_nil _) rfl (by omega))
  · rename_i tally hreduce
    cases hfailed
    exact .inr ⟨rfl, isDiscarded_of_reduceTree hreduce⟩
  · cases hfailed

theorem normalize_discarded (hdiscarded : root.tag.isDiscarded = true)
    (hdepth : 1 ≤ normalizer.config.maxDepth) :
    normalizer.normalize root = .error (.discardedRoot root.span) := by
  rw [normalize_eq_reduceTree, reduceTree_eq]
  simp only [Nat.not_lt.mpr hdepth, if_false, hdiscarded, if_true]

/-- Which trees fail, and what their errors say.  The depth of a node is one more than the number
of its ancestors. -/
structure Diagnoses (normalizer : Normalizer) (root : Node) : Prop where
  /-- A tree with a visible node that is too deep fails. -/
  deep : ∀ entry ∈ root.visible, normalizer.config.maxDepth < entry.1.length + 1 →
    ∃ error, normalizer.normalize root = .error error
  /-- The error names the limit and the first visible node just below it. -/
  tooDeep : ∀ limit span, normalizer.normalize root = .error (.tooDeep limit span) →
    limit = normalizer.config.maxDepth ∧
      ∃ entry, root.visible.find? (·.1.length == normalizer.config.maxDepth) = some entry ∧
        entry.2.span = span
  /-- A tree with a visible raw node of another language fails. -/
  foreign : ∀ entry ∈ root.visible, entry.2.isForeign normalizer.language = true →
    ∃ error, normalizer.normalize root = .error error
  /-- The error names the language and the first visible raw node, children first, of another. -/
  unmapped : ∀ tag language span,
    normalizer.normalize root = .error (.unmapped tag language span) →
    language = normalizer.language ∧
      ∃ entry, root.rawPostorder.find? (·.2.isForeign normalizer.language) = some entry ∧
        entry.2.tag = .raw tag ∧ entry.2.span = span
  /-- The error names a visible raw node of the language that its rule rejects, and all visible raw
  nodes before it, children first, are reduced. -/
  malformed : ∀ tag span defect,
    normalizer.normalize root = .error (.malformed tag span defect) →
    tag.owner = normalizer.language ∧
      ∃ before entry after, root.rawPostorder = before ++ entry :: after ∧
        entry.2.tag = .raw tag ∧ entry.2.span = span ∧
        RuleGives normalizer.language normalizer.config.maxDepth entry
          (.error (.malformed tag span defect)) ∧
        ∀ earlier ∈ before, ∃ produced,
          RuleGives normalizer.language normalizer.config.maxDepth earlier (.ok produced)
  /-- Nothing is left of a tree exactly if its root is a placeholder that is not too deep. -/
  discardedRoot : ∀ span, normalizer.normalize root = .error (.discardedRoot span) ↔
    span = root.span ∧ root.tag.isDiscarded = true ∧ 1 ≤ normalizer.config.maxDepth

/-- Every defect leads to an error, and every error names the node that is at fault. -/
theorem normalize_diagnoses (normalizer : Normalizer) (root : Node) :
    normalizer.Diagnoses root := by
  have hfailure : (∀ tree, normalizer.normalize root ≠ .ok tree) →
      ∃ error, normalizer.normalize root = .error error := by
    intro hnone
    cases hresult : normalizer.normalize root with
    | error error => exact ⟨error, rfl⟩
    | ok tree => exact absurd hresult (hnone tree)
  constructor
  case deep =>
    intro entry hentry hdeep
    apply hfailure
    intro tree hok
    have hshallow := (faultless_of_normalize hok).shallow entry hentry
    omega
  case foreign =>
    intro entry hentry hforeign
    apply hfailure
    intro tree hok
    have hraw : entry.2.tag.isRaw = true := by
      obtain ⟨tag, htag, -⟩ := isForeign_iff.mp hforeign
      rw [htag]
      exact (Tag.flags_raw tag).1
    have hmem : entry ∈ root.rawPostorder :=
      (rawPostorderAll_perm [] [root]).mem_iff.mpr (List.mem_filter.mpr ⟨hentry, hraw⟩)
    obtain ⟨produced, hproduced⟩ := (faultless_of_normalize hok).rewritten entry hmem
    rw [hproduced.isForeign_eq_false] at hforeign
    cases hforeign
  case tooDeep =>
    intro limit span hfailed
    obtain hfault | ⟨herror, -⟩ := firstFault_of_normalize hfailed
    · cases hfault with
      | tooDeep hfirst => exact ⟨rfl, _, hfirst, rfl⟩
      | rejected _ _ hentry =>
          obtain ⟨tag, -, ⟨-, herror⟩ | ⟨-, defect, herror⟩⟩ := hentry.error_cases <;> cases herror
    · cases herror
  case unmapped =>
    intro tag language span hfailed
    obtain hfault | ⟨herror, -⟩ := firstFault_of_normalize hfailed
    · cases hfault with
      | @rejected before after entry _ hsplit hbefore hentry =>
          obtain ⟨tag, htag, ⟨howner, herror⟩ | ⟨-, defect, herror⟩⟩ := hentry.error_cases
          · cases herror
            refine ⟨rfl, entry, ?_, htag, rfl⟩
            rw [List.find?_eq_some_iff_append]
            refine ⟨isForeign_iff.mpr ⟨tag, htag, howner⟩, before, after, hsplit, ?_⟩
            intro earlier hearlier
            obtain ⟨produced, hproduced⟩ := hbefore earlier hearlier
            rw [hproduced.isForeign_eq_false]
            rfl
          · cases herror
    · cases herror
  case malformed =>
    intro tag span defect hfailed
    obtain hfault | ⟨herror, -⟩ := firstFault_of_normalize hfailed
    · cases hfault with
      | @rejected before after entry _ hsplit hbefore hentry =>
          obtain ⟨tag, htag, ⟨-, herror⟩ | ⟨howner, defect, herror⟩⟩ := hentry.error_cases
          · cases herror
          · cases herror
            exact ⟨howner, before, entry, after, hsplit, htag, rfl, hentry, hbefore⟩
    · cases herror
  case discardedRoot =>
    intro span
    constructor
    · intro hfailed
      obtain hfault | ⟨herror, hroot⟩ := firstFault_of_normalize hfailed
      · cases hfault with
        | rejected _ _ hentry =>
            obtain ⟨tag, -, ⟨-, herror⟩ | ⟨-, defect, herror⟩⟩ := hentry.error_cases <;>
              cases herror
      · cases herror
        exact ⟨rfl, hroot⟩
    · rintro ⟨rfl, hdiscarded, hdepth⟩
      exact normalize_discarded hdiscarded hdepth

/-- A tree with a malformed raw node, another raw node behind it, and a third one below a
placeholder. -/
def faultyUnit : Node :=
  .branch .list ⟨0, 60, 1, 1⟩
    [.branch .discarded ⟨0, 5, 1, 1⟩ [⟨.raw (.ecma .spread), ⟨1, 4, 1, 2⟩, none, none, [], none⟩],
      .branch .block ⟨10, 30, 2, 1⟩
        [⟨.raw (.java .typeCast), ⟨12, 20, 2, 3⟩, none, none, [], none⟩],
      ⟨.raw (.ecma .spread), ⟨40, 50, 3, 1⟩, none, none, [], none⟩]

/-- The fault that is named depends on the language and on the limit, and it is never the one below
the placeholder. -/
theorem normalize_diagnoses_faultyUnit :
    (∃ before entry after, faultyUnit.rawPostorder = before ++ entry :: after ∧
      entry.2.tag = .raw (.java .typeCast) ∧ entry.2.span = ⟨12, 20, 2, 3⟩ ∧
      ∀ earlier ∈ before, ∃ produced, RuleGives .java 4096 earlier (.ok produced)) ∧
    (∃ entry, faultyUnit.rawPostorder.find? (·.2.isForeign .ecma) = some entry ∧
      entry.2.span = ⟨12, 20, 2, 3⟩) ∧
    ∃ entry, faultyUnit.visible.find? (·.1.length == 2) = some entry ∧
      entry.2.span = ⟨12, 20, 2, 3⟩ := by
  have hmalformed : (⟨.java, {}⟩ : Normalizer).normalize faultyUnit =
      .error (.malformed (.java .typeCast) ⟨12, 20, 2, 3⟩ (.tooFewChildren 2 0)) := by
    decide +kernel
  have hunmapped : (⟨.ecma, {}⟩ : Normalizer).normalize faultyUnit =
      .error (.unmapped (.java .typeCast) .ecma ⟨12, 20, 2, 3⟩) := by
    decide +kernel
  have htooDeep : (⟨.java, { maxDepth := 2 }⟩ : Normalizer).normalize faultyUnit =
      .error (.tooDeep 2 ⟨12, 20, 2, 3⟩) := by
    decide +kernel
  obtain ⟨-, before, entry, after, hsplit, htag, hspan, -, hbefore⟩ :=
    (normalize_diagnoses _ _).malformed _ _ _ hmalformed
  obtain ⟨-, foreign, hforeign, -, hforeignSpan⟩ :=
    (normalize_diagnoses _ _).unmapped _ _ _ hunmapped
  obtain ⟨-, deep, hdeep, hdeepSpan⟩ := (normalize_diagnoses _ _).tooDeep _ _ htooDeep
  exact ⟨⟨before, entry, after, hsplit, htag, hspan, hbefore⟩, ⟨foreign, hforeign, hforeignSpan⟩,
    deep, hdeep, hdeepSpan⟩

end Normalizer

end CanonTree
