import CanonTree.Proofs.Reduced

/-!
# Spans stay nested

In a tree that comes from a source, what is below a node lies inside its span.  Rules keep
this: a new node has the span of the node that it stands for or of the item that it replaces,
or it covers exactly the nodes that it is put around.  They also keep ranges in order.  Both
are instances of one argument, about any relation between spans that can be carried over to
covers (`Span.Fitting`); it goes once through the ways in which nodes are put together, and once
through the ways in which forests are reduced.
-/

namespace CanonTree

/-! ## Spans -/

/-- The greater of two words is their least upper bound. -/
instance lawfulOrderSup_word : Std.LawfulOrderSup UInt32 where
  max_le_iff left right bound := by
    change (if left ≤ right then right else left) ≤ bound ↔ left ≤ bound ∧ right ≤ bound
    grind

namespace Span

/-- The first span lies inside the second.  A dummy span lies inside every span, and only dummy
spans lie inside it. -/
def Within (inner outer : Span) : Prop :=
  inner = dummy ∨ outer ≠ dummy ∧ outer.start ≤ inner.start ∧ inner.stop ≤ outer.stop

instance (inner outer : Span) : Decidable (inner.Within outer) :=
  inferInstanceAs (Decidable (_ ∨ _))

theorem within_refl (span : Span) : span.Within span := by
  by_cases hdummy : span = dummy
  · exact .inl hdummy
  · exact .inr ⟨hdummy, UInt32.le_refl _, UInt32.le_refl _⟩

theorem Within.trans {inner middle outer : Span} (hinner : inner.Within middle)
    (hmiddle : middle.Within outer) : inner.Within outer := by
  obtain hdummy | ⟨hreal, hstart, hstop⟩ := hinner
  · exact .inl hdummy
  · obtain hdummy | ⟨houter, hstart', hstop'⟩ := hmiddle
    · exact absurd hdummy hreal
    · exact .inr ⟨houter, UInt32.le_trans hstart' hstart, UInt32.le_trans hstop hstop'⟩

theorem dummy_within (outer : Span) : dummy.Within outer :=
  .inl rfl

theorem cover_dummy_left (right : Span) : cover dummy right = right := rfl

theorem cover_dummy_right (left : Span) : cover left dummy = left := by
  by_cases hleft : left = dummy
  · rw [hleft]
    rfl
  · simp [cover, isDummy, hleft]

/-- A span that does not end later than a dummy one with the same start is dummy itself. -/
theorem eq_dummy_of_stop_le {span : Span} {bound : UInt32}
    (hdummy : { span with stop := bound } = dummy) (hstop : span.stop ≤ bound) :
    span = dummy := by
  have hbound : bound = 0 := congrArg Span.stop hdummy
  rw [hbound] at hstop
  calc
    span = { span with stop := bound } := by rw [hbound, ← UInt32.le_zero_iff.mp hstop]
    _ = dummy := hdummy

section Real

variable {left right : Span} (hleft : left ≠ dummy) (hright : right ≠ dummy)

include hleft hright

theorem cover_eq :
    cover left right =
      { if right.start < left.start then right else left with
        stop := max left.stop right.stop } := by
  simp only [cover, isDummy, beq_iff_eq, hleft, hright, if_false]

theorem cover_ne_dummy : cover left right ≠ dummy := by
  rw [cover_eq hleft hright]
  intro hdummy
  split at hdummy
  · exact hright (eq_dummy_of_stop_le hdummy Std.right_le_max)
  · exact hleft (eq_dummy_of_stop_le hdummy Std.left_le_max)

theorem le_start_cover_iff {bound : UInt32} :
    bound ≤ (cover left right).start ↔ bound ≤ left.start ∧ bound ≤ right.start := by
  rw [cover_eq hleft hright]
  grind

theorem stop_cover_le_iff {bound : UInt32} :
    (cover left right).stop ≤ bound ↔ left.stop ≤ bound ∧ right.stop ≤ bound := by
  rw [cover_eq hleft hright]
  exact Std.max_le_iff

end Real

/-- The cover of two spans is the least span that both lie inside of. -/
theorem cover_within_iff {left right outer : Span} :
    (cover left right).Within outer ↔ left.Within outer ∧ right.Within outer := by
  by_cases hleft : left = dummy
  · rw [hleft, cover_dummy_left]
    exact (and_iff_right (dummy_within outer)).symm
  by_cases hright : right = dummy
  · rw [hright, cover_dummy_right]
    exact (and_iff_left (dummy_within outer)).symm
  rw [Within, Within, Within, or_iff_right hleft, or_iff_right hright,
    or_iff_right (cover_ne_dummy hleft hright), le_start_cover_iff hleft hright,
    stop_cover_le_iff hleft hright]
  tauto

/-- The cover of two ranges in order is in order. -/
theorem start_le_stop_cover {left right : Span} (hleft : left.start ≤ left.stop)
    (hright : right.start ≤ right.stop) :
    (cover left right).start ≤ (cover left right).stop := by
  by_cases hleftDummy : left = dummy
  · rwa [hleftDummy, cover_dummy_left]
  by_cases hrightDummy : right = dummy
  · rwa [hrightDummy, cover_dummy_right]
  have hstart := ((le_start_cover_iff hleftDummy hrightDummy).mp (UInt32.le_refl _)).1
  have hstop := ((stop_cover_le_iff hleftDummy hrightDummy).mp (UInt32.le_refl _)).1
  exact UInt32.le_trans hstart (UInt32.le_trans hleft hstop)

theorem isSome_length?_iff {span : Span} :
    span.length?.isSome = true ↔ span.start ≤ span.stop := by
  simp [length?]

/-- What holds of the dummy span and of the cover of any two spans of which it holds, holds of the
cover of any number of them. -/
theorem coverAll_of_cover (property : Span → Prop) (hdummy : property dummy)
    (hcover : ∀ left right, property left → property right → property (cover left right))
    {spans : List Span} (hspans : ∀ span ∈ spans, property span) : property (coverAll spans) := by
  refine List.foldlRecOn spans cover hdummy ?_
  intro covered hcovered span hspan
  exact hcover covered span hcovered (hspans span hspan)

theorem within_foldl_cover (spans : List Span) :
    ∀ start, start.Within (spans.foldl cover start) ∧
      ∀ span ∈ spans, span.Within (spans.foldl cover start) := by
  induction spans with
  | nil =>
      intro start
      exact ⟨within_refl start, nofun⟩
  | cons first spans ih =>
      intro start
      obtain ⟨hcovered, hothers⟩ := ih (cover start first)
      obtain ⟨hstart, hfirst⟩ := cover_within_iff.mp hcovered
      exact ⟨hstart, List.forall_mem_cons.mpr ⟨hfirst, hothers⟩⟩

/-- Each of some spans lies inside the cover of all of them. -/
theorem within_coverAll {span : Span} {spans : List Span} (hspan : span ∈ spans) :
    span.Within (coverAll spans) :=
  (within_foldl_cover spans dummy).2 span hspan

/-- A relation between spans that can be carried over to new spans around old ones. -/
structure Fitting (fits : Span → Span → Prop) : Prop where
  -- a new node below an old one may have the span of the old one
  self : ∀ {inner outer}, fits inner outer → fits inner inner
  trans : ∀ {inner middle outer}, fits inner middle → fits middle outer → fits inner outer
  cover : ∀ {spans outer}, (∀ span ∈ spans, fits span outer) → fits (coverAll spans) outer
  covered : ∀ {spans outer}, (∀ span ∈ spans, fits span outer) →
    ∀ span ∈ spans, fits span (coverAll spans)

theorem fitting_within : Fitting Within where
  self _ := within_refl _
  trans := Within.trans
  cover {_ outer} := coverAll_of_cover (Within · outer) (dummy_within outer)
    fun _ _ hleft hright => cover_within_iff.mpr ⟨hleft, hright⟩
  covered _ _ hspan := within_coverAll hspan

/-- The range of the first span is in order, whatever the second is. -/
def Ordered (inner _outer : Span) : Prop :=
  inner.start ≤ inner.stop

theorem fitting_ordered : Fitting Ordered where
  self hinner := hinner
  trans hinner _ := hinner
  cover {_ outer} := coverAll_of_cover (Ordered · outer) (UInt32.le_refl _)
    fun _ _ hleft hright => start_le_stop_cover hleft hright
  covered hspans := hspans

end Span

/-! ## Trees -/

namespace Node

variable {fits : Span → Span → Prop} {outer : Span}

/-- In a tree, every child fits its parent. -/
def SpansFit (fits : Span → Span → Prop) (root : Node) : Prop :=
  ∀ parent ∈ root.preorder, ∀ child ∈ parent.children, fits child.span parent.span

/-- The trees fit a span around them, and in each of them every child fits its parent. -/
def AllFit (fits : Span → Span → Prop) (outer : Span) (nodes : List Node) : Prop :=
  ∀ node ∈ nodes, fits node.span outer ∧ node.SpansFit fits

theorem spansFit_iff {node : Node} : node.SpansFit fits ↔ AllFit fits node.span node.children := by
  constructor
  · intro hnode child hchild
    constructor
    · exact hnode node (mem_preorder_iff.mpr (.inl rfl)) child hchild
    · intro parent hparent
      exact hnode parent (mem_preorder_iff.mpr (.inr ⟨child, hchild, hparent⟩))
  · intro hchildren parent hparent
    obtain rfl | ⟨child, hchild, hbelow⟩ := mem_preorder_iff.mp hparent
    · intro child hchild
      exact (hchildren child hchild).1
    · exact (hchildren child hchild).2 parent hbelow

theorem allFit_cons {node : Node} {nodes : List Node} :
    AllFit fits outer (node :: nodes) ↔
      (fits node.span outer ∧ AllFit fits node.span node.children) ∧ AllFit fits outer nodes := by
  rw [← spansFit_iff]
  exact List.forall_mem_cons

theorem allFit_singleton {node : Node} :
    AllFit fits outer [node] ↔ fits node.span outer ∧ node.SpansFit fits :=
  List.forall_mem_singleton

theorem allFit_append {left right : List Node} :
    AllFit fits outer (left ++ right) ↔ AllFit fits outer left ∧ AllFit fits outer right :=
  List.forall_mem_append

theorem AllFit.mono (hfitting : Span.Fitting fits) {inner : Span} {nodes : List Node}
    (hnodes : AllFit fits inner nodes) (hinner : fits inner outer) : AllFit fits outer nodes :=
  fun node hnode => ⟨hfitting.trans (hnodes node hnode).1 hinner, (hnodes node hnode).2⟩

/-- Ranges are in order all over a forest exactly if that can be said of each child apart. -/
theorem allFit_ordered_iff (nodes : List Node) :
    ∀ outer, AllFit Span.Ordered outer nodes ↔
      ∀ inner ∈ preorderAll nodes, inner.span.start ≤ inner.span.stop := by
  induction nodes using forest_induction with
  | nil =>
      intro outer
      exact ⟨nofun, nofun⟩
  | cons node nodes hchildren hnodes =>
      intro outer
      rw [allFit_cons, hchildren, hnodes, preorderAll, preorder_eq, List.forall_mem_append,
        List.forall_mem_cons]
      rfl

def outline (node : Node) : Span × List Span :=
  (node.span, node.children.map (·.span))

theorem spansFit_iff_outline {root : Node} :
    root.SpansFit fits ↔ ∀ entry ∈ root.preorder.map outline, ∀ inner ∈ entry.2,
      fits inner entry.1 := by
  simp [SpansFit, outline]

theorem outline_eraseScopes (node : Node) : node.eraseScopes.outline = node.outline := by
  have hspan : ∀ inner : Node, inner.eraseScopes.span = inner.span := by
    intro inner
    rw [eraseScopes_eq]
  rw [outline, hspan, eraseScopes_eq, eraseScopesAll_eq_map, List.map_map]
  simp only [Function.comp_def, hspan, outline]

/-- Whether spans fit depends on the shape of a tree alone. -/
theorem spansFit_congr {left right : Node} (hshape : left.eraseScopes = right.eraseScopes) :
    left.SpansFit fits ↔ right.SpansFit fits := by
  rw [spansFit_iff_outline, spansFit_iff_outline, map_preorder_congr outline_eraseScopes hshape]

end Node

/-! ## Rules and reduced forests -/

open Node

variable {fits : Span → Span → Prop} (hfitting : Span.Fitting fits)

include hfitting

/-- Nodes that are put together from nodes that fit the node above them fit it too. -/
theorem Rule.allFit_of_assembled {node : Node} {taken made : List Node}
    (hmade : Assembled node taken made) (hself : fits node.span node.span)
    (hnode : node.SpansFit fits) (htaken : AllFit fits node.span taken) :
    AllFit fits node.span made := by
  induction hmade with
  | kept node nodes => exact htaken
  | mark node htag text =>
      rw [allFit_cons]
      exact ⟨⟨hself, nofun⟩, nofun⟩
  | group node htag nodes =>
      have hspans : ∀ span ∈ nodes.map (·.span), fits span node.span := by
        rw [List.forall_mem_map]
        intro inner hinner
        exact (htaken inner hinner).1
      rw [allFit_cons]
      refine ⟨⟨hfitting.cover hspans, ?_⟩, nofun⟩
      intro inner hinner
      exact ⟨hfitting.covered hspans inner.span (List.mem_map_of_mem hinner),
        (htaken inner hinner).2⟩
  | @declared node item inner hitem name hinner ih =>
      -- the item is a child of the node, and all that is declared is put together below the item
      obtain ⟨hinside, hitemFit⟩ := spansFit_iff.mp hnode item hitem
      have hitemSelf := hfitting.self hinside
      have hinnerFit := ih hitemSelf hitemFit (spansFit_iff.mp hitemFit)
      rw [allFit_cons]
      refine ⟨⟨hinside, ?_⟩, nofun⟩
      exact allFit_cons.mpr ⟨⟨hitemSelf, nofun⟩, hinnerFit⟩
  | append hfirst hothers ihfirst ihothers =>
      rw [allFit_append] at htaken ⊢
      exact ⟨ihfirst hself hnode htaken.1, ihothers hself hnode htaken.2⟩
  | perm hperm hmade ih =>
      apply ih hself hnode
      intro inner hinner
      exact htaken inner (hperm.mem_iff.mp hinner)

theorem Rule.allFit_material (tag : RawTag) {outer : Span} {nodes : List Node}
    (hnodes : AllFit fits outer nodes) : AllFit fits outer (material tag nodes) := by
  intro inner hinner
  obtain ⟨child, hchild, hyielded⟩ := List.mem_flatMap.mp hinner
  obtain ⟨hinside, hbelow⟩ := hnodes child hchild
  have hchildren := spansFit_iff.mp hbelow
  rw [yielded] at hyielded
  split at hyielded
  · rw [List.mem_singleton] at hyielded
    rw [hyielded]
    exact ⟨hinside, hbelow⟩
  · rw [List.mem_singleton] at hyielded
    rw [hyielded]
    exact ⟨hinside, spansFit_iff.mpr hchildren⟩
  · exact hchildren.mono hfitting hinside inner hyielded

theorem Rule.allFit_of_replaces {tag : RawTag} {node result : Node}
    (hresult : Replaces tag node result) (hself : fits node.span node.span)
    (hchildren : AllFit fits node.span node.children) :
    AllFit fits result.span result.children := by
  rw [hresult.span]
  exact allFit_of_assembled hfitting hresult.children hself (spansFit_iff.mpr hchildren)
    (allFit_material hfitting tag hchildren)

/-- A reduced forest fits whatever the forest that was given fits. -/
theorem allFit_of_reduced {nodes results : List Node} (hreduced : Reduced nodes results) :
    ∀ {outer}, AllFit fits outer nodes → AllFit fits outer results := by
  induction hreduced with
  | nil =>
      intro outer hnodes
      exact hnodes
  | dropped hdiscarded hothers ih =>
      intro outer hnodes
      exact ih (allFit_cons.mp hnodes).2
  | kept hfinal hcanonical hbelow hothers ihbelow ihothers =>
      intro outer hnodes
      obtain ⟨⟨hnode, hchildren⟩, hrest⟩ := allFit_cons.mp hnodes
      exact allFit_cons.mpr ⟨⟨hnode, ihbelow hchildren⟩, ihothers hrest⟩
  | replaced htag hcanonical hbelow hresult hothers ihbelow ihothers =>
      intro outer hnodes
      obtain ⟨⟨hnode, hchildren⟩, hrest⟩ := allFit_cons.mp hnodes
      refine allFit_cons.mpr ⟨⟨?_, ?_⟩, ihothers hrest⟩
      · rw [hresult.span]
        exact hnode
      · exact Rule.allFit_of_replaces hfitting hresult (hfitting.self hnode) (ihbelow hchildren)

namespace Normalizer

variable {normalizer : Normalizer} {root : Node} {tree : CanonicalTree}

/-- A normalized tree fits whatever the tree that was given fits. -/
theorem allFit_of_normalize {outer : Span} (hok : normalizer.normalize root = .ok tree)
    (hroot : AllFit fits outer [root]) : AllFit fits outer [tree.root] := by
  obtain ⟨reduced, hreduced, -, hbound⟩ := reduced_of_normalize hok
  have hfit := allFit_of_reduced hfitting hreduced hroot
  rw [allFit_singleton] at hfit ⊢
  rw [hbound, span_bindNames]
  refine ⟨hfit.1, ?_⟩
  rw [spansFit_congr (eraseScopes_bindNames normalizer reduced)]
  exact hfit.2

omit hfitting

/-- If every child lies inside its parent in the tree that was given, then so it does in the
normalized tree; and if every range was in order, then every range is, and its length can be
taken. -/
theorem normalize_spans (hok : normalizer.normalize root = .ok tree) :
    ((∀ parent ∈ root.toList, ∀ child ∈ parent.children, child.span.Within parent.span) →
      ∀ parent ∈ tree.root.toList, ∀ child ∈ parent.children,
        child.span.Within parent.span) ∧
    ((∀ node ∈ root.toList, node.span.start ≤ node.span.stop) →
      ∀ node ∈ tree.root.toList,
        node.span.start ≤ node.span.stop ∧ node.span.length?.isSome = true) := by
  rw [toList_eq_preorder, toList_eq_preorder]
  constructor
  · intro hnested
    have hroot : AllFit Span.Within root.span [root] :=
      allFit_singleton.mpr ⟨Span.within_refl root.span, hnested⟩
    exact (allFit_singleton.mp (allFit_of_normalize Span.fitting_within hok hroot)).2
  · intro hordered node hnode
    have hroot : AllFit Span.Ordered root.span [root] := by
      rw [allFit_ordered_iff, preorderAll_singleton]
      exact hordered
    have htree := allFit_of_normalize Span.fitting_ordered hok hroot
    rw [allFit_ordered_iff, preorderAll_singleton] at htree
    exact ⟨htree node hnode, Span.isSome_length?_iff.mpr (htree node hnode)⟩

/-- An array creation with a list of dimensions, one of which has no source of its own. -/
def arrayUnit : Node :=
  .branch .block ⟨0, 40, 1, 1⟩
    [⟨.raw (.java .arrayInstantiation), ⟨4, 30, 1, 5⟩, none, none,
      [.leaf .type ⟨8, 11, 1, 9⟩,
        .branch .arrayDims ⟨11, 22, 1, 12⟩
          [⟨.raw (.java .arrayDimExpr), ⟨11, 14, 1, 12⟩, none, none,
            [(Node.leaf .ident ⟨12, 13, 1, 13⟩).withText "n"], none⟩,
            .leaf .arrayDim .dummy]], none⟩]

theorem normalize_spans_arrayUnit :
    ∃ tree, (⟨.java, {}⟩ : Normalizer).normalize arrayUnit = .ok tree ∧
      (∀ parent ∈ tree.root.toList, ∀ child ∈ parent.children, child.span.Within parent.span) ∧
      ∀ node ∈ tree.root.toList,
        node.span.start ≤ node.span.stop ∧ node.span.length?.isSome = true := by
  have hreplaced : ((⟨.java, {}⟩ : Normalizer).normalize arrayUnit).toOption.any
      (fun tree => tree.stats.reduced == 2) = true := by
    decide +kernel
  obtain ⟨tree, hok, -⟩ := exists_normalize_of_any hreplaced
  obtain ⟨hnested, hordered⟩ := normalize_spans hok
  exact ⟨tree, hok, hnested (by decide +kernel), hordered (by decide +kernel)⟩

end Normalizer

end CanonTree
