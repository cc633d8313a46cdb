import CanonTree.Proofs.SpanNesting

/-!
# Covers do not depend on grouping

The cover of two spans takes its start, line and column from the one that starts first, the
left one of two that start together, and its end from the one that ends last.  Both choices
can be made in any grouping, and a dummy span takes part in neither, so spans form a monoid
under `Span.cover`, reversed ranges included.  The span that a new node gets is therefore
read off the list of its children as a whole: `Span.Encloses` says what it is.
-/

namespace CanonTree

namespace Span

/-! ## The monoid of spans -/

theorem cover_assoc (first second third : Span) :
    cover (cover first second) third = cover first (cover second third) := by
  by_cases hfirst : first = dummy
  · rw [hfirst, cover_dummy_left, cover_dummy_left]
  by_cases hsecond : second = dummy
  · rw [hsecond, cover_dummy_right, cover_dummy_left]
  by_cases hthird : third = dummy
  · rw [hthird, cover_dummy_right, cover_dummy_right]
  -- no shortcut is taken any more, so that only starts and ends are compared
  rw [cover_eq (cover_ne_dummy hfirst hsecond) hthird,
    cover_eq hfirst (cover_ne_dummy hsecond hthird), cover_eq hfirst hsecond,
    cover_eq hsecond hthird]
  grind

instance associative_cover : Std.Associative cover where
  assoc := cover_assoc

theorem coverAll_cons (span : Span) (spans : List Span) :
    coverAll (span :: spans) = cover span (coverAll spans) := by
  rw [coverAll, List.foldl_cons, cover_dummy_left]
  calc
    spans.foldl cover span = spans.foldl cover (cover span dummy) := by rw [cover_dummy_right]
    _ = cover span (coverAll spans) := List.foldl_assoc

/-! ## The cover of a list -/

/-- The spans that count for a cover. -/
def real (spans : List Span) : List Span :=
  spans.filter (!·.isDummy)

theorem mem_real {span : Span} {spans : List Span} :
    span ∈ real spans ↔ span ∈ spans ∧ span ≠ dummy := by
  simp [real, isDummy]

/-- Dummy spans can be left out. -/
theorem coverAll_real (spans : List Span) : coverAll (real spans) = coverAll spans := by
  induction spans with
  | nil => rfl
  | cons span spans ih =>
      by_cases hspan : span = dummy
      · rw [real, List.filter_cons_of_neg (by simp [isDummy, hspan]), ← real, ih,
          coverAll_cons span, hspan, cover_dummy_left]
      · rw [real, List.filter_cons_of_pos (by simp [isDummy, hspan]), ← real, coverAll_cons,
          coverAll_cons, ih]

theorem coverAll_eq_dummy_iff {spans : List Span} :
    coverAll spans = dummy ↔ ∀ span ∈ spans, span = dummy := by
  constructor
  · intro hdummy span hspan
    obtain hspanDummy | ⟨hreal, -⟩ := within_coverAll hspan
    · exact hspanDummy
    · exact absurd hdummy hreal
  · exact coverAll_of_cover (· = dummy) rfl fun left right hleft hright => by
      rw [hleft, hright, cover_dummy_left]

/-- The span around some spans: it starts where the first one starts that starts before all
others, with the line and column of that one, and it ends where the one ends that ends last. -/
structure Encloses (covering : Span) (spans : List Span) : Prop where
  start : ∃ before first after, spans = before ++ first :: after ∧
    (∀ span ∈ before, first.start < span.start) ∧ (∀ span ∈ after, first.start ≤ span.start) ∧
    covering.start = first.start ∧ covering.line = first.line ∧ covering.column = first.column
  stop : ∃ last ∈ spans, covering.stop = last.stop ∧ ∀ span ∈ spans, span.stop ≤ last.stop

theorem encloses_singleton (span : Span) : Encloses span [span] where
  start := ⟨[], span, [], rfl, nofun, nofun, rfl, rfl, rfl⟩
  stop := ⟨span, List.mem_singleton_self span, rfl, by simp⟩

/-- One more span in front starts the cover unless another one starts before it. -/
theorem Encloses.cons {covering span : Span} {spans : List Span}
    (hcovering : Encloses covering spans) (hreal : covering ≠ dummy) (hspan : span ≠ dummy) :
    Encloses (cover span covering) (span :: spans) := by
  rw [cover_eq hspan hreal]
  constructor
  case start =>
    obtain ⟨before, first, after, hsplit, hbefore, hafter, hstart, hline, hcolumn⟩ :=
      hcovering.start
    by_cases hearlier : covering.start < span.start
    · rw [if_pos hearlier]
      refine ⟨span :: before, first, after, by rw [hsplit]; rfl, ?_, hafter, hstart, hline,
        hcolumn⟩
      exact List.forall_mem_cons.mpr ⟨hstart ▸ hearlier, hbefore⟩
    · rw [if_neg hearlier]
      refine ⟨[], span, spans, rfl, nofun, ?_, rfl, rfl, rfl⟩
      have hfirst : span.start ≤ first.start := hstart ▸ UInt32.not_lt.mp hearlier
      rw [hsplit, List.forall_mem_append, List.forall_mem_cons]
      refine ⟨?_, hfirst, ?_⟩
      · intro other hother
        exact UInt32.le_trans hfirst (UInt32.le_of_lt (hbefore other hother))
      · intro other hother
        exact UInt32.le_trans hfirst (hafter other hother)
  case stop =>
    obtain ⟨last, hlast, hstop, hgreatest⟩ := hcovering.stop
    change ∃ last' ∈ span :: spans, max span.stop covering.stop = last'.stop ∧ _
    rw [hstop]
    by_cases hlonger : last.stop ≤ span.stop
    · refine ⟨span, List.mem_cons_self, Std.max_eq_if.trans (if_pos hlonger), ?_⟩
      refine List.forall_mem_cons.mpr ⟨UInt32.le_refl _, fun other hother => ?_⟩
      exact UInt32.le_trans (hgreatest other hother) hlonger
    · have hshorter : span.stop ≤ last.stop := UInt32.le_of_lt (UInt32.not_le.mp hlonger)
      refine ⟨last, List.mem_cons_of_mem span hlast, Std.max_eq_if.trans (if_neg hlonger), ?_⟩
      exact List.forall_mem_cons.mpr ⟨hshorter, hgreatest⟩

theorem encloses_coverAll {spans : List Span} (hsome : spans ≠ [])
    (hreal : ∀ span ∈ spans, span ≠ dummy) : Encloses (coverAll spans) spans := by
  induction spans with
  | nil => exact absurd rfl hsome
  | cons span spans ih =>
      obtain ⟨hspan, hothers⟩ := List.forall_mem_cons.mp hreal
      rw [coverAll_cons]
      match spans, ih, hothers with
      | [], _, _ =>
          rw [show coverAll [] = dummy from rfl, cover_dummy_right]
          exact encloses_singleton span
      | second :: others, ih, hothers =>
          refine (ih (List.cons_ne_nil _ _) hothers).cons ?_ hspan
          rw [Ne, coverAll_eq_dummy_iff]
          exact fun hdummy => hothers second List.mem_cons_self (hdummy second List.mem_cons_self)

/-- A range contains the span around some spans exactly if it contains all of them. -/
theorem Encloses.smallest {covering : Span} {spans : List Span}
    (hcovering : Encloses covering spans) (lower upper : UInt32) :
    lower ≤ covering.start ∧ covering.stop ≤ upper ↔
      ∀ span ∈ spans, lower ≤ span.start ∧ span.stop ≤ upper := by
  obtain ⟨before, first, after, hsplit, hbefore, hafter, hstart, -, -⟩ := hcovering.start
  obtain ⟨last, hlast, hstop, hgreatest⟩ := hcovering.stop
  rw [hstart, hstop]
  constructor
  · rintro ⟨hlower, hupper⟩ span hspan
    refine ⟨?_, UInt32.le_trans (hgreatest span hspan) hupper⟩
    rw [hsplit, List.mem_append, List.mem_cons] at hspan
    obtain hspan | rfl | hspan := hspan
    · exact UInt32.le_trans hlower (UInt32.le_of_lt (hbefore span hspan))
    · exact hlower
    · exact UInt32.le_trans hlower (hafter span hspan)
  · intro hall
    have hfirst : first ∈ spans := by
      rw [hsplit]
      exact List.mem_append_right before List.mem_cons_self
    exact ⟨(hall first hfirst).1, (hall last hlast).2⟩

end Span

/-! ## New nodes around others -/

namespace Rule

open CanonTree.Span

/-- Spans are a monoid under `cover`, with the dummy span as its neutral element, and two spans
that are not dummy never have a dummy cover.  A new node around some nodes has a dummy span if
they all do; otherwise its span encloses those that are not dummy, and no smaller range contains
them. -/
theorem wrap_encloses :
    (∀ first second third, cover (cover first second) third = cover first (cover second third)) ∧
    (∀ span, cover dummy span = span ∧ cover span dummy = span) ∧
    (∀ left right, left ≠ dummy → right ≠ dummy → cover left right ≠ dummy) ∧
    ∀ (tag : SharedTag) (nodes : List Node),
      ((wrap tag nodes).span = dummy ↔ ∀ node ∈ nodes, node.span = dummy) ∧
      ((∃ node ∈ nodes, node.span ≠ dummy) →
        Encloses (wrap tag nodes).span (real (nodes.map (·.span))) ∧
        ∀ lower upper : UInt32,
          lower ≤ (wrap tag nodes).span.start ∧ (wrap tag nodes).span.stop ≤ upper ↔
            ∀ node ∈ nodes, node.span ≠ dummy →
              lower ≤ node.span.start ∧ node.span.stop ≤ upper) := by
  refine ⟨cover_assoc, fun span => ⟨cover_dummy_left span, cover_dummy_right span⟩, ?_, ?_⟩
  · intro left right hleft hright
    exact cover_ne_dummy hleft hright
  intro tag nodes
  constructor
  · exact coverAll_eq_dummy_iff.trans List.forall_mem_map
  · rintro ⟨node, hnode, hspan⟩
    have hmem : node.span ∈ real (nodes.map (·.span)) :=
      mem_real.mpr ⟨List.mem_map_of_mem hnode, hspan⟩
    have hencloses : Encloses (wrap tag nodes).span (real (nodes.map (·.span))) := by
      have hreal := encloses_coverAll (List.ne_nil_of_mem hmem)
        fun span hspan => (mem_real.mp hspan).2
      rwa [coverAll_real] at hreal
    refine ⟨hencloses, fun lower upper => ?_⟩
    rw [hencloses.smallest]
    simp [mem_real]

/-- A dummy span and a reversed one among others: the reversed one is the leftmost that starts
first, and so it gives line and column, but not the end. -/
theorem wrap_encloses_reversed :
    Encloses (wrap .chain [.leaf .ident dummy, .leaf .ident ⟨7, 3, 2, 8⟩,
        .leaf .ident ⟨7, 9, 1, 8⟩, .leaf .ident ⟨8, 8, 1, 9⟩]).span
      [⟨7, 3, 2, 8⟩, ⟨7, 9, 1, 8⟩, ⟨8, 8, 1, 9⟩] ∧
    cover ⟨7, 3, 2, 8⟩ ⟨8, 8, 1, 9⟩ ≠ dummy := by
  obtain ⟨-, -, hreal, hwrap⟩ := wrap_encloses
  refine ⟨((hwrap .chain _).2 ⟨.leaf .ident ⟨7, 3, 2, 8⟩, by simp, by decide⟩).1, ?_⟩
  exact hreal _ _ (by decide) (by decide)

end Rule

end CanonTree
