import CanonTree.Proofs.Reduced

/-!
# No node is lost and none is doubled

Normalizing a tree takes over every node that is canonical already and not below a
placeholder, exactly once and with all that it holds; only items of variable lists and
dimension lists of array creations are opened, and literal parts of a template change their
tag.  What comes on top is one node for each raw node, with its span, and nodes that the
rules add, which have one of nine tags.

The account is kept by `Conserved`: it closes under putting forests side by side and under
doing one step after another, so it holds of a whole run because it holds of each step.
-/

namespace CanonTree

open scoped List

/-- What a node holds, apart from its children and its scope. -/
structure Content where
  tag : Tag
  span : Span
  text : Option String
  operator : Option Operator
deriving DecidableEq

namespace Node

def content (node : Node) : Content :=
  ⟨node.tag, node.span, node.text, node.operator⟩

/-- The node alone, without its children. -/
def bare (node : Node) : Node :=
  { node with children := [] }

/-! ## What is to be accounted for -/

/-- The nodes of a forest below the given ancestors that are not below a placeholder, each with
its own ancestors. -/
def visibleAll (ancestors nodes : List Node) : List (List Node × Node) :=
  (lineageAll ancestors nodes).filter fun entry => entry.1.all (!·.tag.isDiscarded)

/-- The node as it is taken over from below a node with the given tag.  It is not if it is raw
or a placeholder, or if its children are taken over in its place. -/
def survivor (parent : Option Tag) (node : Node) : Option Node :=
  if node.tag.Final then
    match Rule.fate parent node.tag with
    | .kept => some node.bare
    | .renamed tag => some { node.bare with tag := .shared tag }
    | .opened => none
  else none

def survivorsAll (ancestors nodes : List Node) : List Node :=
  (visibleAll ancestors nodes).filterMap fun entry =>
    survivor (entry.1.head?.map (·.tag)) entry.2

/-- The nodes of a tree that are taken over when it is reduced. -/
def survivors (root : Node) : List Node :=
  survivorsAll [] [root]

def rawNodesAll (ancestors nodes : List Node) : List Node :=
  ((visibleAll ancestors nodes).map (·.2)).filter (·.tag.isRaw)

/-- The raw nodes of a tree that are replaced when it is reduced. -/
def rawNodes (root : Node) : List Node :=
  rawNodesAll [] [root]

/-- Nothing below a placeholder is visible. -/
theorem visibleAll_of_discarded (nodes : List Node) :
    ∀ {ancestors}, (∃ ancestor ∈ ancestors, ancestor.tag.isDiscarded = true) →
      visibleAll ancestors nodes = [] := by
  induction nodes using forest_induction with
  | nil =>
      intro ancestors _
      rfl
  | cons node nodes hchildren hnodes =>
      intro ancestors hdiscarded
      have hbelow : visibleAll (node :: ancestors) node.children = [] := by
        apply hchildren
        exact hdiscarded.imp fun _ h => ⟨List.mem_cons_of_mem _ h.1, h.2⟩
      have hothers := hnodes hdiscarded
      have hhidden : ancestors.all (!·.tag.isDiscarded) = false := by
        simpa using hdiscarded
      rw [visibleAll] at hbelow hothers ⊢
      rw [lineageAll, lineageBelow_eq, List.filter_append, List.filter_cons, hbelow, hothers,
        hhidden]
      rfl

/-- A placeholder is visible itself and hides what is below it. -/
theorem visibleAll_cons {ancestors : List Node}
    (hancestors : ∀ ancestor ∈ ancestors, ancestor.tag.isDiscarded = false) (node : Node)
    (nodes : List Node) :
    visibleAll ancestors (node :: nodes) =
      (ancestors, node) ::
        ((if node.tag.isDiscarded then [] else visibleAll (node :: ancestors) node.children) ++
          visibleAll ancestors nodes) := by
  have hvisible : ancestors.all (!·.tag.isDiscarded) = true := by
    simpa using hancestors
  have hbelow : (if node.tag.isDiscarded then []
      else visibleAll (node :: ancestors) node.children) =
      visibleAll (node :: ancestors) node.children := by
    split
    · rename_i hdiscarded
      exact (visibleAll_of_discarded node.children ⟨node, List.mem_cons_self, hdiscarded⟩).symm
    · rfl
  rw [hbelow]
  simp only [visibleAll, lineageAll, lineageBelow_eq, List.filter_append, List.filter_cons,
    hvisible, if_true, List.cons_append]

section Visible

variable {ancestors : List Node}
  (hancestors : ∀ ancestor ∈ ancestors, ancestor.tag.isDiscarded = false)

include hancestors

theorem survivorsAll_cons (node : Node) (nodes : List Node) :
    survivorsAll ancestors (node :: nodes) =
      (survivor (ancestors.head?.map (·.tag)) node).toList ++
        ((if node.tag.isDiscarded then [] else survivorsAll (node :: ancestors) node.children) ++
          survivorsAll ancestors nodes) := by
  rw [survivorsAll, visibleAll_cons hancestors, List.filterMap_cons, List.filterMap_append]
  cases node.tag.isDiscarded <;> cases survivor (ancestors.head?.map (·.tag)) node <;> rfl

theorem rawNodesAll_cons (node : Node) (nodes : List Node) :
    rawNodesAll ancestors (node :: nodes) =
      (if node.tag.isRaw then [node] else []) ++
        ((if node.tag.isDiscarded then [] else rawNodesAll (node :: ancestors) node.children) ++
          rawNodesAll ancestors nodes) := by
  rw [rawNodesAll, visibleAll_cons hancestors, List.map_cons, List.map_append, List.filter_cons,
    List.filter_append]
  cases node.tag.isDiscarded <;> cases node.tag.isRaw <;> rfl

end Visible

theorem survivor_eq_none {parent : Option Tag} {node : Node}
    (hgone : node.tag.isRaw = true ∨ node.tag.isDiscarded = true) :
    survivor parent node = none := by
  apply if_neg
  rintro ⟨hraw, hdiscarded⟩
  simp [hraw, hdiscarded] at hgone

theorem survivor_of_kept {parent : Option Tag} {node : Node} (hfinal : node.tag.Final)
    (hkept : Rule.fate parent node.tag = .kept) : survivor parent node = some node.bare := by
  rw [survivor, if_pos hfinal, hkept]

/-! ## What is left of a forest -/

def bareAll (nodes : List Node) : List Node :=
  (preorderAll nodes).map bare

/-- The nodes of a reduced forest, as they are taken over from below a node with the given tag. -/
def held (parent : Option Tag) (nodes : List Node) : List Node :=
  nodes.flatMap fun node => (survivor parent node).toList ++ bareAll node.children

theorem bareAll_append (left right : List Node) :
    bareAll (left ++ right) = bareAll left ++ bareAll right := by
  rw [bareAll, preorderAll_append, List.map_append]
  rfl

theorem bareAll_eq_flatMap (nodes : List Node) :
    bareAll nodes = nodes.flatMap fun node => node.bare :: bareAll node.children := by
  induction nodes with
  | nil => rfl
  | cons node nodes ih =>
      rw [List.flatMap_cons, ← ih, bareAll, preorderAll, preorder_eq, List.map_append]
      rfl

theorem bareAll_cons (node : Node) (nodes : List Node) :
    bareAll (node :: nodes) = node.bare :: (bareAll node.children ++ bareAll nodes) := by
  rw [bareAll_eq_flatMap, List.flatMap_cons, ← bareAll_eq_flatMap]
  rfl

theorem bareAll_singleton (node : Node) : bareAll [node] = node.bare :: bareAll node.children := by
  rw [bareAll_eq_flatMap, List.flatMap_singleton]

theorem bareAll_perm {left right : List Node} (hperm : left.Perm right) :
    (bareAll left).Perm (bareAll right) := by
  rw [bareAll_eq_flatMap, bareAll_eq_flatMap]
  exact hperm.flatMap_right _

theorem held_cons (parent : Option Tag) (node : Node) (nodes : List Node) :
    held parent (node :: nodes) =
      (survivor parent node).toList ++ (bareAll node.children ++ held parent nodes) := by
  rw [held, List.flatMap_cons, List.append_assoc]
  rfl

/-- Below a node that opens and renames nothing, all nodes are taken over as they are. -/
theorem held_eq_bareAll {parent : Option Tag} {nodes : List Node}
    (hkept : ∀ tag, Rule.fate parent tag = .kept) (hcanonical : AllCanonical nodes) :
    held parent nodes = bareAll nodes := by
  rw [held, bareAll_eq_flatMap]
  apply List.flatMap_congr
  intro node hnode
  rw [survivor_of_kept (canonical_iff.mp (hcanonical node hnode)).1 (hkept node.tag)]
  rfl

theorem bareAll_yielded (tag : RawTag) {node : Node} (hfinal : node.tag.Final) :
    bareAll (Rule.yielded tag node) =
      (survivor (some (.raw tag)) node).toList ++ bareAll node.children := by
  rw [survivor, if_pos hfinal, Rule.yielded]
  cases Rule.fate (some (.raw tag)) node.tag with
  | kept => exact bareAll_singleton node
  | renamed renamed => exact bareAll_singleton { node with tag := .shared renamed }
  | opened => rfl

/-- What a rule has to work with is what is taken over from below the raw node. -/
theorem held_eq_bareAll_material (tag : RawTag) {nodes : List Node}
    (hcanonical : AllCanonical nodes) :
    held (some (.raw tag)) nodes = bareAll (Rule.material tag nodes) := by
  rw [Rule.material, bareAll_eq_flatMap, List.flatMap_assoc, held]
  apply List.flatMap_congr
  intro node hnode
  rw [← bareAll_eq_flatMap, bareAll_yielded tag (canonical_iff.mp (hcanonical node hnode)).1]

end Node

/-! ## The account -/

/-- The node stands for a raw node. -/
structure StandsFor (raw result : Node) : Prop where
  tag : ∃ tag, raw.tag = .raw tag ∧ result.tag = Rule.resultTag tag
  span : result.span = raw.span
  scope : result.scope = none

/-- The node is one that rules add. -/
structure IsAdded (node : Node) : Prop where
  tag : ∃ tag ∈ Rule.addedTags, node.tag = .shared tag
  scope : node.scope = none

/-- The nodes `found` are the nodes `owed`, one for each of the nodes `raws`, and nodes that rules
add. -/
def Conserved (raws found owed : List Node) : Prop :=
  ∃ results added, found.Perm (owed ++ (results ++ added)) ∧
    List.Forall₂ StandsFor raws results ∧ ∀ node ∈ added, IsAdded node

namespace Conserved

variable {raws raws' found found' owed owed' : List Node}

theorem refl (nodes : List Node) : Conserved [] nodes nodes := by
  refine ⟨[], [], ?_, .nil, by simp⟩
  rw [List.append_nil, List.append_nil]

theorem of_perm (hconserved : Conserved raws found owed) (howed : owed.Perm owed') :
    Conserved raws found owed' := by
  obtain ⟨results, added, hperm, hresults, hadded⟩ := hconserved
  exact ⟨results, added, hperm.trans (howed.append_right _), hresults, hadded⟩

theorem add {node : Node} (hnode : IsAdded node) (hconserved : Conserved raws found owed) :
    Conserved raws (node :: found) owed := by
  obtain ⟨results, added, hperm, hresults, hadded⟩ := hconserved
  refine ⟨results, node :: added, ?_, hresults, List.forall_mem_cons.mpr ⟨hnode, hadded⟩⟩
  calc
    node :: found ~ node :: (owed ++ (results ++ added)) := hperm.cons node
    _ ~ owed ++ (node :: (results ++ added)) := List.perm_middle.symm
    _ ~ owed ++ (results ++ node :: added) := List.perm_middle.symm.append_left owed

theorem replace {raw result : Node} (hresult : StandsFor raw result)
    (hconserved : Conserved raws found owed) : Conserved (raw :: raws) (result :: found) owed := by
  obtain ⟨results, added, hperm, hresults, hadded⟩ := hconserved
  refine ⟨result :: results, added, ?_, hresults.cons hresult, hadded⟩
  calc
    result :: found ~ result :: (owed ++ (results ++ added)) := hperm.cons result
    _ ~ owed ++ (result :: results ++ added) := List.perm_middle.symm

/-- Forests side by side. -/
theorem append (hleft : Conserved raws found owed) (hright : Conserved raws' found' owed') :
    Conserved (raws ++ raws') (found ++ found') (owed ++ owed') := by
  obtain ⟨results, added, hperm, hresults, hadded⟩ := hleft
  obtain ⟨results', added', hperm', hresults', hadded'⟩ := hright
  refine ⟨results ++ results', added ++ added', ?_, List.rel_append hresults hresults',
    List.forall_mem_append.mpr ⟨hadded, hadded'⟩⟩
  rw [List.perm_iff_count] at hperm hperm' ⊢
  intro node
  have hcount := hperm node
  have hcount' := hperm' node
  simp only [List.count_append] at hcount hcount' ⊢
  omega

/-- A step that only adds nodes, after another. -/
theorem trans (hsecond : Conserved [] found' found) (hfirst : Conserved raws found owed) :
    Conserved raws found' owed := by
  obtain ⟨none, added', hperm', hnone, hadded'⟩ := hsecond
  obtain ⟨results, added, hperm, hresults, hadded⟩ := hfirst
  cases hnone
  refine ⟨results, added ++ added', ?_, hresults, List.forall_mem_append.mpr ⟨hadded, hadded'⟩⟩
  calc
    found' ~ found ++ added' := hperm'
    _ ~ owed ++ (results ++ added) ++ added' := hperm.append_right added'
    _ = owed ++ (results ++ (added ++ added')) := by simp only [List.append_assoc]

end Conserved

/-! ## One rule and a whole forest -/

open Node

theorem Tag.flags_raw (tag : RawTag) :
    (Tag.raw tag).isRaw = true ∧ (Tag.raw tag).isDiscarded = false := by
  cases tag <;> exact ⟨rfl, rfl⟩

theorem Tag.isRaw_of_isDiscarded {tag : Tag} (hdiscarded : tag.isDiscarded = true) :
    tag.isRaw = false := by
  apply isRaw_eq_false
  intro raw htag
  rw [htag, (flags_raw raw).2] at hdiscarded
  cases hdiscarded

theorem Rule.final_resultTag (tag : RawTag) : (resultTag tag).Final := by
  cases tag with
  | java tag => cases tag <;> decide
  | ecma tag => cases tag <;> decide

/-- The node that stands for a raw node is taken over as it is from below any other. -/
theorem Rule.survivor_of_replaces {tag : RawTag} {node result : Node}
    (hresult : Replaces tag node result) (parent : Option Tag) :
    survivor parent result = some result.bare := by
  apply survivor_of_kept
  · rw [hresult.tag]
    exact final_resultTag tag
  · rw [hresult.tag]
    exact fate_resultTag parent tag

/-- Putting nodes together adds nodes, and loses and doubles none. -/
theorem Rule.conserved_of_assembled {node : Node} {taken made : List Node}
    (hmade : Assembled node taken made) : Conserved [] (bareAll made) (bareAll taken) := by
  induction hmade with
  | kept node nodes => exact .refl _
  | mark node htag text =>
      rw [bareAll_singleton]
      exact .add ⟨⟨_, htag, rfl⟩, rfl⟩ (.refl [])
  | group node htag nodes =>
      rw [bareAll_singleton]
      exact .add ⟨⟨_, htag, rfl⟩, rfl⟩ (.refl (bareAll nodes))
  | declared hitem name hinner ih =>
      rw [bareAll_singleton]
      refine .add ⟨⟨.decl, by decide, rfl⟩, rfl⟩ ?_
      -- the children of the declaration are its properties and what was put together before
      exact .append (.add ⟨⟨.props, by decide, rfl⟩, rfl⟩ (.refl [])) ih
  | append hfirst hothers ihfirst ihothers =>
      rw [bareAll_append, bareAll_append]
      exact ihfirst.append ihothers
  | perm hperm hmade ih => exact ih.of_perm (bareAll_perm hperm)

/-- A reduced forest holds what survives of the forest that was given, and the nodes that stand
for its raw nodes or were added. -/
theorem conserved_of_reduced {nodes results : List Node} (hreduced : Reduced nodes results) :
    ∀ ancestors : List Node, (∀ ancestor ∈ ancestors, ancestor.tag.isDiscarded = false) →
      Conserved (rawNodesAll ancestors nodes)
        (held (ancestors.head?.map (·.tag)) results) (survivorsAll ancestors nodes) := by
  induction hreduced with
  | nil =>
      intro ancestors _
      exact .refl []
  | @dropped node nodes others hdiscarded hothers ih =>
      intro ancestors hancestors
      rw [rawNodesAll_cons hancestors, survivorsAll_cons hancestors, hdiscarded,
        Tag.isRaw_of_isDiscarded hdiscarded, survivor_eq_none (.inr hdiscarded)]
      exact ih ancestors hancestors
  | @kept node nodes below others hfinal hcanonical hbelow hothers ihbelow ihothers =>
      intro ancestors hancestors
      have hbelowHeld := ihbelow (node :: ancestors)
        (List.forall_mem_cons.mpr ⟨hfinal.2, hancestors⟩)
      rw [List.head?_cons, Option.map_some,
        held_eq_bareAll (Rule.fate_of_isRaw_eq_false hfinal.1) hcanonical] at hbelowHeld
      have hnode := Conserved.refl (survivor (ancestors.head?.map (·.tag)) node).toList
      rw [rawNodesAll_cons hancestors, survivorsAll_cons hancestors, hfinal.1, hfinal.2, held_cons]
      exact hnode.append (hbelowHeld.append (ihothers ancestors hancestors))
  | @replaced tag node result nodes below others htag hcanonical hbelow hresult hothers
      ihbelow ihothers =>
      intro ancestors hancestors
      obtain ⟨hraw, hdiscarded⟩ := Tag.flags_raw tag
      rw [← htag] at hraw hdiscarded
      have hbelowHeld := ihbelow (node :: ancestors)
        (List.forall_mem_cons.mpr ⟨hdiscarded, hancestors⟩)
      rw [List.head?_cons, Option.map_some, htag,
        held_eq_bareAll_material tag hcanonical] at hbelowHeld
      -- the rule adds nodes to what was held below, and the result stands for the raw node
      have hchildren := (Rule.conserved_of_assembled hresult.children).trans hbelowHeld
      have hbare : StandsFor node result.bare :=
        ⟨⟨tag, htag, hresult.tag⟩, hresult.span, hresult.scope⟩
      rw [rawNodesAll_cons hancestors, survivorsAll_cons hancestors, hraw, hdiscarded,
        survivor_eq_none (.inl hraw), held_cons, Rule.survivor_of_replaces hresult]
      exact (hchildren.append (ihothers ancestors hancestors)).replace hbare

namespace Normalizer

variable {normalizer : Normalizer} {root : Node} {tree : CanonicalTree}

/-- Before names are bound, the nodes of a normalized tree are the survivors, the nodes that stand
for raw nodes and those that were added. -/
theorem conserved_of_normalize (hok : normalizer.normalize root = .ok tree) :
    ∃ reduced, tree.root = (normalizer.bindNames reduced).2 ∧
      Conserved root.rawNodes (reduced.preorder.map bare) root.survivors := by
  obtain ⟨reduced, hreduced, hcanonical, hroot⟩ := reduced_of_normalize hok
  have hconserved := conserved_of_reduced hreduced [] (List.forall_mem_nil _)
  have hheld : held none [reduced] = reduced.preorder.map bare := by
    rw [held_eq_bareAll (fun _ => rfl) (allCanonical_cons.mpr ⟨hcanonical, allCanonical_nil⟩),
      bareAll, preorderAll_singleton]
  exact ⟨reduced, hroot, hheld ▸ hconserved⟩

/-- No node is lost and none is doubled: the nodes of a normalized tree are the survivors of the
tree that was given, with their tags, spans, texts and operators, one node for each raw node, which
has its span, and nodes that rules add. -/
theorem normalize_conserves (hok : normalizer.normalize root = .ok tree) :
    ∃ results added : List Content,
      (tree.root.toList.map content).Perm
        (root.survivors.map content ++ (results ++ added)) ∧
      List.Forall₂ (fun raw result => result.span = raw.span ∧
        ∃ tag, raw.tag = .raw tag ∧ result.tag = Rule.resultTag tag) root.rawNodes results ∧
      ∀ extra ∈ added, ∃ tag ∈ Rule.addedTags, extra.tag = .shared tag := by
  obtain ⟨reduced, hroot, results, added, hperm, hresults, hadded⟩ := conserved_of_normalize hok
  have hcontent : ∀ node : Node, node.eraseScopes.content = node.content := by
    intro node
    rw [eraseScopes_eq]
    rfl
  refine ⟨results.map content, added.map content, ?_, ?_, ?_⟩
  · calc
      tree.root.toList.map content
        = reduced.preorder.map content := by
          rw [toList_eq_preorder, hroot]
          exact map_preorder_congr hcontent (eraseScopes_bindNames normalizer reduced)
      _ = (reduced.preorder.map bare).map content := by
          rw [List.map_map]
          rfl
      _ ~ (root.survivors ++ (results ++ added)).map content := hperm.map content
      _ = root.survivors.map content ++ (results.map content ++ added.map content) := by
          rw [List.map_append, List.map_append]
  · rw [List.forall₂_map_right_iff]
    exact hresults.imp fun _ _ hresult => ⟨hresult.span, hresult.tag⟩
  · intro extra hextra
    obtain ⟨node, hnode, rfl⟩ := List.mem_map.mp hextra
    exact (hadded node hnode).tag

/-- A variable whose value is a template, next to a placeholder. -/
def templateUnit : Node :=
  .branch .list ⟨0, 40, 1, 1⟩
    [.branch .discarded ⟨0, 2, 1, 1⟩ [.leaf .ident ⟨0, 1, 1, 1⟩],
      ⟨.raw (.ecma .variableList), ⟨3, 40, 1, 4⟩, none, none,
        [(Node.leaf .modifier ⟨3, 8, 1, 4⟩).withText "const",
          .branch .item ⟨9, 39, 1, 10⟩
            [(Node.leaf .ident ⟨9, 10, 1, 10⟩).withText "x",
              ⟨.raw (.ecma .templateString), ⟨13, 39, 1, 14⟩, none, none,
                [(Node.leaf .literal ⟨14, 20, 1, 15⟩).withText "value:",
                  ⟨.raw (.ecma .spread), ⟨22, 30, 1, 23⟩, none, none,
                    [(Node.leaf .ident ⟨25, 30, 1, 26⟩).withText "parts"], none⟩], none⟩]], none⟩]

/-- The item is opened, the literal renamed, and nothing below the placeholder counts. -/
theorem normalize_conserves_templateUnit :
    templateUnit.survivors.map (·.tag) =
        [.shared .list, .shared .modifier, .shared .ident, .shared .templateText, .shared .ident] ∧
      templateUnit.rawNodes.map (·.span.start) = [3, 13, 22] ∧
      ∃ tree, (⟨.ecma, {}⟩ : Normalizer).normalize templateUnit = .ok tree ∧
        ∃ results added : List Content,
          (tree.root.toList.map content).Perm
            (templateUnit.survivors.map content ++ (results ++ added)) ∧
          List.Forall₂ (fun raw result => result.span = raw.span ∧
            ∃ tag, raw.tag = .raw tag ∧ result.tag = Rule.resultTag tag)
              templateUnit.rawNodes results ∧
          ∀ extra ∈ added, ∃ tag ∈ Rule.addedTags, extra.tag = .shared tag := by
  refine ⟨by decide, by decide, ?_⟩
  have hreplaced : ((⟨.ecma, {}⟩ : Normalizer).normalize templateUnit).toOption.any
      (fun tree => tree.stats.reduced == 3) = true := by
    decide +kernel
  obtain ⟨tree, hok, -⟩ := exists_normalize_of_any hreplaced
  exact ⟨tree, hok, normalize_conserves hok⟩

end Normalizer

end CanonTree
