import CanonTree.Node.Shape
import CanonTree.Proofs.Rule.Outcome
import Mathlib.Data.List.Perm.Basic
import Mathlib.Data.List.TakeDrop

/-!
# What the rules build their nodes from

A rule takes over the children of the raw node, each of them exactly once.  It may move
them, put a new node around some of them, and add new nodes without children; it opens
the items of a variable list and the dimension lists of an array creation, whose own
children it takes over instead.  `Assembled` is the relation between the nodes that are taken
over and the nodes made of them, and `Replaces` says it of a raw node and the node that stands
for it.  Facts about all rules follow from these two, without going through the rules again.
-/

namespace CanonTree.Rule

variable {node result : Node} {nodes taken made : List Node}

/-! ## What is taken over -/

/-- What becomes of a canonical node when the node above it is reduced. -/
inductive Fate where
  /-- The node is taken over as it is. -/
  | kept
  /-- The node is taken over under another tag. -/
  | renamed (tag : SharedTag)
  /-- The children of the node are taken over in its place. -/
  | opened

/-- A node is opened or renamed only by its tag and that of the raw node above it. -/
def fate (parent : Option Tag) (tag : Tag) : Fate :=
  match parent with
  | some (.raw (.ecma .variableList)) => if tag = .shared .item then .opened else .kept
  | some (.raw (.java .arrayInstantiation)) => if tag = .shared .arrayDims then .opened else .kept
  | some (.raw (.ecma .templateString)) =>
      if tag = .shared .literal then .renamed .templateText else .kept
  | _ => .kept

/-- Only raw nodes open or rename what is below them. -/
theorem fate_of_isRaw_eq_false {parent : Tag} (hparent : parent.isRaw = false) (tag : Tag) :
    fate (some parent) tag = .kept := by
  cases parent with
  | shared parent => rfl
  | java parent => rfl
  | raw parent => cases parent <;> cases hparent

/-- A node that stands for a raw node is neither opened nor renamed. -/
theorem fate_resultTag (parent : Option Tag) (tag : RawTag) :
    fate parent (resultTag tag) = .kept := by
  have hdistinct : resultTag tag ≠ .shared .item ∧ resultTag tag ≠ .shared .arrayDims ∧
      resultTag tag ≠ .shared .literal := by
    cases tag with
    | java tag => cases tag <;> decide
    | ecma tag => cases tag <;> decide
  obtain ⟨hitem, hdims, hliteral⟩ := hdistinct
  unfold fate
  split
  · exact if_neg hitem
  · exact if_neg hdims
  · exact if_neg hliteral
  · rfl

/-- What is taken over of one child of a raw node. -/
def yielded (tag : RawTag) (child : Node) : List Node :=
  match fate (some (.raw tag)) child.tag with
  | .kept => [child]
  | .renamed renamed => [{ child with tag := .shared renamed }]
  | .opened => child.children

/-- All that a rule takes over of the children of a raw node. -/
def material (tag : RawTag) (children : List Node) : List Node :=
  children.flatMap (yielded tag)

/-- Most rules take over the children as they are. -/
theorem material_eq_self {tag : RawTag}
    (hkept : ∀ inner, fate (some (.raw tag)) inner = .kept) (children : List Node) :
    material tag children = children := by
  have hyielded : yielded tag = fun child => [child] := by
    funext child
    rw [yielded, hkept]
  rw [material, hyielded, List.flatMap_singleton']

theorem material_perm (tag : RawTag) {left right : List Node} (hperm : left.Perm right) :
    (material tag left).Perm (material tag right) :=
  hperm.flatMap_right (yielded tag)

theorem yielded_variableList (child : Node) :
    yielded (.ecma .variableList) child =
      if child.is .item then child.children else [child] := by
  by_cases htag : child.tag = .shared .item <;> simp [yielded, fate, Node.is, htag]

theorem yielded_arrayInstantiation (child : Node) :
    yielded (.java .arrayInstantiation) child =
      if child.is .arrayDims then child.children else [child] := by
  by_cases htag : child.tag = .shared .arrayDims <;> simp [yielded, fate, Node.is, htag]

theorem yielded_templateString (child : Node) :
    yielded (.ecma .templateString) child = [Ecma.templatePart child] := by
  by_cases htag : child.tag = .shared .literal <;>
    simp [yielded, fate, Ecma.templatePart, Node.is, htag]

/-! ## Parts of a forest -/

theorem first?_append_withoutFirst_perm (tag : SharedTag) (nodes : List Node) :
    ((first? tag nodes).toList ++ withoutFirst tag nodes).Perm nodes := by
  induction nodes with
  | nil => exact List.Perm.nil
  | cons node nodes ih =>
      rw [first?, withoutFirst, List.find?_cons, List.eraseP_cons]
      cases hnode : node.is tag with
      | true => exact List.Perm.refl _
      | false =>
          refine List.Perm.trans List.perm_middle ?_
          exact List.Perm.cons node ih

theorem withoutLast_append_last?_perm (tag : SharedTag) (nodes : List Node) :
    (withoutLast tag nodes ++ (last? tag nodes).toList).Perm nodes := by
  have hfirst := first?_append_withoutFirst_perm tag nodes.reverse
  have hreversed : (withoutLast tag nodes ++ (last? tag nodes).toList).Perm
      ((first? tag nodes.reverse).toList ++ withoutFirst tag nodes.reverse) :=
    List.perm_append_comm.trans ((List.reverse_perm _).append_left _)
  exact hreversed.trans (hfirst.trans (List.reverse_perm nodes))

theorem is_of_first? {tag : SharedTag} (hfirst : first? tag nodes = some node) :
    node.is tag = true := by
  have hfound := List.find?_some (p := fun inner : Node => inner.is tag) hfirst
  exact hfound

/-- A node has only one tag. -/
theorem is_eq_false {tag other : SharedTag} (hne : tag ≠ other) (hother : node.is other = true) :
    node.is tag = false := by
  simp only [Node.is, beq_iff_eq, beq_eq_false_iff_ne] at hother ⊢
  rw [hother, ne_eq, Tag.shared.injEq]
  exact hne.symm

/-- Taking out a node with one tag leaves the first one with another tag. -/
theorem first?_withoutFirst {tag other : SharedTag} (hne : tag ≠ other) (nodes : List Node) :
    first? tag (withoutFirst other nodes) = first? tag nodes := by
  induction nodes with
  | nil => rfl
  | cons node nodes ih =>
      rw [first?, withoutFirst] at ih ⊢
      rw [List.eraseP_cons, first?, List.find?_cons]
      cases hother : node.is other with
      | true =>
          rw [is_eq_false hne hother]
          rfl
      | false =>
          rw [cond_false, List.find?_cons, ih]
          rfl

theorem append_of_span {test : Node → Bool} {before others : List Node}
    (hspan : nodes.span test = (before, others)) : before ++ others = nodes := by
  rw [List.span_eq_takeWhile_dropWhile, Prod.mk.injEq] at hspan
  rw [← hspan.1, ← hspan.2, List.takeWhile_append_dropWhile]

/-! ## What is made of it -/

def addedTags : List SharedTag :=
  [.decl, .props, .init, .chain, .arguments, .arrayDims, .typeUnion, .typeIntersection,
    .defaultMark]

/-- The nodes `made` are put together below `node` from the nodes `taken`. -/
inductive Assembled : Node → List Node → List Node → Prop where
  | kept (node : Node) (nodes : List Node) : Assembled node nodes nodes
  /-- A new node without children, with the span of the node above. -/
  | mark (node : Node) {tag : SharedTag} (htag : tag ∈ addedTags) (text : Option String) :
      Assembled node [] [{ Node.leaf tag node.span with text := text }]
  /-- A new node around others, with the span that covers them. -/
  | group (node : Node) {tag : SharedTag} (htag : tag ∈ addedTags) (nodes : List Node) :
      Assembled node nodes [wrap tag nodes]
  /-- A declaration in the place of an item, put together from the children of the item. -/
  | declared {node item : Node} {inner : List Node} (hitem : item ∈ node.children)
      (name : String) (hinner : Assembled item item.children inner) :
      Assembled node item.children [declare .variableName name item inner]
  | append {node : Node} {taken made taken' made' : List Node}
      (hfirst : Assembled node taken made) (hothers : Assembled node taken' made') :
      Assembled node (taken ++ taken') (made ++ made')
  | perm {node : Node} {taken made taken' : List Node} (hperm : taken.Perm taken')
      (hmade : Assembled node taken made) : Assembled node taken' made

theorem Assembled.of_perm {node : Node} {taken taken' made : List Node}
    (hmade : Assembled node taken made) (hperm : taken.Perm taken') :
    Assembled node taken' made :=
  .perm hperm hmade

/-- The children of a node are put together below `node` from the nodes `taken`, and it has no
scope. -/
structure Built (node : Node) (taken : List Node) (result : Node) : Prop where
  scope : result.scope = none
  children : Assembled node taken result.children

/-- The `ARGUMENTS` among some nodes, or else a new one. -/
theorem assembled_arguments (node : Node) (nodes : List Node) :
    Assembled node (first? .arguments nodes).toList
      [(first? .arguments nodes).getD (.leaf .arguments node.span)] := by
  cases first? .arguments nodes with
  | none => exact .mark node (by decide) none
  | some arguments => exact .kept node [arguments]

/-- Nodes put in one group, if there are any. -/
theorem assembled_group_of_nonempty (node : Node) {tag : SharedTag} (htag : tag ∈ addedTags)
    (nodes : List Node) :
    Assembled node nodes (if nodes.isEmpty then [] else [wrap tag nodes]) := by
  cases nodes with
  | nil => exact .kept node []
  | cons first others => exact .group node htag (first :: others)

theorem built_declare (kind : DeclKind) (name : String) (node : Node)
    (hmade : Assembled node taken made) : Built node taken (declare kind name node made) :=
  ⟨rfl, .append (.mark node (by decide) (some kind.name)) hmade⟩

theorem assembled_gather (node : Node) (tag : SharedTag) {group : SharedTag} (least : Nat)
    (hgroup : group ∈ addedTags) (nodes : List Node) :
    Assembled node nodes (gather tag group least nodes) := by
  rw [gather]
  split
  · exact .kept node nodes
  · split
    · rename_i before hspan
      rw [← append_of_span hspan, List.append_nil]
      exact .kept node before
    · rename_i before others _ hspan
      have hmade : Assembled node
          (before ++ (others.filter (·.is tag) ++ others.filter (!·.is tag)))
          (before ++ wrap group (others.filter (·.is tag)) :: others.filter (!·.is tag)) :=
        .append (.kept node before) (.append (.group node hgroup _) (.kept node _))
      rw [← append_of_span hspan]
      exact hmade.of_perm ((List.filter_append_perm _ others).append_left before)

/-! ## Rules of Java -/

namespace Java

theorem built_constructorCall (haccepted : constructorCall node = .ok result) :
    Built node node.children result := by
  obtain ⟨before, target, others, hspan, rfl⟩ := constructorCall_ok_iff.mp haccepted
  rw [← append_of_span hspan]
  have hcallee : Assembled node (before.filter (!·.is .typeArguments) ++ [target])
      [if (before.filter (!·.is .typeArguments)).isEmpty then target
        else wrap .chain (before.filter (!·.is .typeArguments) ++ [target])] := by
    split
    · rename_i hempty
      rw [List.isEmpty_iff.mp hempty]
      exact .kept node [target]
    · exact .group node (by decide) _
  have hmade := hcallee.append ((Assembled.kept node (before.filter (·.is .typeArguments))).append
    ((assembled_arguments node others).append (.kept node (withoutFirst .arguments others))))
  refine ⟨rfl, hmade.of_perm ?_⟩
  rw [List.perm_iff_count]
  intro inner
  have hbefore := (List.filter_append_perm (·.is .typeArguments) before).count_eq inner
  have hothers := (first?_append_withoutFirst_perm .arguments others).count_eq inner
  simp only [List.count_append, List.count_cons, List.count_nil] at hbefore hothers ⊢
  omega

/-- The dimensions and the other children of an array creation, once its lists of dimensions are
opened. -/
theorem dimensions_append_others_perm (nodes : List Node) :
    (nodes.flatMap dimensionsOf ++
      nodes.filter fun child => !child.is .arrayDim && !child.is .arrayDims).Perm
        (material (.java .arrayInstantiation) nodes) := by
  induction nodes with
  | nil => exact List.Perm.nil
  | cons child nodes ih =>
      rw [material] at ih ⊢
      rw [List.flatMap_cons, List.flatMap_cons, List.filter_cons, yielded_arrayInstantiation,
        dimensionsOf]
      cases hdim : child.is .arrayDim with
      | true =>
          rw [is_eq_false (by decide) hdim]
          exact ih.append_left [child]
      | false =>
          cases hdims : child.is .arrayDims with
          | true =>
              simp only [Bool.false_eq_true, if_true, if_false, Bool.not_true, Bool.and_false,
                List.append_assoc]
              exact ih.append_left child.children
          | false => exact List.perm_middle.trans (ih.cons child)

theorem built_arrayCreation (haccepted : arrayCreation node = .ok result) :
    Built node (material (.java .arrayInstantiation) node.children) result := by
  obtain ⟨element, dimensions, rest, helement, hdimensions, hrest, -, rfl⟩ :=
    arrayCreation_ok_iff.mp haccepted
  have hgroup : SharedTag.arrayDims ∈ addedTags := by decide
  have hmade := (Assembled.kept node [element]).append
    ((assembled_group_of_nonempty node hgroup dimensions).append (.kept node rest))
  refine ⟨rfl, hmade.of_perm ?_⟩
  have hothers := dimensions_append_others_perm (withoutFirst .type node.children)
  rw [hdimensions, hrest] at hothers
  have hchildren := material_perm (.java .arrayInstantiation)
    (first?_append_withoutFirst_perm .type node.children)
  have helementKept : yielded (.java .arrayInstantiation) element = [element] := by
    rw [yielded_arrayInstantiation, is_eq_false (by decide) (is_of_first? helement)]
    rfl
  rw [helement, Option.toList_some, List.singleton_append, material, List.flatMap_cons,
    helementKept] at hchildren
  exact (hothers.append_left [element]).trans hchildren

theorem built_cast (haccepted : cast node = .ok result) :
    Built node node.children result := by
  obtain ⟨first, others, operand, hreverse, rfl⟩ := cast_ok_iff.mp haccepted
  have htarget : Assembled node (first :: others).reverse
      [if others.isEmpty then first else wrap .typeIntersection (first :: others).reverse] := by
    split
    · rename_i hempty
      rw [List.isEmpty_iff.mp hempty]
      exact .kept node [first]
    · exact .group node (by decide) _
  have hchildren : (first :: others).reverse ++ [operand] = node.children := by
    rw [← List.reverse_cons, ← hreverse, List.reverse_reverse]
  rw [← hchildren]
  exact ⟨rfl, htarget.append (.kept node [operand])⟩

theorem built_methodCall (haccepted : methodCall node = .ok result) :
    Built node node.children result := by
  obtain ⟨unnamed, method, hunnamed, hmethod, -, rfl⟩ := methodCall_ok_iff.mp haccepted
  have hchain : SharedTag.chain ∈ addedTags := by decide
  have hmade := (Assembled.group node hchain (withoutLast .ident unnamed ++ [method])).append
    ((Assembled.kept node (first? .typeArguments node.children).toList).append
      (assembled_arguments node node.children))
  refine ⟨rfl, hmade.of_perm ?_⟩
  rw [List.perm_iff_count]
  intro inner
  have hnamed := (withoutLast_append_last?_perm .ident unnamed).count_eq inner
  have harguments := (first?_append_withoutFirst_perm .arguments
    (withoutFirst .typeArguments node.children)).count_eq inner
  have htypes := (first?_append_withoutFirst_perm .typeArguments node.children).count_eq inner
  rw [first?_withoutFirst (by decide), hunnamed] at harguments
  rw [hmethod] at hnamed
  simp only [List.count_append, Option.toList_some] at hnamed harguments htypes ⊢
  omega

theorem assembled_creationArguments (haccepted : creationArguments node.span nodes = .ok result) :
    Assembled node nodes [result] := by
  obtain ⟨hgiven, hrest⟩ | ⟨-, rfl⟩ := creationArguments_ok_iff.mp haccepted
  · have hperm := first?_append_withoutFirst_perm .arguments nodes
    rw [hgiven, hrest] at hperm
    exact (Assembled.kept node [result]).of_perm hperm
  · split
    · rename_i hempty
      rw [List.isEmpty_iff.mp hempty]
      exact .mark node (by decide) none
    · exact .group node (by decide) nodes

theorem built_qualifiedCreation (haccepted : qualifiedCreation node = .ok result) :
    Built node node.children result := by
  obtain ⟨qualifier, others, created, arguments, hsplit, -, hcreated, harguments, rfl⟩ :=
    qualifiedCreation_ok_iff.mp haccepted
  have hchain : SharedTag.chain ∈ addedTags := by decide
  have hmade := (Assembled.group node hchain [qualifier, created]).append
    ((Assembled.kept node (first? .typeArguments others).toList).append
      ((assembled_creationArguments harguments).append
        (.kept node (first? .members others).toList)))
  refine ⟨rfl, hmade.of_perm ?_⟩
  rw [hsplit, List.perm_iff_count]
  intro inner
  have htype := (first?_append_withoutFirst_perm .type others).count_eq inner
  have htypes := (first?_append_withoutFirst_perm .typeArguments
    (withoutFirst .type others)).count_eq inner
  have hmembers := (first?_append_withoutFirst_perm .members
    (withoutFirst .typeArguments (withoutFirst .type others))).count_eq inner
  rw [first?_withoutFirst (by decide)] at htypes
  rw [first?_withoutFirst (by decide), first?_withoutFirst (by decide)] at hmembers
  rw [hcreated] at htype
  simp only [List.count_append, List.count_cons, List.count_nil, Option.toList_some]
    at htype htypes hmembers ⊢
  omega

end Java

/-! ## Rules of ECMAScript -/

namespace Ecma

theorem assembled_declarator {item : Node} (hitem : item ∈ node.children)
    (haccepted : declarator item = .ok result) : Assembled node item.children [result] := by
  obtain ⟨name, text, -, hname, -, rfl⟩ := declarator_ok_iff.mp haccepted
  have hinit : SharedTag.init ∈ addedTags := by decide
  have hinner := (Assembled.kept item [name]).append
    (assembled_group_of_nonempty item hinit (withoutFirst .ident item.children))
  have hperm := first?_append_withoutFirst_perm .ident item.children
  rw [hname] at hperm
  exact .declared hitem text (hinner.of_perm hperm)

theorem assembled_declarations {items declarations : List Node} (hitems : items ⊆ node.children)
    (haccepted : List.Forall₂ (fun item declaration => declarator item = .ok declaration)
      items declarations) :
    Assembled node (material (.ecma .variableList) items) declarations := by
  induction haccepted with
  | nil => exact .kept node []
  | @cons item declaration items declarations hitem _ ih =>
      obtain ⟨hmem, hrest⟩ := List.cons_subset.mp hitems
      obtain ⟨_, _, htag, _⟩ := declarator_ok_iff.mp hitem
      rw [material, List.flatMap_cons, yielded_variableList, if_pos htag]
      exact (assembled_declarator hmem hitem).append (ih hrest)

theorem built_variableList (haccepted : variableList node = .ok result) :
    Built node (material (.ecma .variableList) node.children) result := by
  obtain ⟨declarations, -, hitems, rfl⟩ := variableList_ok_iff.mp haccepted
  have hmodifier : material (.ecma .variableList) (first? .modifier node.children).toList =
      (first? .modifier node.children).toList := by
    cases hfirst : first? .modifier node.children with
    | none => rfl
    | some modifier =>
        rw [Option.toList_some, material, List.flatMap_singleton, yielded_variableList,
          is_eq_false (by decide) (is_of_first? hfirst)]
        rfl
  have hmade := (Assembled.kept node (first? .modifier node.children).toList).append
    (assembled_declarations List.eraseP_subset (mapM_declarator_ok_iff.mp hitems))
  refine ⟨rfl, hmade.of_perm ?_⟩
  have hchildren := material_perm (.ecma .variableList)
    (first?_append_withoutFirst_perm .modifier node.children)
  rw [material, List.flatMap_append] at hchildren
  rw [material] at hmodifier
  rwa [hmodifier] at hchildren

end Ecma

/-! ## All rules -/

theorem Java.built_canonical {tag : JavaRawTag} (haccepted : Java.canonical tag node = .ok result) :
    Built node (material (.java tag) node.children) result := by
  cases tag <;> simp only [canonical] at haccepted
  case arrayInstantiation => exact built_arrayCreation haccepted
  -- the other rules take over the children as they are
  all_goals rw [material_eq_self (fun _ => rfl)]
  case declPackage | declAnnotationElement | declReceivedParameter =>
    obtain ⟨name, -, rfl⟩ := declaration_ok_iff.mp haccepted
    exact built_declare _ _ node (.kept node _)
  case declCatchParameter =>
    obtain ⟨-, name, -, rfl⟩ := catchParameter_ok_iff.mp haccepted
    exact built_declare _ _ node (assembled_gather node .type 2 (by decide) node.children)
  case typeInstantiation | methodReference =>
    obtain ⟨-, rfl⟩ := atLeast_map_ok_iff.mp haccepted
    exact ⟨rfl, .kept node _⟩
  case classReference =>
    split at haccepted
    · cases haccepted
    · cases haccepted
      exact ⟨rfl, .kept node _⟩
  case explicitCtorInvoke => exact built_constructorCall haccepted
  case arrayDimExpr =>
    obtain ⟨-, rfl⟩ := exactly_map_ok_iff.mp haccepted
    exact ⟨rfl, .kept node _⟩
  case typeCast => exact built_cast haccepted
  case methodAccess => exact built_methodCall haccepted
  case newQualified => exact built_qualifiedCreation haccepted
  -- what is left are the five directives
  all_goals
    obtain ⟨-, rfl⟩ := directive_ok_iff.mp haccepted
    exact ⟨rfl, .kept node _⟩

theorem Ecma.built_canonical {tag : EcmaRawTag} (haccepted : Ecma.canonical tag node = .ok result) :
    Built node (material (.ecma tag) node.children) result := by
  cases tag
  case variableList => exact built_variableList haccepted
  case templateString =>
    cases haccepted
    have hparts : yielded (.ecma .templateString) = fun part => [templatePart part] :=
      funext yielded_templateString
    rw [material, hparts, ← List.map_eq_flatMap]
    exact ⟨rfl, .kept node _⟩
  -- the other rules take over the children as they are
  all_goals rw [material_eq_self (fun _ => rfl)]
  case spread =>
    obtain ⟨-, rfl⟩ := exactly_map_ok_iff.mp haccepted
    exact ⟨rfl, .kept node _⟩
  case exportDefault =>
    obtain ⟨-, rfl⟩ := atLeast_map_ok_iff.mp haccepted
    exact ⟨rfl, .append (.mark node (by decide) none) (.kept node _)⟩
  case compoundAssign =>
    obtain ⟨operator, target, value, -, hoperands, rfl⟩ := compoundAssignment_ok_iff.mp haccepted
    rw [hoperands]
    exact ⟨rfl, .kept node [target, value]⟩
  case optionalChain =>
    obtain ⟨-, rfl⟩ := atLeast_map_ok_iff.mp haccepted
    exact ⟨rfl, .kept node _⟩

/-- The node stands for a raw node that is taken under the given tag. -/
structure Replaces (raw : RawTag) (node result : Node) : Prop
    extends Built node (material raw node.children) result where
  tag : result.tag = resultTag raw
  span : result.span = node.span

/-- A raw node is reduced to the one node that replaces it. -/
theorem replaces_of_reduce {language : Language} {tag : RawTag} {produced : List Node}
    (haccepted : reduce language tag node = .ok produced) :
    ∃ result, produced = [result] ∧ Replaces tag node result := by
  obtain ⟨result, rfl, hjava | hecma⟩ := reduce_ok_iff.mp haccepted
  · obtain ⟨javaTag, rfl, rfl, hcanonical⟩ := hjava
    obtain ⟨htag, hspan⟩ := Java.canonical_head hcanonical
    exact ⟨result, rfl, Java.built_canonical hcanonical, htag, hspan⟩
  · obtain ⟨ecmaTag, rfl, rfl, hcanonical⟩ := hecma
    obtain ⟨htag, hspan⟩ := Ecma.canonical_head hcanonical
    exact ⟨result, rfl, Ecma.built_canonical hcanonical, htag, hspan⟩

end CanonTree.Rule
