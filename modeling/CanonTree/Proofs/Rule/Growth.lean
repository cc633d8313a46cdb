import CanonTree.Node.Order
import CanonTree.Proofs.Rule.Assembly

/-!
# How much a rule adds

A rule puts at most two levels above the children that it takes over, and adds at most
three nodes to them, the node that stands for the raw one among these.  Only a variable list
adds more, two nodes for each of its items, because an item becomes a declaration with a
mark of its kind and an initializer.  The levels follow from how the children are put
together, whatever the rule; the nodes are counted rule by rule.
-/

namespace CanonTree

/-! ## Sizes and heights of forests -/

namespace Node

theorem heightAll_append (left right : List Node) :
    heightAll (left ++ right) = max (heightAll left) (heightAll right) := by
  induction left with
  | nil => simp [heightAll]
  | cons node nodes ih => rw [List.cons_append, heightAll, heightAll, ih, Nat.max_assoc]

theorem heightAll_le_iff {nodes : List Node} {bound : Nat} :
    heightAll nodes ≤ bound ↔ ∀ node ∈ nodes, node.height ≤ bound := by
  induction nodes with
  | nil => simp [heightAll]
  | cons node nodes ih => rw [heightAll, Nat.max_le, ih, List.forall_mem_cons]

theorem height_le_heightAll {node : Node} {nodes : List Node} (hnode : node ∈ nodes) :
    node.height ≤ heightAll nodes :=
  heightAll_le_iff.mp (Nat.le_refl _) node hnode

end Node

namespace Rule

open Node

variable {node result : Node} {nodes taken made : List Node}

/-! ## Levels -/

/-- Whatever is put together below a node of parts no higher than its children is at most one
level higher than those. -/
theorem Assembled.heightAll_le (hmade : Assembled node taken made) :
    heightAll taken ≤ heightAll node.children →
      heightAll made ≤ heightAll node.children + 1 := by
  induction hmade with
  | kept node nodes => exact fun htaken => Nat.le_succ_of_le htaken
  | mark node htag text =>
      intro _
      simp [leaf, branch, heightAll, height_eq]
  | group node htag nodes =>
      intro htaken
      simpa [wrap, branch, heightAll, height_eq] using htaken
  | @declared node item inner hitem name hinner ih =>
      -- the item itself is a level that the declaration does not keep
      intro _
      have hlevel := height_le_heightAll hitem
      have hbelow := ih (Nat.le_refl _)
      rw [height_eq] at hlevel
      simp only [declare, withText, leaf, branch, heightAll, height_eq]
      omega
  | append _ _ ihfirst ihothers =>
      rw [heightAll_append, heightAll_append, Nat.max_le, Nat.max_le]
      exact fun htaken => ⟨ihfirst htaken.1, ihothers htaken.2⟩
  | perm hperm _ ih =>
      simp only [heightAll_le_iff, hperm.mem_iff] at ih ⊢
      exact ih

theorem heightAll_material_le (tag : RawTag) (children : List Node) :
    heightAll (material tag children) ≤ heightAll children := by
  rw [heightAll_le_iff, material]
  intro inner hinner
  obtain ⟨child, hchild, hyielded⟩ := List.mem_flatMap.mp hinner
  have hlevel := height_le_heightAll hchild
  rw [yielded] at hyielded
  split at hyielded
  · rwa [List.mem_singleton.mp hyielded]
  · rw [List.mem_singleton.mp hyielded]
    simpa only [height_eq] using hlevel
  · have hopened := height_le_heightAll hyielded
    rw [height_eq child] at hlevel
    omega

theorem Replaces.height_le {tag : RawTag} (hresult : Replaces tag node result) :
    result.height ≤ heightAll node.children + 2 := by
  have hbelow := hresult.children.heightAll_le (heightAll_material_le tag node.children)
  rw [height_eq]
  omega

/-! ## Nodes -/

theorem size_wrap (tag : SharedTag) (nodes : List Node) :
    (wrap tag nodes).size = sizeAll nodes + 1 := rfl

theorem size_declare (kind : DeclKind) (name : String) (node : Node) (children : List Node) :
    (declare kind name node children).size = sizeAll children + 2 := by
  simp only [declare, withText, leaf, branch, size, sizeAll]
  omega

/-- Taking out the first node with a tag splits the nodes of a forest. -/
theorem sizeAll_first? (tag : SharedTag) (nodes : List Node) :
    sizeAll (first? tag nodes).toList + sizeAll (withoutFirst tag nodes) = sizeAll nodes := by
  rw [← sizeAll_append]
  exact sizeAll_perm (first?_append_withoutFirst_perm tag nodes)

theorem sizeAll_filter (test : Node → Bool) (nodes : List Node) :
    sizeAll (nodes.filter test) + sizeAll (nodes.filter (!test ·)) = sizeAll nodes := by
  rw [← sizeAll_append]
  exact sizeAll_perm (List.filter_append_perm test nodes)

/-- A node over the children of another adds one node to them. -/
theorem size_of_children_eq (hchildren : result.children = node.children) :
    result.size = sizeAll node.children + 1 := by
  rw [size_eq, hchildren]

/-- An `ARGUMENTS` node that is not there counts as one more node. -/
theorem size_arguments_le (span : Span) (found : Option Node) :
    (found.getD (.leaf .arguments span)).size ≤ sizeAll found.toList + 1 := by
  cases found with
  | none => exact Nat.le_refl _
  | some arguments => simp [sizeAll]

theorem sizeAll_group_le (tag : SharedTag) (nodes : List Node) :
    sizeAll (if nodes.isEmpty then [] else [wrap tag nodes]) ≤ sizeAll nodes + 1 := by
  split
  · exact Nat.zero_le _
  · exact Nat.le_refl _

theorem sizeAll_gather_le (tag group : SharedTag) (least : Nat) (nodes : List Node) :
    sizeAll (gather tag group least nodes) ≤ sizeAll nodes + 1 := by
  rw [gather]
  split
  · exact Nat.le_succ _
  · split
    · rename_i before hspan
      rw [← append_of_span hspan, List.append_nil]
      exact Nat.le_succ _
    · rename_i before others _ hspan
      have hothers := sizeAll_filter (·.is tag) others
      rw [← append_of_span hspan, sizeAll_append, sizeAll_append, sizeAll, size_wrap]
      omega

namespace Java

theorem size_constructorCall_le (haccepted : constructorCall node = .ok result) :
    result.size ≤ sizeAll node.children + 3 := by
  obtain ⟨before, target, others, hspan, rfl⟩ := constructorCall_ok_iff.mp haccepted
  have hbefore := sizeAll_filter (·.is .typeArguments) before
  have hothers := sizeAll_first? .arguments others
  have harguments := size_arguments_le node.span (first? .arguments others)
  have hcallee : (if (before.filter (!·.is .typeArguments)).isEmpty then target
      else wrap .chain (before.filter (!·.is .typeArguments) ++ [target])).size ≤
        sizeAll (before.filter (!·.is .typeArguments)) + target.size + 1 := by
    split
    · omega
    · simp only [size_wrap, sizeAll_append, sizeAll]
      omega
  rw [← append_of_span hspan]
  simp only [branch, size, sizeAll, sizeAll_append, List.cons_append]
  omega

/-- The children of lists of dimensions are fewer nodes than the lists. -/
theorem sizeAll_dimensions_le (nodes : List Node) :
    sizeAll (nodes.flatMap dimensionsOf) +
        sizeAll (nodes.filter fun child => !child.is .arrayDim && !child.is .arrayDims) ≤
      sizeAll nodes := by
  induction nodes with
  | nil => exact Nat.le_refl _
  | cons child nodes ih =>
      rw [List.flatMap_cons, List.filter_cons, sizeAll_append, dimensionsOf, sizeAll]
      cases hdim : child.is .arrayDim with
      | true =>
          simp only [if_true, sizeAll, Bool.not_true, Bool.false_and, Bool.false_eq_true, if_false]
          omega
      | false =>
          cases hdims : child.is .arrayDims with
          | true =>
              simp only [Bool.false_eq_true, if_true, if_false, Bool.not_true, Bool.and_false,
                size_eq child]
              omega
          | false =>
              simp only [Bool.false_eq_true, if_true, if_false, Bool.not_false, Bool.and_true,
                sizeAll]
              omega

theorem size_arrayCreation_le (haccepted : arrayCreation node = .ok result) :
    result.size ≤ sizeAll node.children + 3 := by
  obtain ⟨element, dimensions, rest, helement, hdimensions, hrest, -, rfl⟩ :=
    arrayCreation_ok_iff.mp haccepted
  have hothers := sizeAll_dimensions_le (withoutFirst .type node.children)
  have hchildren := sizeAll_first? .type node.children
  have hgroup := sizeAll_group_le .arrayDims dimensions
  rw [helement, Option.toList_some, sizeAll, sizeAll] at hchildren
  rw [hdimensions, hrest] at hothers
  simp only [branch, size, sizeAll, sizeAll_append, List.cons_append]
  omega

theorem size_cast_le (haccepted : cast node = .ok result) :
    result.size ≤ sizeAll node.children + 3 := by
  obtain ⟨first, others, operand, hreverse, rfl⟩ := cast_ok_iff.mp haccepted
  have hchildren := sizeAll_perm (List.reverse_perm node.children)
  have htarget : (if others.isEmpty then first
      else wrap .typeIntersection (first :: others).reverse).size ≤
        first.size + sizeAll others + 1 := by
    split
    · omega
    · exact Nat.le_of_eq (congrArg (· + 1) (sizeAll_perm (List.reverse_perm (first :: others))))
  rw [hreverse, sizeAll, sizeAll] at hchildren
  simp only [branch, size, sizeAll]
  omega

theorem size_methodCall_le (haccepted : methodCall node = .ok result) :
    result.size ≤ sizeAll node.children + 3 := by
  obtain ⟨unnamed, method, hunnamed, hmethod, -, rfl⟩ := methodCall_ok_iff.mp haccepted
  have hnamed := sizeAll_perm (withoutLast_append_last?_perm .ident unnamed)
  have htypes := sizeAll_first? .typeArguments node.children
  have hrest := sizeAll_first? .arguments (withoutFirst .typeArguments node.children)
  have harguments := size_arguments_le node.span (first? .arguments node.children)
  rw [first?_withoutFirst (by decide), hunnamed] at hrest
  rw [hmethod, Option.toList_some] at hnamed
  simp only [branch, size, sizeAll, sizeAll_append, List.cons_append, size_wrap] at hnamed ⊢
  omega

theorem size_creationArguments_le {span : Span}
    (haccepted : creationArguments span nodes = .ok result) :
    result.size ≤ sizeAll nodes + 1 := by
  obtain ⟨hgiven, -⟩ | ⟨-, rfl⟩ := creationArguments_ok_iff.mp haccepted
  · have hnodes := sizeAll_first? .arguments nodes
    rw [hgiven, Option.toList_some, sizeAll, sizeAll] at hnodes
    omega
  · split
    · exact Nat.succ_le_succ (Nat.zero_le _)
    · exact Nat.le_refl _

theorem size_qualifiedCreation_le (haccepted : qualifiedCreation node = .ok result) :
    result.size ≤ sizeAll node.children + 3 := by
  obtain ⟨qualifier, others, created, arguments, hsplit, -, hcreated, harguments, rfl⟩ :=
    qualifiedCreation_ok_iff.mp haccepted
  have htype := sizeAll_first? .type others
  have htypes := sizeAll_first? .typeArguments (withoutFirst .type others)
  have hmembers := sizeAll_first? .members
    (withoutFirst .typeArguments (withoutFirst .type others))
  have hrest := size_creationArguments_le harguments
  rw [first?_withoutFirst (by decide)] at htypes
  rw [first?_withoutFirst (by decide), first?_withoutFirst (by decide)] at hmembers
  rw [hcreated, Option.toList_some, sizeAll, sizeAll] at htype
  rw [hsplit]
  simp only [branch, size, sizeAll, sizeAll_append, List.cons_append, size_wrap]
  omega

theorem size_canonical_le {tag : JavaRawTag} (haccepted : canonical tag node = .ok result) :
    result.size ≤ sizeAll node.children + 3 := by
  cases tag <;> simp only [canonical] at haccepted
  case declPackage | declAnnotationElement | declReceivedParameter =>
    obtain ⟨name, -, rfl⟩ := declaration_ok_iff.mp haccepted
    rw [size_declare]
    exact Nat.le_succ _
  case declCatchParameter =>
    obtain ⟨-, name, -, rfl⟩ := catchParameter_ok_iff.mp haccepted
    rw [size_declare]
    exact Nat.add_le_add_right (sizeAll_gather_le .type .typeUnion 2 node.children) 2
  case explicitCtorInvoke => exact size_constructorCall_le haccepted
  case arrayInstantiation => exact size_arrayCreation_le haccepted
  case typeCast => exact size_cast_le haccepted
  case methodAccess => exact size_methodCall_le haccepted
  case newQualified => exact size_qualifiedCreation_le haccepted
  -- the other rules give the node another tag and leave its children alone
  all_goals
    refine Nat.le_trans (Nat.le_of_eq (size_of_children_eq ?_)) (Nat.le_add_right _ 2)
  case typeInstantiation | methodReference =>
    obtain ⟨-, rfl⟩ := atLeast_map_ok_iff.mp haccepted
    rfl
  case classReference =>
    split at haccepted
    · cases haccepted
    · cases haccepted
      rfl
  case arrayDimExpr =>
    obtain ⟨-, rfl⟩ := exactly_map_ok_iff.mp haccepted
    rfl
  all_goals
    obtain ⟨-, rfl⟩ := directive_ok_iff.mp haccepted
    rfl

end Java

namespace Ecma

/-- The declaration in the place of an item has at most two more nodes than the item. -/
theorem size_declarator_le {item : Node} (haccepted : declarator item = .ok result) :
    result.size ≤ item.size + 2 := by
  obtain ⟨name, text, -, hname, -, rfl⟩ := declarator_ok_iff.mp haccepted
  have hchildren := sizeAll_first? .ident item.children
  have hinit := sizeAll_group_le .init (withoutFirst .ident item.children)
  rw [hname, Option.toList_some, sizeAll, sizeAll] at hchildren
  rw [size_declare, sizeAll, size_eq item]
  omega

theorem sizeAll_declarations_le {items declarations : List Node}
    (haccepted : List.Forall₂ (fun item declaration => declarator item = .ok declaration)
      items declarations) :
    sizeAll declarations ≤ sizeAll items + 2 * items.countP (·.is .item) := by
  induction haccepted with
  | nil => exact Nat.zero_le _
  | @cons item declaration items declarations hitem _ ih =>
      obtain ⟨_, _, htag, _⟩ := declarator_ok_iff.mp hitem
      have hsize := size_declarator_le hitem
      simp only [sizeAll, List.countP_cons, htag, if_true]
      omega

theorem size_variableList_le (haccepted : variableList node = .ok result) :
    result.size ≤ sizeAll node.children + 2 * node.children.countP (·.is .item) + 3 := by
  obtain ⟨declarations, -, hitems, rfl⟩ := variableList_ok_iff.mp haccepted
  have hchildren := sizeAll_first? .modifier node.children
  have hdeclarations := sizeAll_declarations_le (mapM_declarator_ok_iff.mp hitems)
  have hcount : (withoutFirst .modifier node.children).countP (·.is .item) ≤
      node.children.countP (·.is .item) :=
    List.eraseP_sublist.countP_le
  simp only [branch, size, sizeAll_append]
  omega

/-- A part of a template keeps all but its tag. -/
theorem sizeAll_templateParts (parts : List Node) :
    sizeAll (parts.map templatePart) = sizeAll parts := by
  induction parts with
  | nil => rfl
  | cons part parts ih =>
      have hpart : (templatePart part).size = part.size := by
        rw [templatePart]
        split <;> simp only [size_eq]
      rw [List.map_cons, sizeAll, sizeAll, hpart, ih]

theorem size_canonical_le {tag : EcmaRawTag} (haccepted : canonical tag node = .ok result) :
    result.size ≤ sizeAll node.children + 2 * node.children.countP (·.is .item) + 3 := by
  cases tag
  case variableList => exact size_variableList_le haccepted
  -- the other rules open no item
  all_goals refine Nat.le_trans ?_ (Nat.add_le_add_right (Nat.le_add_right _ _) 3)
  case templateString =>
    cases haccepted
    simp only [templateString, retagShared, retag, size, sizeAll_templateParts]
    exact Nat.le_add_right _ 2
  case exportDefault =>
    obtain ⟨-, rfl⟩ := atLeast_map_ok_iff.mp haccepted
    simp only [Ecma.exportDefault, retagShared, retag, leaf, branch, size, sizeAll]
    omega
  all_goals
    refine Nat.le_trans (Nat.le_of_eq (size_of_children_eq ?_)) (Nat.le_add_right _ 2)
  case spread =>
    obtain ⟨-, rfl⟩ := exactly_map_ok_iff.mp haccepted
    rfl
  case compoundAssign =>
    obtain ⟨operator, target, value, -, hoperands, rfl⟩ := compoundAssignment_ok_iff.mp haccepted
    exact hoperands.symm
  case optionalChain =>
    obtain ⟨-, rfl⟩ := atLeast_map_ok_iff.mp haccepted
    rfl

end Ecma

/-- A raw node is reduced to at most three nodes more than it has below it, and two more for each
item that is opened. -/
theorem size_reduce_le {language : Language} {tag : RawTag}
    (haccepted : reduce language tag node = .ok [result]) :
    result.size ≤ sizeAll node.children + 2 * node.children.countP (·.is .item) + 3 := by
  obtain ⟨canonical, hproduced, hjava | hecma⟩ := reduce_ok_iff.mp haccepted
  all_goals obtain rfl := List.singleton_inj.mp hproduced
  · obtain ⟨javaTag, -, -, hcanonical⟩ := hjava
    refine Nat.le_trans (Java.size_canonical_le hcanonical) ?_
    exact Nat.add_le_add_right (Nat.le_add_right _ _) 3
  · obtain ⟨ecmaTag, -, -, hcanonical⟩ := hecma
    exact Ecma.size_canonical_le hcanonical

end Rule

end CanonTree
