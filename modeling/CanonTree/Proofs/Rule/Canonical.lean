import CanonTree.Proofs.Forest
import CanonTree.Proofs.Rule.Outcome
import Mathlib.Data.List.TakeDrop

/-!
# The rules make canonical nodes

A tree is canonical if none of its nodes, at any depth, has a raw tag or is a
placeholder.  Given canonical children, every rule makes a canonical node: what it
takes from the raw node is taken from the children, or from their children, and what
it adds has a tag of its own that is neither raw nor a placeholder.
-/

namespace CanonTree

/-- The tag may stand in a canonical tree. -/
def Tag.Final (tag : Tag) : Prop :=
  tag.isRaw = false ∧ tag.isDiscarded = false

instance (tag : Tag) : Decidable tag.Final :=
  inferInstanceAs (Decidable (_ ∧ _))

namespace Node

/-- No node of the tree is raw or a placeholder. -/
def Canonical (node : Node) : Prop :=
  ∀ inner ∈ node.preorder, inner.tag.Final

def AllCanonical (nodes : List Node) : Prop :=
  ∀ node ∈ nodes, node.Canonical

theorem canonical_iff {node : Node} :
    node.Canonical ↔ node.tag.Final ∧ AllCanonical node.children := by
  constructor
  · intro hnode
    refine ⟨hnode node (mem_preorder_iff.mpr (.inl rfl)), ?_⟩
    intro child hchild inner hinner
    exact hnode inner (mem_preorder_iff.mpr (.inr ⟨child, hchild, hinner⟩))
  · rintro ⟨htag, hchildren⟩ inner hinner
    obtain rfl | ⟨child, hchild, hbelow⟩ := mem_preorder_iff.mp hinner
    · exact htag
    · exact hchildren child hchild inner hbelow

@[simp]
theorem allCanonical_nil : AllCanonical [] := nofun

@[simp]
theorem allCanonical_cons {node : Node} {nodes : List Node} :
    AllCanonical (node :: nodes) ↔ node.Canonical ∧ AllCanonical nodes :=
  List.forall_mem_cons

@[simp]
theorem allCanonical_append {left right : List Node} :
    AllCanonical (left ++ right) ↔ AllCanonical left ∧ AllCanonical right :=
  List.forall_mem_append

@[simp]
theorem allCanonical_reverse {nodes : List Node} :
    AllCanonical nodes.reverse ↔ AllCanonical nodes := by
  simp [AllCanonical]

theorem AllCanonical.of_subset {left right : List Node} (hright : AllCanonical right)
    (hsubset : left ⊆ right) : AllCanonical left :=
  fun node hnode => hright node (hsubset hnode)

theorem AllCanonical.filter {nodes : List Node} (hnodes : AllCanonical nodes)
    (keep : Node → Bool) : AllCanonical (nodes.filter keep) :=
  hnodes.of_subset (List.filter_subset_self nodes)

/-- Splitting a forest keeps both parts canonical. -/
theorem AllCanonical.span {nodes before others : List Node} (hnodes : AllCanonical nodes)
    {test : Node → Bool} (hspan : nodes.span test = (before, others)) :
    AllCanonical before ∧ AllCanonical others := by
  rw [List.span_eq_takeWhile_dropWhile, Prod.mk.injEq] at hspan
  obtain ⟨rfl, rfl⟩ := hspan
  rw [← allCanonical_append, List.takeWhile_append_dropWhile]
  exact hnodes

theorem canonical_branch {tag : SharedTag} (span : Span) {children : List Node}
    (htag : (Tag.shared tag).Final) (hchildren : AllCanonical children) :
    (branch tag span children).Canonical :=
  canonical_iff.mpr ⟨htag, hchildren⟩

theorem canonical_leaf {tag : SharedTag} (span : Span) (htag : (Tag.shared tag).Final) :
    (leaf tag span).Canonical :=
  canonical_branch span htag allCanonical_nil

end Node

namespace Rule

open Node

variable {node result : Node} {nodes : List Node}

/-! ## Parts -/

theorem canonical_first? {tag : SharedTag} (hnodes : AllCanonical nodes)
    (hfirst : first? tag nodes = some node) : node.Canonical :=
  hnodes node (List.mem_of_find?_eq_some hfirst)

theorem allCanonical_toList_first? (tag : SharedTag) (hnodes : AllCanonical nodes) :
    AllCanonical (first? tag nodes).toList := by
  intro node hnode
  rw [Option.mem_toList] at hnode
  exact canonical_first? hnodes hnode

theorem canonical_getD_first? {tag : SharedTag} {fallback : Node} (hnodes : AllCanonical nodes)
    (hfallback : fallback.Canonical) : ((first? tag nodes).getD fallback).Canonical := by
  cases hfirst : first? tag nodes with
  | none => exact hfallback
  | some node => exact canonical_first? hnodes hfirst

theorem allCanonical_withoutFirst (tag : SharedTag) (hnodes : AllCanonical nodes) :
    AllCanonical (withoutFirst tag nodes) :=
  hnodes.of_subset List.eraseP_subset

theorem canonical_last? {tag : SharedTag} (hnodes : AllCanonical nodes)
    (hlast : last? tag nodes = some node) : node.Canonical :=
  canonical_first? (allCanonical_reverse.mpr hnodes) hlast

theorem allCanonical_withoutLast (tag : SharedTag) (hnodes : AllCanonical nodes) :
    AllCanonical (withoutLast tag nodes) :=
  allCanonical_reverse.mpr
    (allCanonical_withoutFirst tag (allCanonical_reverse.mpr hnodes))

theorem canonical_wrap {tag : SharedTag} (htag : (Tag.shared tag).Final)
    (hnodes : AllCanonical nodes) : (wrap tag nodes).Canonical :=
  canonical_branch _ htag hnodes

theorem canonical_retag {tag : Tag} (htag : tag.Final) (hchildren : AllCanonical node.children) :
    (retag tag node).Canonical :=
  canonical_iff.mpr ⟨htag, hchildren⟩

theorem canonical_declare (kind : DeclKind) (name : String) (node : Node)
    (hnodes : AllCanonical nodes) : (declare kind name node nodes).Canonical := by
  have hprops : ((Node.leaf .props node.span).withText kind.name).Canonical :=
    canonical_iff.mpr ⟨⟨rfl, rfl⟩, allCanonical_nil⟩
  exact canonical_iff.mpr ⟨⟨rfl, rfl⟩, allCanonical_cons.mpr ⟨hprops, hnodes⟩⟩

theorem allCanonical_gather (tag : SharedTag) {group : SharedTag} (least : Nat)
    (hgroup : (Tag.shared group).Final) (hnodes : AllCanonical nodes) :
    AllCanonical (gather tag group least nodes) := by
  rw [gather]
  split
  · exact hnodes
  · split
    · rename_i before hspan
      exact (hnodes.span hspan).1
    · rename_i before others _ hspan
      obtain ⟨hbefore, hothers⟩ := hnodes.span hspan
      rw [allCanonical_append, allCanonical_cons]
      exact ⟨hbefore, canonical_wrap hgroup (hothers.filter _), hothers.filter _⟩

/-! ## Rules of Java -/

namespace Java

theorem canonical_constructorCall (hchildren : AllCanonical node.children)
    (haccepted : constructorCall node = .ok result) : result.Canonical := by
  obtain ⟨before, target, others, hspan, rfl⟩ := constructorCall_ok_iff.mp haccepted
  obtain ⟨hbefore, hrest⟩ := hchildren.span hspan
  obtain ⟨htarget, hothers⟩ := allCanonical_cons.mp hrest
  apply canonical_branch _ (by decide)
  simp only [List.cons_append, allCanonical_cons, allCanonical_append]
  refine ⟨?_, hbefore.filter _, ?_, allCanonical_withoutFirst _ hothers⟩
  · split
    · exact htarget
    · exact canonical_wrap (by decide) (by simp [hbefore.filter, htarget])
  · exact canonical_getD_first? hothers (canonical_leaf _ (by decide))

theorem allCanonical_dimensions (hnodes : AllCanonical nodes) :
    AllCanonical (nodes.flatMap dimensionsOf) := by
  intro dimension hdimension
  obtain ⟨child, hchild, hmem⟩ := List.mem_flatMap.mp hdimension
  have hcanonical := hnodes child hchild
  rw [dimensionsOf] at hmem
  split at hmem
  · rw [List.mem_singleton.mp hmem]
    exact hcanonical
  · split at hmem
    · exact (canonical_iff.mp hcanonical).2 dimension hmem
    · cases hmem

theorem canonical_arrayCreation (hchildren : AllCanonical node.children)
    (haccepted : arrayCreation node = .ok result) : result.Canonical := by
  obtain ⟨element, dimensions, rest, helement, rfl, rfl, -, rfl⟩ :=
    arrayCreation_ok_iff.mp haccepted
  have hothers := allCanonical_withoutFirst .type hchildren
  apply canonical_branch _ (by decide)
  simp only [List.cons_append, allCanonical_cons, allCanonical_append]
  refine ⟨canonical_first? hchildren helement, ?_, hothers.filter _⟩
  split
  · exact allCanonical_nil
  · exact allCanonical_cons.mpr
      ⟨canonical_wrap (by decide) (allCanonical_dimensions hothers), allCanonical_nil⟩

theorem canonical_cast (hchildren : AllCanonical node.children)
    (haccepted : cast node = .ok result) : result.Canonical := by
  obtain ⟨first, others, operand, hreverse, rfl⟩ := cast_ok_iff.mp haccepted
  have hall : AllCanonical (operand :: first :: others) := by
    rw [← hreverse]
    exact allCanonical_reverse.mpr hchildren
  simp only [allCanonical_cons] at hall
  obtain ⟨hoperand, hfirst, hothers⟩ := hall
  refine canonical_iff.mpr ⟨⟨rfl, rfl⟩, ?_⟩
  refine allCanonical_cons.mpr ⟨?_, allCanonical_cons.mpr ⟨hoperand, allCanonical_nil⟩⟩
  split
  · exact hfirst
  · exact canonical_wrap (by decide) (by simp [hfirst, hothers])

theorem canonical_methodCall (hchildren : AllCanonical node.children)
    (haccepted : methodCall node = .ok result) : result.Canonical := by
  obtain ⟨unnamed, method, rfl, hmethod, -, rfl⟩ := methodCall_ok_iff.mp haccepted
  have hunnamed := allCanonical_withoutFirst .arguments
    (allCanonical_withoutFirst .typeArguments hchildren)
  apply canonical_branch _ (by decide)
  simp only [List.cons_append, allCanonical_cons, allCanonical_append]
  refine ⟨canonical_wrap (by decide) ?_, allCanonical_toList_first? _ hchildren, ?_,
    allCanonical_nil⟩
  · simp [allCanonical_withoutLast .ident hunnamed, canonical_last? hunnamed hmethod]
  · exact canonical_getD_first? hchildren (canonical_leaf _ (by decide))

theorem canonical_creationArguments {span : Span} (hnodes : AllCanonical nodes)
    (haccepted : creationArguments span nodes = .ok result) : result.Canonical := by
  obtain ⟨hgiven, -⟩ | ⟨-, rfl⟩ := creationArguments_ok_iff.mp haccepted
  · exact canonical_first? hnodes hgiven
  · split
    · exact canonical_leaf _ (by decide)
    · exact canonical_wrap (by decide) hnodes

theorem canonical_qualifiedCreation (hchildren : AllCanonical node.children)
    (haccepted : qualifiedCreation node = .ok result) : result.Canonical := by
  obtain ⟨qualifier, others, created, arguments, hsplit, -, hcreated, harguments, rfl⟩ :=
    qualifiedCreation_ok_iff.mp haccepted
  rw [hsplit, allCanonical_cons] at hchildren
  obtain ⟨hqualifier, hothers⟩ := hchildren
  apply canonical_branch _ (by decide)
  simp only [List.cons_append, allCanonical_cons, allCanonical_append]
  refine ⟨canonical_wrap (by decide) ?_, allCanonical_toList_first? _ hothers, ?_,
    allCanonical_toList_first? _ hothers⟩
  · simp [hqualifier, canonical_first? hothers hcreated]
  · exact canonical_creationArguments
      (allCanonical_withoutFirst _ (allCanonical_withoutFirst _
        (allCanonical_withoutFirst _ hothers))) harguments

/-- Every rule of Java makes a canonical node out of canonical children. -/
theorem canonical_result {tag : JavaRawTag} (hchildren : AllCanonical node.children)
    (haccepted : canonical tag node = .ok result) : result.Canonical := by
  cases tag <;> simp only [canonical] at haccepted
  case declPackage | declAnnotationElement | declReceivedParameter =>
    obtain ⟨name, -, rfl⟩ := declaration_ok_iff.mp haccepted
    exact canonical_declare _ _ _ hchildren
  case declCatchParameter =>
    obtain ⟨-, name, -, rfl⟩ := catchParameter_ok_iff.mp haccepted
    exact canonical_declare _ _ _ (allCanonical_gather _ _ (by decide) hchildren)
  case typeInstantiation | methodReference =>
    obtain ⟨-, rfl⟩ := atLeast_map_ok_iff.mp haccepted
    exact canonical_iff.mpr ⟨⟨rfl, rfl⟩, hchildren⟩
  case classReference =>
    split at haccepted
    · cases haccepted
    · cases haccepted
      exact canonical_retag (by decide) hchildren
  case explicitCtorInvoke => exact canonical_constructorCall hchildren haccepted
  case arrayDimExpr =>
    obtain ⟨-, rfl⟩ := exactly_map_ok_iff.mp haccepted
    exact canonical_retag (by decide) hchildren
  case arrayInstantiation => exact canonical_arrayCreation hchildren haccepted
  case typeCast => exact canonical_cast hchildren haccepted
  case methodAccess => exact canonical_methodCall hchildren haccepted
  case newQualified => exact canonical_qualifiedCreation hchildren haccepted
  -- what is left are the five directives
  all_goals
    obtain ⟨-, rfl⟩ := directive_ok_iff.mp haccepted
    exact canonical_retag (by decide) hchildren

end Java

/-! ## Rules of ECMAScript -/

namespace Ecma

theorem canonical_declarator {item : Node} (hitem : item.Canonical)
    (haccepted : declarator item = .ok result) : result.Canonical := by
  obtain ⟨name, text, -, hname, -, rfl⟩ := declarator_ok_iff.mp haccepted
  have hchildren := (canonical_iff.mp hitem).2
  apply canonical_declare
  refine allCanonical_cons.mpr ⟨canonical_first? hchildren hname, ?_⟩
  split
  · exact allCanonical_nil
  · exact allCanonical_cons.mpr
      ⟨canonical_wrap (by decide) (allCanonical_withoutFirst _ hchildren), allCanonical_nil⟩

theorem allCanonical_declarations {items declarations : List Node}
    (hitems : AllCanonical items)
    (haccepted : List.Forall₂ (fun item declaration => declarator item = .ok declaration)
      items declarations) : AllCanonical declarations := by
  induction haccepted with
  | nil => exact allCanonical_nil
  | cons hitem _ ih =>
      rw [allCanonical_cons] at hitems ⊢
      exact ⟨canonical_declarator hitems.1 hitem, ih hitems.2⟩

theorem canonical_variableList (hchildren : AllCanonical node.children)
    (haccepted : variableList node = .ok result) : result.Canonical := by
  obtain ⟨declarations, -, hitems, rfl⟩ := variableList_ok_iff.mp haccepted
  refine canonical_iff.mpr ⟨⟨rfl, rfl⟩, allCanonical_append.mpr
    ⟨allCanonical_toList_first? _ hchildren, ?_⟩⟩
  exact allCanonical_declarations (allCanonical_withoutFirst .modifier hchildren)
    (mapM_declarator_ok_iff.mp hitems)

theorem canonical_templatePart {part : Node} (hpart : part.Canonical) :
    (templatePart part).Canonical := by
  rw [templatePart]
  split
  · exact canonical_iff.mpr ⟨⟨rfl, rfl⟩, (canonical_iff.mp hpart).2⟩
  · exact hpart

/-- Every rule of ECMAScript makes a canonical node out of canonical children. -/
theorem canonical_result {tag : EcmaRawTag} (hchildren : AllCanonical node.children)
    (haccepted : canonical tag node = .ok result) : result.Canonical := by
  cases tag with
  | variableList => exact canonical_variableList hchildren haccepted
  | templateString =>
      cases haccepted
      refine canonical_iff.mpr ⟨⟨rfl, rfl⟩, ?_⟩
      intro part hpart
      obtain ⟨literal, hliteral, rfl⟩ := List.mem_map.mp hpart
      exact canonical_templatePart (hchildren literal hliteral)
  | spread =>
      obtain ⟨-, rfl⟩ := exactly_map_ok_iff.mp haccepted
      exact canonical_retag (by decide) hchildren
  | exportDefault =>
      obtain ⟨-, rfl⟩ := atLeast_map_ok_iff.mp haccepted
      exact canonical_retag (by decide)
        (allCanonical_cons.mpr ⟨canonical_leaf _ (by decide), hchildren⟩)
  | compoundAssign =>
      obtain ⟨operator, target, value, -, hoperands, rfl⟩ :=
        compoundAssignment_ok_iff.mp haccepted
      rw [hoperands] at hchildren
      exact canonical_iff.mpr ⟨⟨rfl, rfl⟩, hchildren⟩
  | optionalChain =>
      obtain ⟨-, rfl⟩ := atLeast_map_ok_iff.mp haccepted
      exact canonical_iff.mpr ⟨⟨rfl, rfl⟩, hchildren⟩

end Ecma

/-- Whatever a raw node with canonical children is reduced to is canonical. -/
theorem allCanonical_reduce {language : Language} {tag : RawTag} {produced : List Node}
    (hchildren : AllCanonical node.children)
    (haccepted : reduce language tag node = .ok produced) : AllCanonical produced := by
  obtain ⟨result, rfl, hjava | hecma⟩ := reduce_ok_iff.mp haccepted
  · obtain ⟨javaTag, rfl, rfl, hcanonical⟩ := hjava
    simp [Java.canonical_result hchildren hcanonical]
  · obtain ⟨ecmaTag, rfl, rfl, hcanonical⟩ := hecma
    simp [Ecma.canonical_result hchildren hcanonical]

end Rule

end CanonTree
