import CanonTree.Proofs.Rule.Occurrences
import Mathlib.Data.List.TakeWhile

/-!
# Which nodes the rules of Java accept

A rule looks at the children of a raw node and takes some of them out, one after the
other, so what it looks at last is no longer what the node had.  `Java.Fits` says for each
raw tag what a node has to have, of its children as they are given and of their places; the
rules accept exactly the nodes that fit, and make one node of each.  Every other node is
reported with its raw tag and its span.
-/

namespace CanonTree.Rule

variable {node result : Node} {nodes : List Node} {tag other : SharedTag}

/-! ## Looking for a tag -/

/-- One of the nodes has the tag. -/
def Among (tag : SharedTag) (nodes : List Node) : Prop :=
  ∃ node ∈ nodes, node.is tag = true

theorem exists_first?_iff : (∃ found, first? tag nodes = some found) ↔ Among tag nodes := by
  rw [← Option.isSome_iff_exists, first?, List.find?_isSome]
  rfl

theorem isSome_child?_iff : (node.child? tag).isSome = true ↔ Among tag node.children := by
  rw [Option.isSome_iff_exists]
  exact exists_first?_iff

theorem length_withoutFirst (hamong : Among tag nodes) :
    (withoutFirst tag nodes).length + 1 = nodes.length := by
  obtain ⟨found, hfound, htag⟩ := hamong
  have hpositive := List.length_pos_of_mem hfound
  rw [withoutFirst, List.length_eraseP_of_mem hfound htag]
  omega

/-- Gathering nodes with one tag under another leaves the first node with a third tag. -/
theorem first?_gather {group : SharedTag} (htag : other ≠ tag) (hgroup : other ≠ group)
    (least : Nat) (nodes : List Node) :
    first? other (gather tag group least nodes) = first? other nodes := by
  rw [gather]
  split
  · rfl
  split
  · rename_i before hspan
    rw [← append_of_span hspan, List.append_nil]
  · rename_i before others _ hspan
    have hwrap : (wrap group (others.filter (·.is tag))).is other = false := by
      simp [wrap, Node.branch, Node.is, hgroup.symm]
    have hfilter : (others.filter (!·.is tag)).find? (·.is other) =
        others.find? (·.is other) := by
      rw [List.find?_filter]
      congr 1
      funext child
      cases hother : child.is other with
      | true => simp [is_eq_false htag.symm hother]
      | false => simp
    rw [← append_of_span hspan, first?, first?, List.find?_append, List.find?_append,
      List.find?_cons_of_neg (by simp [hwrap]), hfilter]

namespace Java

/-! ## Shapes -/

/-- The node has a name: a text of its own, or else its first `NAME` child has one. -/
def Named (node : Node) : Prop :=
  node.text ≠ none ∨ ∃ name, first? .ident node.children = some name ∧ name.text ≠ none

def IsEmptyDims (node : Node) : Prop :=
  node.is .arrayDims = true ∧ node.children = []

/-- What a node under a raw tag has to have. -/
def Fits (tag : JavaRawTag) (node : Node) : Prop :=
  match tag with
  | .declPackage | .declAnnotationElement => Named node
  | .declReceivedParameter => True
  | .declCatchParameter =>
      Named node ∧ (Among .type node.children ∨ Among .typeUnion node.children)
  | .typeInstantiation => 1 ≤ node.children.length
  | .classReference => node.children ≠ [] ∨ node.text ≠ none
  | .explicitCtorInvoke => Among .thisRef node.children ∨ Among .superRef node.children
  | .arrayDimExpr => node.children.length = 1
  | .arrayInstantiation =>
      ∃ element, firstOccurrence? .type node.children = some element ∧
        ∃ child ∈ apartFrom [element] node.children, ¬IsEmptyDims child
  | .typeCast | .methodReference => 2 ≤ node.children.length
  | .methodAccess =>
      let types := firstOccurrence? .typeArguments node.children
      let arguments := firstOccurrence? .arguments node.children
      ∃ method, lastOccurrence? .ident node.children = some method ∧
        apartFrom (method :: arguments.toList ++ types.toList) node.children ≠ []
  | .directiveRequires | .directiveExports | .directiveOpens | .directiveUses
  | .directiveProvides => node.text ≠ none ∨ node.children ≠ []
  | .newQualified =>
      ∃ qualifier others created,
        node.children = qualifier :: others ∧ qualifier.is .type = false ∧
        firstOccurrence? .type others = some created ∧
        let types := firstOccurrence? .typeArguments others
        let members := firstOccurrence? .members others
        let rest := apartFrom (members.toList ++ types.toList ++ [created]) others
        -- arguments that are wrapped must be all that is left
        Among .arguments rest → rest.length = 1

/-! ## What each rule asks for -/

theorem exists_boundName?_iff : (∃ name, node.boundName? = some name) ↔ Named node := by
  rw [Node.boundName?, Named]
  cases node.text with
  | some text => simp
  | none =>
      simp only [Option.none_or, Option.bind_eq_some_iff, ne_eq, not_true, false_or]
      constructor
      · rintro ⟨text, name, hname, htext⟩
        exact ⟨name, hname, by simp [htext]⟩
      · rintro ⟨name, hname, htext⟩
        obtain ⟨text, htext⟩ := Option.ne_none_iff_exists'.mp htext
        exact ⟨text, name, hname, htext⟩

theorem exists_declaration_iff {kind : DeclKind} :
    (∃ result, declaration kind none node = .ok result) ↔ Named node := by
  simp only [declaration_ok_iff, Option.or_none]
  rw [← exists_boundName?_iff]
  constructor
  · rintro ⟨result, name, hname, -⟩
    exact ⟨name, hname⟩
  · rintro ⟨name, hname⟩
    exact ⟨_, name, hname, rfl⟩

/-- The types are gathered before the name is looked for; that does not change the name. -/
theorem boundName?_gather :
    ({ node with children := gather .type .typeUnion 2 node.children } : Node).boundName? =
      node.boundName? := by
  have hfirst := first?_gather (show SharedTag.ident ≠ .type by decide)
    (show SharedTag.ident ≠ .typeUnion by decide) 2 node.children
  simp only [first?] at hfirst
  simp only [Node.boundName?, Node.child?, hfirst]

theorem exists_catchParameter_iff :
    (∃ result, catchParameter node = .ok result) ↔
      Named node ∧ (Among .type node.children ∨ Among .typeUnion node.children) := by
  simp only [catchParameter_ok_iff, boundName?_gather, isSome_child?_iff]
  rw [← exists_boundName?_iff]
  constructor
  · rintro ⟨result, htype, name, hnamed, -⟩
    exact ⟨⟨name, hnamed⟩, htype⟩
  · rintro ⟨⟨name, hnamed⟩, htype⟩
    exact ⟨_, htype, name, hnamed, rfl⟩

theorem exists_constructorCall_iff :
    (∃ result, constructorCall node = .ok result) ↔
      Among .thisRef node.children ∨ Among .superRef node.children := by
  have hamong : Among .thisRef node.children ∨ Among .superRef node.children ↔
      node.children.dropWhile (!isConstructor ·) ≠ [] := by
    rw [ne_eq, List.dropWhile_eq_nil_iff]
    simp only [Among, isConstructor, Bool.not_eq_true', Bool.or_eq_false_iff, not_forall]
    grind
  simp only [constructorCall_ok_iff, List.span_eq_takeWhile_dropWhile, Prod.mk.injEq]
  rw [hamong]
  constructor
  · rintro ⟨result, before, target, others, ⟨-, hothers⟩, -⟩
    simp [hothers]
  · intro hothers
    obtain ⟨target, others, hsplit⟩ := List.exists_cons_of_ne_nil hothers
    exact ⟨_, _, target, others, ⟨rfl, hsplit⟩, rfl⟩

/-- Children give neither dimensions nor anything else exactly if each is an empty `ARRAY_DIMS`. -/
theorem dimensions_and_rest_eq_nil_iff :
    (nodes.flatMap dimensionsOf = [] ∧
        nodes.filter (fun child => !child.is .arrayDim && !child.is .arrayDims) = []) ↔
      ∀ child ∈ nodes, IsEmptyDims child := by
  rw [List.flatMap_eq_nil_iff, List.filter_eq_nil_iff, ← forall₂_and]
  apply forall₂_congr
  intro child _
  rw [dimensionsOf, IsEmptyDims]
  cases hdim : child.is .arrayDim with
  | true => simp [is_eq_false (show SharedTag.arrayDims ≠ .arrayDim by decide) hdim]
  | false => cases child.is .arrayDims <;> simp

theorem exists_arrayCreation_iff :
    (∃ result, arrayCreation node = .ok result) ↔ Fits .arrayInstantiation node := by
  simp only [arrayCreation_ok_iff, Fits, first?_eq_firstOccurrence?, withoutFirst_eq_apartFrom]
  constructor
  · rintro ⟨result, _, _, _, htype, rfl, rfl, hothers, -⟩
    obtain ⟨element, helement, rfl⟩ := Option.map_eq_some_iff.mp htype
    rw [dimensions_and_rest_eq_nil_iff, helement, Option.toList_some] at hothers
    refine ⟨element, helement, ?_⟩
    simpa only [not_forall, exists_prop] using hothers
  · rintro ⟨element, helement, hothers⟩
    rw [helement, Option.toList_some]
    refine ⟨_, element.1, _, _, rfl, rfl, rfl, ?_, rfl⟩
    rw [dimensions_and_rest_eq_nil_iff]
    simpa only [not_forall, exists_prop] using hothers

theorem exists_cast_iff : (∃ result, cast node = .ok result) ↔ 2 ≤ node.children.length := by
  simp only [cast_ok_iff]
  rw [← List.length_reverse]
  constructor
  · rintro ⟨result, first, others, operand, hchildren, -⟩
    simp [hchildren]
  · intro hlength
    match hchildren : node.children.reverse, hlength with
    | operand :: first :: others, _ => exact ⟨_, first, others, operand, rfl, rfl⟩

theorem is_eq_false_of_arguments_or_types :
    ∀ entry ∈ (firstOccurrence? .arguments nodes).toList ++
      (firstOccurrence? .typeArguments nodes).toList, entry.1.is .ident = false :=
  List.forall_mem_append.mpr ⟨is_eq_false_of_firstOccurrence? (by decide),
    is_eq_false_of_firstOccurrence? (by decide)⟩

/-- The method is the last `NAME` of all, although arguments are taken out before it is looked
for. -/
theorem last?_method (nodes : List Node) :
    last? .ident (withoutFirst .arguments (withoutFirst .typeArguments nodes)) =
      (lastOccurrence? .ident nodes).map (·.1) := by
  rw [withoutFirst_withoutFirst (by decide), last?_apartFrom is_eq_false_of_arguments_or_types]

/-- What a method call leaves for the receiver. -/
theorem withoutLast_method (nodes : List Node) :
    withoutLast .ident (withoutFirst .arguments (withoutFirst .typeArguments nodes)) =
      apartFrom ((lastOccurrence? .ident nodes).toList ++
        ((firstOccurrence? .arguments nodes).toList ++
          (firstOccurrence? .typeArguments nodes).toList)) nodes := by
  rw [withoutFirst_withoutFirst (by decide),
    withoutLast_apartFrom is_eq_false_of_arguments_or_types]

theorem exists_methodCall_iff :
    (∃ result, methodCall node = .ok result) ↔ Fits .methodAccess node := by
  simp only [methodCall_ok_iff, Fits]
  constructor
  · rintro ⟨result, _, _, rfl, hlast, hreceiver, -⟩
    rw [last?_method] at hlast
    obtain ⟨method, hmethod, rfl⟩ := Option.map_eq_some_iff.mp hlast
    rw [withoutLast_method, hmethod] at hreceiver
    exact ⟨method, hmethod, hreceiver⟩
  · rintro ⟨method, hmethod, hreceiver⟩
    refine ⟨_, _, method.1, rfl, ?_, ?_, rfl⟩
    · rw [last?_method, hmethod]
      rfl
    · rw [withoutLast_method, hmethod]
      exact hreceiver

/-- A name that is not the node's own text is that of a child, so a name is asked for in vain. -/
theorem exists_directive_iff {tag : JavaTag} :
    (∃ result, directive tag node = .ok result) ↔ node.text ≠ none ∨ node.children ≠ [] := by
  have hname : node.boundName?.isSome = true ∨ node.children ≠ [] ↔
      node.text ≠ none ∨ node.children ≠ [] := by
    rw [Option.isSome_iff_exists, exists_boundName?_iff, Named]
    constructor
    · rintro ((htext | ⟨name, hname, -⟩) | hchildren)
      · exact .inl htext
      · refine .inr ?_
        rintro hnil
        simp [hnil, first?] at hname
      · exact .inr hchildren
    · rintro (htext | hchildren)
      · exact .inl (.inl htext)
      · exact .inr hchildren
  simp only [directive_ok_iff]
  rw [← hname]
  constructor
  · rintro ⟨result, htarget, -⟩
    exact htarget
  · intro htarget
    exact ⟨_, htarget, rfl⟩

theorem exists_creationArguments_iff {span : Span} :
    (∃ result, creationArguments span nodes = .ok result) ↔
      (Among .arguments nodes → nodes.length = 1) := by
  simp only [creationArguments_ok_iff]
  constructor
  · rintro ⟨result, ⟨hfirst, hnothing⟩ | ⟨hnone, -⟩⟩ hamong
    · rw [← length_withoutFirst hamong, hnothing]
      rfl
    · obtain ⟨found, hfound⟩ := exists_first?_iff.mpr hamong
      cases hfound.symm.trans hnone
  · intro hlength
    cases hfirst : first? .arguments nodes with
    | none => exact ⟨_, .inr ⟨rfl, rfl⟩⟩
    | some arguments =>
        have hamong : Among .arguments nodes := exists_first?_iff.mp ⟨arguments, hfirst⟩
        have hremoved := length_withoutFirst hamong
        rw [hlength hamong] at hremoved
        exact ⟨arguments, .inl ⟨rfl, List.length_eq_zero_iff.mp (by omega)⟩⟩

/-- What a qualified creation leaves for the arguments. -/
theorem withoutFirst_members_eq_apartFrom {created : Node × Nat}
    (hcreated : firstOccurrence? .type nodes = some created) :
    withoutFirst .members (withoutFirst .typeArguments (withoutFirst .type nodes)) =
      apartFrom ((firstOccurrence? .members nodes).toList ++
        (firstOccurrence? .typeArguments nodes).toList ++ [created]) nodes := by
  have htaken : ∀ entry ∈ (firstOccurrence? .typeArguments nodes).toList ++
      (firstOccurrence? .type nodes).toList, entry.1.is .members = false :=
    List.forall_mem_append.mpr ⟨is_eq_false_of_firstOccurrence? (by decide),
      is_eq_false_of_firstOccurrence? (by decide)⟩
  rw [withoutFirst_withoutFirst (show SharedTag.typeArguments ≠ .type by decide),
    withoutFirst_apartFrom htaken, hcreated, ← List.append_assoc, Option.toList_some]

theorem exists_qualifiedCreation_iff :
    (∃ result, qualifiedCreation node = .ok result) ↔ Fits .newQualified node := by
  simp only [qualifiedCreation_ok_iff, Fits, first?_eq_firstOccurrence?]
  constructor
  · rintro ⟨result, qualifier, others, _, arguments, hchildren, hqualifier, htype, harguments, -⟩
    obtain ⟨created, hcreated, rfl⟩ := Option.map_eq_some_iff.mp htype
    rw [withoutFirst_members_eq_apartFrom hcreated] at harguments
    exact ⟨qualifier, others, created, hchildren, hqualifier, hcreated,
      exists_creationArguments_iff.mp ⟨arguments, harguments⟩⟩
  · rintro ⟨qualifier, others, created, hchildren, hqualifier, hcreated, hrest⟩
    rw [← withoutFirst_members_eq_apartFrom hcreated] at hrest
    obtain ⟨arguments, harguments⟩ := exists_creationArguments_iff.mpr hrest
    exact ⟨_, qualifier, others, created.1, arguments, hchildren, hqualifier,
      by rw [hcreated]; rfl, harguments, rfl⟩

/-! ## All rules -/

/-- The rule of each raw tag accepts exactly the nodes that fit the tag. -/
theorem exists_canonical_iff (tag : JavaRawTag) (node : Node) :
    (∃ result, canonical tag node = .ok result) ↔ Fits tag node := by
  cases tag <;> simp only [canonical]
  case declPackage | declAnnotationElement => exact exists_declaration_iff
  case declReceivedParameter =>
    simp only [declaration_ok_iff, Fits, iff_true]
    obtain ⟨name, hname⟩ : ∃ name, node.boundName?.or (some "this") = some name := by
      cases node.boundName? <;> simp
    exact ⟨_, name, hname, rfl⟩
  case declCatchParameter => exact exists_catchParameter_iff
  case typeInstantiation | methodReference =>
    simp only [atLeast_map_ok_iff, Fits, exists_and_left, exists_eq', and_true]
  case classReference =>
    by_cases hempty : node.children = [] <;> cases htext : node.text <;>
      simp [Fits, hempty, htext]
  case explicitCtorInvoke => exact exists_constructorCall_iff
  case arrayDimExpr => simp only [exactly_map_ok_iff, Fits, exists_and_left, exists_eq', and_true]
  case arrayInstantiation => exact exists_arrayCreation_iff
  case typeCast => exact exists_cast_iff
  case methodAccess => exact exists_methodCall_iff
  case newQualified => exact exists_qualifiedCreation_iff
  -- what is left are the five directives
  all_goals exact exists_directive_iff

/-- A raw node of Java is reduced to one node exactly if it fits its raw tag; otherwise it is
reported as malformed, with its raw tag and its span. -/
theorem reduce_iff_fits (tag : JavaRawTag) (node : Node) :
    ((∃ result, reduce .java (.java tag) node = .ok [result]) ↔ Fits tag node) ∧
      ((∃ defect, reduce .java (.java tag) node =
        .error (.malformed (.java tag) node.span defect)) ↔ ¬Fits tag node) := by
  rw [← exists_canonical_iff]
  cases hrule : canonical tag node with
  | ok result => simp [reduce, hrule]
  | error defect => simp [reduce, hrule]

end Java

end CanonTree.Rule
