import CanonTree.Rule.Basic
import Mathlib.Data.List.Forall2

/-!
# What the rules make of a node

For each rule, the nodes that it accepts and the node that it makes of them.  Later
proofs about a rule start from the statement here and not from its definition.  One
fact is common to all rules: the node they make has a tag that depends on the raw
tag alone, and the span of the raw node.
-/

namespace CanonTree.Rule

variable {node result : Node}

theorem exactly_map_ok_iff {expected : Nat} {made : Node} :
    (exactly expected node).map (fun _ => made) = .ok result ↔
      node.children.length = expected ∧ made = result := by
  rw [exactly]
  split <;> simp_all [Except.map]

theorem atLeast_map_ok_iff {least : Nat} {made : Node} :
    (atLeast least node).map (fun _ => made) = .ok result ↔
      least ≤ node.children.length ∧ made = result := by
  rw [atLeast]
  split
  · simp only [Except.map, reduceCtorEq, false_iff, not_and]
    omega
  · simp_all [Except.map]

namespace Java

theorem declaration_ok_iff {kind : DeclKind} {fallback : Option String} :
    declaration kind fallback node = .ok result ↔
      ∃ name, node.boundName?.or fallback = some name ∧
        declare kind name node node.children = result := by
  rw [declaration]
  split
  · rename_i name hname
    rw [hname, Except.ok.injEq]
    exact ⟨fun hresult => ⟨name, rfl, hresult⟩, by rintro ⟨_, ⟨⟩, hresult⟩; exact hresult⟩
  · rename_i hname
    simp [hname]

theorem catchParameter_ok_iff :
    catchParameter node = .ok result ↔
      ((node.child? .type).isSome ∨ (node.child? .typeUnion).isSome) ∧
        ∃ name,
          ({ node with children := gather .type .typeUnion 2 node.children } : Node).boundName? =
            some name ∧
          declare .catchParameter name node (gather .type .typeUnion 2 node.children) =
            result := by
  rw [catchParameter]
  split
  · simp_all
  · rename_i htype
    have haccepted : (node.child? .type).isSome ∨ (node.child? .typeUnion).isSome := by
      simpa [Option.isSome_iff_ne_none, or_iff_not_imp_left] using htype
    rw [declaration_ok_iff, Option.or_none]
    exact (and_iff_right haccepted).symm

theorem constructorCall_ok_iff :
    constructorCall node = .ok result ↔
      ∃ before target others,
        node.children.span (!isConstructor ·) = (before, target :: others) ∧
        .branch .call node.span
          ((if (before.filter (!·.is .typeArguments)).isEmpty then target
            else wrap .chain (before.filter (!·.is .typeArguments) ++ [target])) ::
            before.filter (·.is .typeArguments) ++
            (first? .arguments others).getD (.leaf .arguments node.span) ::
            withoutFirst .arguments others) = result := by
  constructor
  · intro haccepted
    rw [constructorCall] at haccepted
    split at haccepted
    · cases haccepted
    · rename_i before target others hsplit
      exact ⟨before, target, others, hsplit, Except.ok.inj haccepted⟩
  · rintro ⟨before, target, others, hsplit, hresult⟩
    simp only [constructorCall, hsplit, Except.ok.injEq]
    exact hresult

theorem arrayCreation_ok_iff :
    arrayCreation node = .ok result ↔
      ∃ element dimensions rest,
        first? .type node.children = some element ∧
        (withoutFirst .type node.children).flatMap dimensionsOf = dimensions ∧
        (withoutFirst .type node.children).filter
          (fun child => !child.is .arrayDim && !child.is .arrayDims) = rest ∧
        ¬(dimensions = [] ∧ rest = []) ∧
        .branch .newExpr node.span
          (element :: (if dimensions.isEmpty then [] else [wrap .arrayDims dimensions]) ++
            rest) = result := by
  constructor
  · intro haccepted
    rw [arrayCreation] at haccepted
    split at haccepted
    · cases haccepted
    · rename_i element helement
      dsimp only at haccepted
      split at haccepted
      · cases haccepted
      · rename_i hsome
        simp only [Bool.and_eq_true, List.isEmpty_iff] at hsome
        exact ⟨element, _, _, helement, rfl, rfl, hsome, Except.ok.inj haccepted⟩
  · rintro ⟨element, dimensions, rest, helement, rfl, rfl, hsome, hresult⟩
    simp only [← List.isEmpty_iff, ← Bool.and_eq_true] at hsome
    simp only [arrayCreation, helement, if_neg hsome, Except.ok.injEq]
    exact hresult

theorem cast_ok_iff :
    cast node = .ok result ↔
      ∃ first others operand,
        node.children.reverse = operand :: first :: others ∧
        { Node.branch .typeCast node.span
          [if others.isEmpty then first else wrap .typeIntersection (first :: others).reverse,
            operand] with text := node.text } = result := by
  constructor
  · intro haccepted
    rw [cast] at haccepted
    split at haccepted
    · rename_i operand first others hchildren
      exact ⟨first, others, operand, hchildren, Except.ok.inj haccepted⟩
    · cases haccepted
  · rintro ⟨first, others, operand, hchildren, hresult⟩
    simp only [cast, hchildren, Except.ok.injEq]
    exact hresult

theorem methodCall_ok_iff :
    methodCall node = .ok result ↔
      ∃ unnamed method,
        withoutFirst .arguments (withoutFirst .typeArguments node.children) = unnamed ∧
        last? .ident unnamed = some method ∧ withoutLast .ident unnamed ≠ [] ∧
        .branch .call node.span
          (wrap .chain (withoutLast .ident unnamed ++ [method]) ::
            (first? .typeArguments node.children).toList ++
            [(first? .arguments node.children).getD (.leaf .arguments node.span)]) =
          result := by
  constructor
  · intro haccepted
    rw [methodCall] at haccepted
    dsimp only at haccepted
    split at haccepted
    · cases haccepted
    · rename_i method hmethod
      split at haccepted
      · cases haccepted
      · rename_i hreceiver
        rw [List.isEmpty_iff] at hreceiver
        exact ⟨_, method, rfl, hmethod, hreceiver, Except.ok.inj haccepted⟩
  · rintro ⟨unnamed, method, rfl, hmethod, hreceiver, hresult⟩
    rw [ne_eq, ← List.isEmpty_iff] at hreceiver
    simp only [methodCall, hmethod, if_neg hreceiver, Except.ok.injEq]
    exact hresult

theorem directive_ok_iff {tag : JavaTag} :
    directive tag node = .ok result ↔
      (node.boundName?.isSome ∨ node.children ≠ []) ∧ retag (.java tag) node = result := by
  rw [directive]
  split
  · simp_all
  · rename_i htarget
    have haccepted : node.boundName?.isSome ∨ node.children ≠ [] := by
      simpa [Option.isSome_iff_ne_none, or_iff_not_imp_left] using htarget
    rw [Except.ok.injEq]
    exact (and_iff_right haccepted).symm

theorem creationArguments_ok_iff {span : Span} {children : List Node} :
    creationArguments span children = .ok result ↔
      (first? .arguments children = some result ∧ withoutFirst .arguments children = []) ∨
      (first? .arguments children = none ∧
        (if children.isEmpty then .leaf .arguments span else wrap .arguments children) =
          result) := by
  rw [creationArguments]
  split
  · split <;> simp_all
  · simp_all

theorem qualifiedCreation_ok_iff :
    qualifiedCreation node = .ok result ↔
      ∃ qualifier others created arguments,
        node.children = qualifier :: others ∧ qualifier.is .type = false ∧
        first? .type others = some created ∧
        creationArguments node.span
          (withoutFirst .members (withoutFirst .typeArguments (withoutFirst .type others))) =
            .ok arguments ∧
        .branch .newExpr node.span
          (wrap .chain [qualifier, created] :: (first? .typeArguments others).toList ++
            arguments :: (first? .members others).toList) = result := by
  constructor
  · intro haccepted
    rw [qualifiedCreation] at haccepted
    split at haccepted
    · cases haccepted
    · rename_i qualifier others hchildren
      split at haccepted
      · cases haccepted
      · rename_i hqualifier
        split at haccepted
        · cases haccepted
        · rename_i created hcreated
          dsimp only at haccepted
          split at haccepted
          · cases haccepted
          · rename_i arguments harguments
            exact ⟨qualifier, others, created, arguments, hchildren,
              Bool.eq_false_iff.mpr hqualifier, hcreated, harguments,
              Except.ok.inj haccepted⟩
  · rintro ⟨qualifier, others, created, arguments, hchildren, hqualifier, hcreated,
      harguments, hresult⟩
    simp only [qualifiedCreation, hchildren, hqualifier, hcreated, harguments, Bool.false_eq_true,
      if_false, Except.ok.injEq]
    exact hresult

end Java

namespace Ecma

theorem declarator_ok_iff {item : Node} :
    declarator item = .ok result ↔
      ∃ name text,
        item.is .item = true ∧ first? .ident item.children = some name ∧
        name.text = some text ∧
        declare .variableName text item
          (name :: if (withoutFirst .ident item.children).isEmpty then []
            else [wrap .init (withoutFirst .ident item.children)]) = result := by
  constructor
  · intro haccepted
    rw [declarator] at haccepted
    split at haccepted
    · cases haccepted
    · rename_i hitem
      split at haccepted
      · cases haccepted
      · rename_i name hname
        split at haccepted
        · cases haccepted
        · rename_i text htext
          exact ⟨name, text, by simpa using hitem, hname, htext, Except.ok.inj haccepted⟩
  · rintro ⟨name, text, hitem, hname, htext, hresult⟩
    simp only [declarator, hitem, hname, htext, Bool.not_true, Bool.false_eq_true, if_false,
      Except.ok.injEq]
    exact hresult

/-- A list of items is accepted exactly if each of them is. -/
theorem mapM_declarator_ok_iff {items declarations : List Node} :
    items.mapM declarator = .ok declarations ↔
      List.Forall₂ (fun item declaration => declarator item = .ok declaration)
        items declarations := by
  induction items generalizing declarations with
  | nil => cases declarations <;> simp [pure, Except.pure]
  | cons item items ih =>
      rw [List.mapM_cons]
      cases hitem : declarator item with
      | error defect => cases declarations <;> simp [bind, Except.bind, hitem]
      | ok declaration =>
          cases hitems : items.mapM declarator with
          | error defect =>
              cases declarations <;> simp [bind, Except.bind, ← ih, hitem, hitems]
          | ok others =>
              cases declarations <;>
                simp [bind, Except.bind, pure, Except.pure, ← ih, hitem, hitems]

theorem variableList_ok_iff :
    variableList node = .ok result ↔
      ∃ declarations,
        withoutFirst .modifier node.children ≠ [] ∧
        (withoutFirst .modifier node.children).mapM declarator = .ok declarations ∧
        { Node.branch .declList node.span
          ((first? .modifier node.children).toList ++ declarations) with text := node.text } =
          result := by
  constructor
  · intro haccepted
    rw [variableList] at haccepted
    dsimp only at haccepted
    split at haccepted
    · cases haccepted
    · rename_i hitems
      rw [List.isEmpty_iff] at hitems
      split at haccepted
      · cases haccepted
      · rename_i declarations hdeclarations
        exact ⟨declarations, hitems, hdeclarations, Except.ok.inj haccepted⟩
  · rintro ⟨declarations, hitems, hdeclarations, hresult⟩
    rw [ne_eq, ← List.isEmpty_iff] at hitems
    simp only [variableList, hdeclarations, if_neg hitems, Except.ok.injEq]
    exact hresult

theorem compoundAssignment_ok_iff :
    compoundAssignment node = .ok result ↔
      ∃ operator target value,
        node.operator = some (.binary operator) ∧ node.children = [target, value] ∧
        (Node.branch .assign node.span [target, value]).withOperator (.binary operator) =
          result := by
  constructor
  · intro haccepted
    rw [compoundAssignment] at haccepted
    split at haccepted
    · rename_i operator hoperator
      split at haccepted
      · rename_i target value hchildren
        exact ⟨operator, target, value, hoperator, hchildren, Except.ok.inj haccepted⟩
      · cases haccepted
    · cases haccepted
  · rintro ⟨operator, target, value, hoperator, hchildren, hresult⟩
    simp only [compoundAssignment, hoperator, hchildren, Except.ok.injEq]
    exact hresult

end Ecma

/-! ## Tag and span of what a rule makes -/

def Java.resultTag : JavaRawTag → Tag
  | .declPackage | .declAnnotationElement | .declReceivedParameter | .declCatchParameter =>
      .shared .decl
  | .typeInstantiation => .shared .type
  | .classReference => .shared .typeExpr
  | .explicitCtorInvoke | .methodAccess => .shared .call
  | .arrayDimExpr => .shared .arrayDim
  | .arrayInstantiation | .newQualified => .shared .newExpr
  | .typeCast => .shared .typeCast
  | .methodReference => .shared .chain
  | .directiveRequires => .java .directiveRequires
  | .directiveExports => .java .directiveExports
  | .directiveOpens => .java .directiveOpens
  | .directiveUses => .java .directiveUses
  | .directiveProvides => .java .directiveProvides

def Ecma.resultTag : EcmaRawTag → Tag
  | .variableList => .shared .declList
  | .templateString => .shared .templateParsed
  | .spread => .shared .ellipsis
  | .exportDefault => .shared .exportDecl
  | .compoundAssign => .shared .assign
  | .optionalChain => .shared .chain

/-- Tag of the node that stands for a raw node. -/
def resultTag : RawTag → Tag
  | .java tag => Java.resultTag tag
  | .ecma tag => Ecma.resultTag tag

theorem isDiscarded_resultTag (tag : RawTag) : (resultTag tag).isDiscarded = false := by
  cases tag with
  | java tag => cases tag <;> rfl
  | ecma tag => cases tag <;> rfl

theorem Java.canonical_head {tag : JavaRawTag} (haccepted : Java.canonical tag node = .ok result) :
    result.tag = Java.resultTag tag ∧ result.span = node.span := by
  cases tag <;> simp only [canonical] at haccepted
  case declPackage | declAnnotationElement | declReceivedParameter =>
    obtain ⟨name, -, rfl⟩ := declaration_ok_iff.mp haccepted
    exact ⟨rfl, rfl⟩
  case declCatchParameter =>
    obtain ⟨-, name, -, rfl⟩ := catchParameter_ok_iff.mp haccepted
    exact ⟨rfl, rfl⟩
  case typeInstantiation | methodReference =>
    obtain ⟨-, rfl⟩ := atLeast_map_ok_iff.mp haccepted
    exact ⟨rfl, rfl⟩
  case classReference =>
    split at haccepted
    · cases haccepted
    · cases haccepted
      exact ⟨rfl, rfl⟩
  case explicitCtorInvoke =>
    obtain ⟨before, target, others, -, rfl⟩ := constructorCall_ok_iff.mp haccepted
    exact ⟨rfl, rfl⟩
  case arrayDimExpr =>
    obtain ⟨-, rfl⟩ := exactly_map_ok_iff.mp haccepted
    exact ⟨rfl, rfl⟩
  case arrayInstantiation =>
    obtain ⟨element, dimensions, rest, -, -, -, -, rfl⟩ := arrayCreation_ok_iff.mp haccepted
    exact ⟨rfl, rfl⟩
  case typeCast =>
    obtain ⟨first, others, operand, -, rfl⟩ := cast_ok_iff.mp haccepted
    exact ⟨rfl, rfl⟩
  case methodAccess =>
    obtain ⟨unnamed, method, -, -, -, rfl⟩ := methodCall_ok_iff.mp haccepted
    exact ⟨rfl, rfl⟩
  case newQualified =>
    obtain ⟨qualifier, others, created, arguments, -, -, -, -, rfl⟩ :=
      qualifiedCreation_ok_iff.mp haccepted
    exact ⟨rfl, rfl⟩
  -- what is left are the five directives
  all_goals
    obtain ⟨-, rfl⟩ := directive_ok_iff.mp haccepted
    exact ⟨rfl, rfl⟩

theorem Ecma.canonical_head {tag : EcmaRawTag} (haccepted : Ecma.canonical tag node = .ok result) :
    result.tag = Ecma.resultTag tag ∧ result.span = node.span := by
  cases tag with
  | variableList =>
      obtain ⟨declarations, -, -, rfl⟩ := variableList_ok_iff.mp haccepted
      exact ⟨rfl, rfl⟩
  | templateString =>
      cases haccepted
      exact ⟨rfl, rfl⟩
  | spread =>
      obtain ⟨-, rfl⟩ := exactly_map_ok_iff.mp haccepted
      exact ⟨rfl, rfl⟩
  | exportDefault =>
      obtain ⟨-, rfl⟩ := atLeast_map_ok_iff.mp haccepted
      exact ⟨rfl, rfl⟩
  | compoundAssign =>
      obtain ⟨operator, target, value, -, -, rfl⟩ := compoundAssignment_ok_iff.mp haccepted
      exact ⟨rfl, rfl⟩
  | optionalChain =>
      obtain ⟨-, rfl⟩ := atLeast_map_ok_iff.mp haccepted
      exact ⟨rfl, rfl⟩

/-- A raw node is reduced exactly if its tag belongs to the language and the rule of the tag
accepts it; then there is one node in its place. -/
theorem reduce_ok_iff {language : Language} {tag : RawTag} {produced : List Node} :
    reduce language tag node = .ok produced ↔
      ∃ result, [result] = produced ∧
        ((∃ javaTag, language = .java ∧ tag = .java javaTag ∧
            Java.canonical javaTag node = .ok result) ∨
          (∃ ecmaTag, language = .ecma ∧ tag = .ecma ecmaTag ∧
            Ecma.canonical ecmaTag node = .ok result)) := by
  cases language <;> cases tag <;> simp only [reduce]
  case java.java tag => cases hrule : Java.canonical tag node <;> simp [hrule]
  case ecma.ecma tag => cases hrule : Ecma.canonical tag node <;> simp [hrule]
  all_goals simp

theorem reduce_of_owner_ne {language : Language} {tag : RawTag} (howner : tag.owner ≠ language) :
    reduce language tag node = .error (.unmapped tag language node.span) := by
  cases language <;> cases tag
  case java.java | ecma.ecma => exact absurd rfl howner
  case java.ecma | ecma.java => rfl

/-- A raw node that cannot be reduced belongs to another language, or its own rule rejects it. -/
theorem reduce_error {language : Language} {tag : RawTag} {error : NormalizeError}
    (hrejected : reduce language tag node = .error error) :
    (tag.owner ≠ language ∧ error = .unmapped tag language node.span) ∨
      (tag.owner = language ∧ ∃ defect, error = .malformed tag node.span defect) := by
  by_cases howner : tag.owner = language
  · refine .inr ⟨howner, ?_⟩
    subst howner
    cases tag with
    | java tag =>
        cases hrule : Java.canonical tag node with
        | ok result => simp [reduce, RawTag.owner, hrule] at hrejected
        | error defect =>
            simp only [reduce, RawTag.owner, hrule, Except.error.injEq] at hrejected
            exact ⟨defect, hrejected.symm⟩
    | ecma tag =>
        cases hrule : Ecma.canonical tag node with
        | ok result => simp [reduce, RawTag.owner, hrule] at hrejected
        | error defect =>
            simp only [reduce, RawTag.owner, hrule, Except.error.injEq] at hrejected
            exact ⟨defect, hrejected.symm⟩
  · rw [reduce_of_owner_ne howner, Except.error.injEq] at hrejected
    exact .inl ⟨howner, hrejected.symm⟩

theorem Java.reduce_java_ok_iff {tag : JavaRawTag} {produced : List Node} :
    reduce .java (.java tag) node = .ok produced ↔
      ∃ result, produced = [result] ∧ Java.canonical tag node = .ok result := by
  rw [reduce_ok_iff]
  simp [eq_comm (b := produced)]

theorem Ecma.reduce_ecma_ok_iff {tag : EcmaRawTag} {produced : List Node} :
    reduce .ecma (.ecma tag) node = .ok produced ↔
      ∃ result, produced = [result] ∧ Ecma.canonical tag node = .ok result := by
  rw [reduce_ok_iff]
  simp [eq_comm (b := produced)]

/-- A raw node of the language that is not reduced is malformed, and the error says so of it. -/
theorem exists_malformed_iff {language : Language} {tag : RawTag} (howner : tag.owner = language) :
    (∃ defect, reduce language tag node = .error (.malformed tag node.span defect)) ↔
      ¬∃ produced, reduce language tag node = .ok produced := by
  constructor
  · rintro ⟨defect, hrejected⟩ ⟨produced, haccepted⟩
    cases hrejected.symm.trans haccepted
  · intro hrejected
    cases houtcome : reduce language tag node with
    | ok produced => exact absurd ⟨produced, houtcome⟩ hrejected
    | error error =>
        obtain ⟨hother, -⟩ | ⟨-, defect, rfl⟩ := reduce_error houtcome
        · exact absurd howner hother
        · exact ⟨defect, rfl⟩

/-- Reducing a raw node leaves one node, with the tag that the rules give it and the span of the
raw node. -/
theorem reduce_head {language : Language} {tag : RawTag} {produced : List Node}
    (haccepted : reduce language tag node = .ok produced) :
    ∃ result, produced = [result] ∧ result.tag = resultTag tag ∧ result.span = node.span := by
  obtain ⟨result, rfl, hjava | hecma⟩ := reduce_ok_iff.mp haccepted
  · obtain ⟨javaTag, rfl, rfl, hcanonical⟩ := hjava
    exact ⟨result, rfl, Java.canonical_head hcanonical⟩
  · obtain ⟨ecmaTag, rfl, rfl, hcanonical⟩ := hecma
    exact ⟨result, rfl, Ecma.canonical_head hcanonical⟩

end CanonTree.Rule
