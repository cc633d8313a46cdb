import CanonTree.Rule.Parts

/-!
# Rules of Java

One rule for each raw tag of Java.  A rule sees the raw node with children that are
already canonical, and makes one canonical node with the same span out of it, or
names the defect that keeps it from doing so.
-/

namespace CanonTree.Rule.Java

/-- A declaration with the name that the node binds, or with a given name if it binds none. -/
def declaration (kind : DeclKind) (fallback : Option String) (node : Node) :
    Except Defect Node :=
  match node.boundName?.or fallback with
  | some name => .ok (declare kind name node node.children)
  | none => .error (.unnamedDeclaration kind)

/-- A parameter of a `catch` clause: several caught types become one union. -/
def catchParameter (node : Node) : Except Defect Node :=
  if (node.child? .type).isNone && (node.child? .typeUnion).isNone then
    .error .caughtTypeMissing
  else
    declaration .catchParameter none
      { node with children := gather .type .typeUnion 2 node.children }

def isConstructor (node : Node) : Bool :=
  node.is .thisRef || node.is .superRef

/-- `this(args)`, `super(args)` or `outer.super(args)`: a call of the constructor, qualified by
what stands before it. -/
def constructorCall (node : Node) : Except Defect Node :=
  match node.children.span (!isConstructor ·) with
  | (_, []) => .error .constructorMissing
  | (before, target :: others) =>
      let qualifiers := before.filter (!·.is .typeArguments)
      let callee := if qualifiers.isEmpty then target else wrap .chain (qualifiers ++ [target])
      let arguments := (first? .arguments others).getD (.leaf .arguments node.span)
      .ok (.branch .call node.span
        (callee :: before.filter (·.is .typeArguments) ++
          arguments :: withoutFirst .arguments others))

def dimensionsOf (child : Node) : List Node :=
  if child.is .arrayDim then [child]
  else if child.is .arrayDims then child.children
  else []

/-- `new int[n][m]`: every dimension, sized or not, lands in one `ARRAY_DIMS`. -/
def arrayCreation (node : Node) : Except Defect Node :=
  match first? .type node.children with
  | none => .error .elementTypeMissing
  | some element =>
      let others := withoutFirst .type node.children
      let dimensions := others.flatMap dimensionsOf
      let rest := others.filter fun child => !child.is .arrayDim && !child.is .arrayDims
      if dimensions.isEmpty && rest.isEmpty then .error .dimensionsMissing
      else
        .ok (.branch .newExpr node.span
          (element :: (if dimensions.isEmpty then [] else [wrap .arrayDims dimensions]) ++ rest))

/-- `(A & B) expr`: the last child is the operand, the others are the types. -/
def cast (node : Node) : Except Defect Node :=
  match node.children.reverse with
  | operand :: first :: others =>
      let target := if others.isEmpty then first
        else wrap .typeIntersection (first :: others).reverse
      .ok { Node.branch .typeCast node.span [target, operand] with text := node.text }
  | _ => .error (.tooFewChildren 2 node.children.length)

/-- `receiver.<T>name(args)`: a call of a chain that ends with the name. -/
def methodCall (node : Node) : Except Defect Node :=
  let unnamed := withoutFirst .arguments (withoutFirst .typeArguments node.children)
  match last? .ident unnamed with
  | none => .error .methodNameMissing
  | some method =>
      let receiver := withoutLast .ident unnamed
      if receiver.isEmpty then .error .receiverMissing
      else
        .ok (.branch .call node.span
          (wrap .chain (receiver ++ [method]) ::
            (first? .typeArguments node.children).toList ++
            [(first? .arguments node.children).getD (.leaf .arguments node.span)]))

/-- A module directive keeps its content under its canonical tag. -/
def directive (tag : JavaTag) (node : Node) : Except Defect Node :=
  if node.boundName?.isNone && node.children.isEmpty then .error .directiveTargetMissing
  else .ok (retag (.java tag) node)

/-- The arguments of a qualified creation: an `ARGUMENTS` child, or else all that is left. -/
def creationArguments (span : Span) (children : List Node) : Except Defect Node :=
  match first? .arguments children with
  | some arguments =>
      if (withoutFirst .arguments children).isEmpty then .ok arguments
      else .error .argumentsTwice
  | none => .ok (if children.isEmpty then .leaf .arguments span else wrap .arguments children)

/-- `outer.new Inner(args) { ... }`: a creation of a chain of qualifier and type. -/
def qualifiedCreation (node : Node) : Except Defect Node :=
  match node.children with
  | [] => .error .qualifierMissing
  | qualifier :: others =>
      if qualifier.is .type then .error .qualifierMissing
      else
        match first? .type others with
        | none => .error .createdTypeMissing
        | some created =>
            let rest := withoutFirst .members
              (withoutFirst .typeArguments (withoutFirst .type others))
            match creationArguments node.span rest with
            | .error defect => .error defect
            | .ok arguments =>
                .ok (.branch .newExpr node.span
                  (wrap .chain [qualifier, created] ::
                    (first? .typeArguments others).toList ++ arguments ::
                    (first? .members others).toList))

def canonical (tag : JavaRawTag) (node : Node) : Except Defect Node :=
  match tag with
  | .declPackage => declaration .package none node
  | .declAnnotationElement => declaration .annotationElement none node
  | .declReceivedParameter => declaration .receiverParameter (some "this") node
  | .declCatchParameter => catchParameter node
  | .typeInstantiation => (atLeast 1 node).map fun _ => retagShared .type node
  | .classReference =>
      if node.children.isEmpty && node.text.isNone then .error .literalTypeMissing
      else .ok (retagShared .typeExpr node)
  | .explicitCtorInvoke => constructorCall node
  | .arrayDimExpr => (exactly 1 node).map fun _ => retagShared .arrayDim node
  | .arrayInstantiation => arrayCreation node
  | .typeCast => cast node
  | .methodAccess => methodCall node
  | .methodReference => (atLeast 2 node).map fun _ => (retagShared .chain node).withText "::"
  | .directiveRequires => directive .directiveRequires node
  | .directiveExports => directive .directiveExports node
  | .directiveOpens => directive .directiveOpens node
  | .directiveUses => directive .directiveUses node
  | .directiveProvides => directive .directiveProvides node
  | .newQualified => qualifiedCreation node

end CanonTree.Rule.Java
