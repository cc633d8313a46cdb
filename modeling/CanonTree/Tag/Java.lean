import CanonTree.Tag.Flags

/-!
# Java vocabularies

`JavaTag` holds the Java constructs that have no shared counterpart and stay in
canonical trees.  `JavaRawTag` holds the surface constructs that only their
position can classify; a canonical tree has none of them.
-/

namespace CanonTree

/-- Java tags allowed in canonical trees. -/
inductive JavaTag where
  | throws
  /-- One resource of a `try` statement that closes its resources. -/
  | resource
  | typeWildcard
  | bound
  /-- Target list of a qualified `exports` or `opens` directive. -/
  | toClause
  /-- Implementation list of a `provides` directive. -/
  | withClause
  | directiveRequires
  | directiveExports
  | directiveOpens
  | directiveUses
  | directiveProvides
  | initializer
  | staticInitializer
deriving DecidableEq, Ord, Inhabited

def JavaTag.all : List JavaTag :=
  [.throws, .resource, .typeWildcard, .bound, .toClause, .withClause, .directiveRequires,
   .directiveExports, .directiveOpens, .directiveUses, .directiveProvides, .initializer,
   .staticInitializer]

def JavaTag.name : JavaTag → String
  | .throws => "THROWS"
  | .resource => "RESOURCE"
  | .typeWildcard => "TYPE_WILDCARD"
  | .bound => "BOUND"
  | .toClause => "TO"
  | .withClause => "WITH"
  | .directiveRequires => "DIRECTIVE_REQUIRES"
  | .directiveExports => "DIRECTIVE_EXPORTS"
  | .directiveOpens => "DIRECTIVE_OPENS"
  | .directiveUses => "DIRECTIVE_USES"
  | .directiveProvides => "DIRECTIVE_PROVIDES"
  | .initializer => "INITIALIZER"
  | .staticInitializer => "STATIC_INITIALIZER"

def JavaTag.variant : JavaTag → String
  | .throws => "Throws"
  | .resource => "Resource"
  | .typeWildcard => "TypeWildcard"
  | .bound => "Bound"
  | .toClause => "To"
  | .withClause => "With"
  | .directiveRequires => "DirectiveRequires"
  | .directiveExports => "DirectiveExports"
  | .directiveOpens => "DirectiveOpens"
  | .directiveUses => "DirectiveUses"
  | .directiveProvides => "DirectiveProvides"
  | .initializer => "Initializer"
  | .staticInitializer => "StaticInitializer"

def JavaTag.ofName? (name : String) : Option JavaTag :=
  JavaTag.all.find? (·.name == name)

def JavaTag.ofVariant? (variant : String) : Option JavaTag :=
  JavaTag.all.find? (·.variant == variant)

/-- A Java tag of canonical trees has no structural role. -/
def JavaTag.flags (_ : JavaTag) : Flags :=
  Flags.empty

/-- Java surface constructs, eliminated by normalization. -/
inductive JavaRawTag where
  /-- `package a.b.c;` -/
  | declPackage
  /-- An element of an annotation type, with its default value. -/
  | declAnnotationElement
  /-- Explicit receiver parameter, as in `void m(Outer this)`. -/
  | declReceivedParameter
  /-- Parameter of a `catch` clause, with one or more caught types. -/
  | declCatchParameter
  /-- Generic type application, as in `List<String>`. -/
  | typeInstantiation
  /-- Class literal, as in `String.class`. -/
  | classReference
  /-- Call of `this(...)` or `super(...)` that starts a constructor. -/
  | explicitCtorInvoke
  /-- One sized dimension of an array creation. -/
  | arrayDimExpr
  /-- Array creation, with an optional initializer. -/
  | arrayInstantiation
  /-- Cast, possibly to several types at once, as in `(A & B) expr`. -/
  | typeCast
  /-- Qualified method call, as in `receiver.<T>name(args)`. -/
  | methodAccess
  /-- Method reference, as in `Type::method`. -/
  | methodReference
  | directiveRequires
  | directiveExports
  | directiveOpens
  | directiveUses
  | directiveProvides
  /-- Inner class creation through an outer instance, as in `outer.new Inner(args)`. -/
  | newQualified
deriving DecidableEq, Ord, Inhabited

def JavaRawTag.all : List JavaRawTag :=
  [.declPackage, .declAnnotationElement, .declReceivedParameter, .declCatchParameter,
   .typeInstantiation, .classReference, .explicitCtorInvoke, .arrayDimExpr, .arrayInstantiation,
   .typeCast, .methodAccess, .methodReference, .directiveRequires, .directiveExports,
   .directiveOpens, .directiveUses, .directiveProvides, .newQualified]

def JavaRawTag.name : JavaRawTag → String
  | .declPackage => "RAW_DECL_PACKAGE"
  | .declAnnotationElement => "RAW_DECL_ANNOTATION_ELEMENT"
  | .declReceivedParameter => "RAW_DECL_RECEIVED_PARAMETER"
  | .declCatchParameter => "RAW_DECL_CATCH_PARAMETER"
  | .typeInstantiation => "RAW_TYPE_INSTANTIATION"
  | .classReference => "RAW_CLASS_REFERENCE"
  | .explicitCtorInvoke => "RAW_EXPLICIT_CTOR_INVOKE"
  | .arrayDimExpr => "RAW_ARRAY_DIM_EXPR"
  | .arrayInstantiation => "RAW_ARRAY_INSTANTIATION"
  | .typeCast => "RAW_TYPE_CAST"
  | .methodAccess => "RAW_METHOD_ACCESS"
  | .methodReference => "RAW_METHOD_REFERENCE"
  | .directiveRequires => "RAW_DIRECTIVE_REQUIRES"
  | .directiveExports => "RAW_DIRECTIVE_EXPORTS"
  | .directiveOpens => "RAW_DIRECTIVE_OPENS"
  | .directiveUses => "RAW_DIRECTIVE_USES"
  | .directiveProvides => "RAW_DIRECTIVE_PROVIDES"
  | .newQualified => "RAW_NEW_QUALIFIED"

def JavaRawTag.variant : JavaRawTag → String
  | .declPackage => "DeclPackage"
  | .declAnnotationElement => "DeclAnnotationElement"
  | .declReceivedParameter => "DeclReceivedParameter"
  | .declCatchParameter => "DeclCatchParameter"
  | .typeInstantiation => "TypeInstantiation"
  | .classReference => "ClassReference"
  | .explicitCtorInvoke => "ExplicitCtorInvoke"
  | .arrayDimExpr => "ArrayDimExpr"
  | .arrayInstantiation => "ArrayInstantiation"
  | .typeCast => "TypeCast"
  | .methodAccess => "MethodAccess"
  | .methodReference => "MethodReference"
  | .directiveRequires => "DirectiveRequires"
  | .directiveExports => "DirectiveExports"
  | .directiveOpens => "DirectiveOpens"
  | .directiveUses => "DirectiveUses"
  | .directiveProvides => "DirectiveProvides"
  | .newQualified => "NewQualified"

def JavaRawTag.ofName? (name : String) : Option JavaRawTag :=
  JavaRawTag.all.find? (·.name == name)

def JavaRawTag.ofVariant? (variant : String) : Option JavaRawTag :=
  JavaRawTag.all.find? (·.variant == variant)

def JavaRawTag.flags (_ : JavaRawTag) : Flags :=
  Flags.surface

/-- The canonical directive that a raw module directive stands for. -/
def JavaRawTag.directive? : JavaRawTag → Option JavaTag
  | .directiveRequires => some .directiveRequires
  | .directiveExports => some .directiveExports
  | .directiveOpens => some .directiveOpens
  | .directiveUses => some .directiveUses
  | .directiveProvides => some .directiveProvides
  | _ => none

end CanonTree
