import CanonTree.Tag.Basic
import CanonTree.Span

/-!
# Why a tree does not normalize

A defect says what is wrong with the children, text or operator of a raw node.  An
error says which node is at fault and why; each is fatal for its tree.
-/

namespace CanonTree

/-- Kinds of declarations that rules make, named in the `PROPS` child of the declaration. -/
inductive DeclKind where
  | package
  | annotationElement
  | receiverParameter
  | catchParameter
  | variableName
deriving DecidableEq, Inhabited

def DeclKind.name : DeclKind → String
  | .package => "package"
  | .annotationElement => "annotation_element"
  | .receiverParameter => "receiver_parameter"
  | .catchParameter => "catch_parameter"
  | .variableName => "variable"

/-- What keeps a raw node from being reduced. -/
inductive Defect where
  /-- There are `found` children where exactly `expected` are needed. -/
  | childCount (expected found : Nat)
  /-- There are `found` children where at least `least` are needed. -/
  | tooFewChildren (least found : Nat)
  | unnamedDeclaration (kind : DeclKind)
  | caughtTypeMissing
  | literalTypeMissing
  | constructorMissing
  | elementTypeMissing
  | dimensionsMissing
  | methodNameMissing
  | receiverMissing
  | directiveTargetMissing
  | qualifierMissing
  | createdTypeMissing
  /-- There are arguments both inside and outside of an `ARGUMENTS` child. -/
  | argumentsTwice
  | declaratorsMissing
  | unexpectedDeclarator (tag : Tag)
  | declaratorNameMissing
  | declaratorTextMissing
  | binaryOperatorMissing
  /-- There are `found` children where a target and a value are needed. -/
  | operandCount (found : Nat)
deriving DecidableEq, Inhabited

def Defect.message : Defect → String
  | .childCount expected found =>
      "expected " ++ toString expected ++ " child" ++ (if expected = 1 then "" else "ren") ++
        ", found " ++ toString found
  | .tooFewChildren least found =>
      "expected at least " ++ toString least ++ " children, found " ++ toString found
  | .unnamedDeclaration kind => kind.name ++ " declaration without a name"
  | .caughtTypeMissing => "catch parameter without a caught type"
  | .literalTypeMissing => "class literal without a type"
  | .constructorMissing => "constructor invocation without `this` or `super`"
  | .elementTypeMissing => "array creation without an element type"
  | .dimensionsMissing => "array creation without dimensions or initializer"
  | .methodNameMissing => "method access without a method name"
  | .receiverMissing => "method access without a receiver"
  | .directiveTargetMissing => "module directive without a target"
  | .qualifierMissing => "qualified creation without a qualifier"
  | .createdTypeMissing => "qualified creation without a type"
  | .argumentsTwice => "arguments both listed and wrapped"
  | .declaratorsMissing => "variable list without declarators"
  | .unexpectedDeclarator tag => "unexpected `" ++ tag.name ++ "` in a variable list"
  | .declaratorNameMissing => "declarator without a name"
  | .declaratorTextMissing => "declarator name without text"
  | .binaryOperatorMissing => "compound assignment without a binary operator"
  | .operandCount found =>
      "expected a target and a value, found " ++ toString found ++ " children"

inductive NormalizeError where
  /-- A raw tag stands in a tree of another language. -/
  | unmapped (tag : RawTag) (language : Language) (span : Span)
  | malformed (tag : RawTag) (span : Span) (defect : Defect)
  /-- Nothing is left of the tree. -/
  | discardedRoot (span : Span)
  | tooDeep (limit : Nat) (span : Span)
deriving DecidableEq, Inhabited

namespace NormalizeError

def span : NormalizeError → Span
  | .unmapped _ _ span | .malformed _ span _ | .discardedRoot span | .tooDeep _ span => span

/-- The raw tag of the node at fault, if that is what is wrong. -/
def tag? : NormalizeError → Option RawTag
  | .unmapped tag _ _ | .malformed tag _ _ => some tag
  | .discardedRoot _ | .tooDeep _ _ => none

def reason : NormalizeError → String
  | .unmapped tag language _ =>
      "raw tag `" ++ tag.name ++ "` has no rewrite rule for " ++ language.name ++ " sources"
  | .malformed tag _ defect => "malformed `" ++ tag.name ++ "` node: " ++ defect.message
  | .discardedRoot _ => "the root of the tree is a discarded node"
  | .tooDeep limit _ =>
      "tree is deeper than the configured limit of " ++ toString limit

def message (error : NormalizeError) : String :=
  error.span.position ++ ": " ++ error.reason

end NormalizeError

end CanonTree
