import CanonTree.Rule.Parts

/-!
# Rules of ECMAScript

One rule for each raw tag of ECMAScript, under the same contract as the rules of
the other languages: one canonical node with the same span, or a defect.
-/

namespace CanonTree.Rule.Ecma

/-- The declaration of one `ITEM` of a variable list: its first `NAME`, then an `INIT` around
all else that it holds. -/
def declarator (item : Node) : Except Defect Node :=
  if !item.is .item then .error (.unexpectedDeclarator item.tag)
  else
    match first? .ident item.children with
    | none => .error .declaratorNameMissing
    | some name =>
        match name.text with
        | none => .error .declaratorTextMissing
        | some text =>
            let others := withoutFirst .ident item.children
            .ok (declare .variableName text item
              (name :: if others.isEmpty then [] else [wrap .init others]))

/-- `let a = 1, b;`: one declaration for each declarator, after the modifier. -/
def variableList (node : Node) : Except Defect Node :=
  let items := withoutFirst .modifier node.children
  if items.isEmpty then .error .declaratorsMissing
  else
    match items.mapM declarator with
    | .error defect => .error defect
    | .ok declarations =>
        .ok { Node.branch .declList node.span
          ((first? .modifier node.children).toList ++ declarations) with text := node.text }

/-- A literal part of a template is text of that template. -/
def templatePart (part : Node) : Node :=
  if part.is .literal then { part with tag := .shared .templateText } else part

def templateString (node : Node) : Node :=
  retagShared .templateParsed { node with children := node.children.map templatePart }

/-- `a op= b`: an assignment with the operator.  The target is evaluated once, so it is kept as
the one first child. -/
def compoundAssignment (node : Node) : Except Defect Node :=
  match node.operator with
  | some (.binary operator) =>
      match node.children with
      | [target, value] =>
          .ok ((Node.branch .assign node.span [target, value]).withOperator (.binary operator))
      | _ => .error (.operandCount node.children.length)
  | _ => .error .binaryOperatorMissing

/-- An exported default is marked by a first child. -/
def exportDefault (node : Node) : Node :=
  retagShared .exportDecl
    { node with children := .leaf .defaultMark node.span :: node.children }

def canonical (tag : EcmaRawTag) (node : Node) : Except Defect Node :=
  match tag with
  | .variableList => variableList node
  | .templateString => .ok (templateString node)
  | .spread => (exactly 1 node).map fun _ => retagShared .ellipsis node
  | .exportDefault => (atLeast 1 node).map fun _ => exportDefault node
  | .compoundAssign => compoundAssignment node
  | .optionalChain => (atLeast 2 node).map fun _ => (retagShared .chain node).withText "?."

end CanonTree.Rule.Ecma
