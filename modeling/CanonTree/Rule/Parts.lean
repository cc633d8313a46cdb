import CanonTree.Node.Basic
import CanonTree.Rule.Error

/-!
# Taking raw nodes apart and building canonical ones

What the rules of all languages share: picking children by tag, checking their
number, and making nodes out of them.
-/

namespace CanonTree.Rule

def first? (tag : SharedTag) (nodes : List Node) : Option Node :=
  nodes.find? (·.is tag)

def withoutFirst (tag : SharedTag) (nodes : List Node) : List Node :=
  nodes.eraseP (·.is tag)

def last? (tag : SharedTag) (nodes : List Node) : Option Node :=
  first? tag nodes.reverse

def withoutLast (tag : SharedTag) (nodes : List Node) : List Node :=
  (withoutFirst tag nodes.reverse).reverse

/-- A new node around the given ones, with the span that covers them. -/
def wrap (tag : SharedTag) (nodes : List Node) : Node :=
  .branch tag (Span.coverAll (nodes.map (·.span))) nodes

/-- The same node under a canonical tag; a scope is not kept. -/
def retag (tag : Tag) (node : Node) : Node :=
  { node with tag := tag, scope := none }

def retagShared (tag : SharedTag) (node : Node) : Node :=
  retag (.shared tag) node

/-- Collects the nodes with tag `tag` in one node `group` at the place of the first of them,
if there are at least `least`. -/
def gather (tag group : SharedTag) (least : Nat) (nodes : List Node) : List Node :=
  if nodes.countP (·.is tag) < least then nodes
  else
    match nodes.span (!·.is tag) with
    | (before, []) => before
    | (before, others) =>
        before ++ wrap group (others.filter (·.is tag)) :: others.filter (!·.is tag)

/-- The declaration of `name` that `node` stands for: a `PROPS` child that names the kind, then
the children of the node. -/
def declare (kind : DeclKind) (name : String) (node : Node) (children : List Node) : Node :=
  let props := (Node.leaf .props node.span).withText kind.name
  (Node.branch .decl node.span (props :: children)).withText name

def exactly (expected : Nat) (node : Node) : Except Defect Unit :=
  if node.children.length = expected then .ok ()
  else .error (.childCount expected node.children.length)

def atLeast (least : Nat) (node : Node) : Except Defect Unit :=
  if node.children.length < least then .error (.tooFewChildren least node.children.length)
  else .ok ()

end CanonTree.Rule
