import CanonTree.Operator
import CanonTree.Scope.Basic

/-!
# Nodes

A node owns an ordered list of children, so a tree is a plain value: nothing in it
is shared and nothing goes round in a circle.  Besides its tag and span a node may
carry a text (an identifier, a literal), the operator of an expression, and the
scope that it opened.
-/

namespace CanonTree

structure Node where
  tag : Tag
  span : Span
  /-- Identifier, literal or other scalar content. -/
  text : Option String
  /-- Operator of binary and unary expressions and of compound assignments. -/
  operator : Option Operator
  children : List Node
  /-- The scope opened by this node, set on block-like nodes when names are bound. -/
  scope : Option ScopeId
deriving Inhabited

namespace Node

/-- A node with a shared tag, a span and children, and nothing else. -/
def branch (tag : SharedTag) (span : Span) (children : List Node) : Node :=
  ⟨.shared tag, span, none, none, children, none⟩

def leaf (tag : SharedTag) (span : Span) : Node :=
  branch tag span []

def withText (node : Node) (text : String) : Node :=
  { node with text := some text }

def withOperator (node : Node) (operator : Operator) : Node :=
  { node with operator := some operator }

def withChildren (node : Node) (children : List Node) : Node :=
  { node with children := node.children ++ children }

def withChild (node : Node) (child : Node) : Node :=
  node.withChildren [child]

def is (node : Node) (tag : SharedTag) : Bool :=
  node.tag == .shared tag

def rawTag? (node : Node) : Option RawTag :=
  node.tag.raw?

def child? (node : Node) (tag : SharedTag) : Option Node :=
  node.children.find? (·.is tag)

/-- The name bound by a declaration: its text, or else the text of its first `NAME` child. -/
def boundName? (node : Node) : Option String :=
  node.text.or ((node.child? .ident).bind (·.text))

/-- All names bound by a declaration: its text, or else the texts of its `NAME` children. -/
def boundNames (node : Node) : List String :=
  match node.text with
  | some text => [text]
  | none => (node.children.filter (·.is .ident)).filterMap (·.text)

end Node

end CanonTree
