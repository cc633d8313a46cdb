import CanonTree.Node.Order
import CanonTree.Text.Quoted

/-!
# Dumps

A dump shows a tree with one line for each node, parents first, two spaces of
indentation for each level.  A line names the tag, then the operator between
backquotes and the text between quotes if the node has them, then the position,
and marks a node that opened a scope.
-/

namespace CanonTree

namespace Node

/-- The line of one node without its indentation. -/
def headline (node : Node) : String :=
  node.tag.name ++
    (match node.operator with
      | some operator => " `" ++ operator.symbol ++ "`"
      | none => "") ++
    (match node.text with
      | some text => " " ++ Text.quoted text
      | none => "") ++
    " @" ++ node.span.position ++
    (if node.scope.isSome then " [scope]" else "")

def dumpLine (depth : Nat) (node : Node) : String :=
  String.ofList (List.replicate (2 * depth) ' ') ++ node.headline ++ "\n"

def dump (node : Node) : String :=
  node.levels.foldl (fun text entry => text ++ dumpLine entry.1 entry.2) ""

end Node

end CanonTree
