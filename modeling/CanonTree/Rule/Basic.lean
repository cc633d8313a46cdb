import CanonTree.Rule.Java
import CanonTree.Rule.Ecma

/-!
# Reducing one raw node

The rules of a language cover exactly its own raw tags.  A raw tag of another
language is an error, whatever the node holds.
-/

namespace CanonTree.Rule

/-- The canonical nodes that a raw node, taken under the given raw tag, stands for in sources
of the given language. -/
def reduce (language : Language) (tag : RawTag) (node : Node) :
    Except NormalizeError (List Node) :=
  let outcome : Option (Except Defect Node) :=
    match language, tag with
    | .java, .java tag => some (Java.canonical tag node)
    | .ecma, .ecma tag => some (Ecma.canonical tag node)
    | _, _ => none
  match outcome with
  | some (.ok canonical) => .ok [canonical]
  | some (.error defect) => .error (.malformed tag node.span defect)
  | none => .error (.unmapped tag language node.span)

end CanonTree.Rule
