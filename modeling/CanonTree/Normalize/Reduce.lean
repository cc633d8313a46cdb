import CanonTree.Node.Walk
import CanonTree.Normalize.Record
import CanonTree.Rule.Basic

/-!
# The reducing walk

The first phase of normalization drops discarded subtrees and hands each raw node,
with children that are canonical by then, to its rule.  Nodes are entered parents
first and left children first.  The depth limit is checked on entering, before a
node is found to be discarded; a rule is applied on leaving.  The first error ends
the walk.
-/

namespace CanonTree

structure Reducing where
  visited : Nat := 0
  reduced : Nat := 0
  discarded : Nat := 0
  log : Array Record := #[]
deriving DecidableEq, Inhabited

namespace Reducing

/-- The walk for trees of one language; the context is the depth of the node, the root having
depth 1. -/
def walk (language : Language) (maxDepth : Nat) : Walk Nat Reducing NormalizeError Node where
  enter depth node state :=
    let state := { state with visited := state.visited + 1 }
    if maxDepth < depth then (state, .error (.tooDeep maxDepth node.span))
    else if node.tag.isDiscarded then
      ({ state with
          discarded := state.discarded + 1, log := state.log.push (.dropping node.span) },
        .ok none)
    else (state, .ok (some (depth + 1)))
  leave _ node results state :=
    match node.tag with
    | .raw tag =>
        if tag.owner = language then
          let state := { state with log := state.log.push (.reducing tag node.span) }
          match Rule.reduce language tag { node with children := results } with
          | .error error => (state, .error error)
          | .ok produced =>
              ({ state with
                  reduced := state.reduced + 1,
                  discarded := state.discarded + produced.countP (·.tag.isDiscarded) },
                .ok (produced.filter (!·.tag.isDiscarded)))
        else (state, .error (.unmapped tag language node.span))
    | _ => (state, .ok [{ node with children := results }])

/-- One tree out of the nodes that are left of the root. -/
def assemble (span : Span) : List Node → Except NormalizeError Node
  | [] => .error (.discardedRoot span)
  | [node] => .ok node
  | nodes => .ok (.branch .list span nodes)

/-- Reduces a tree.  The counters and records are there also if it fails. -/
def run (language : Language) (maxDepth : Nat) (root : Node) :
    Reducing × Except NormalizeError Node :=
  match (walk language maxDepth).runTree 1 {} root with
  | (state, .ok nodes) => (state, assemble root.span nodes)
  | (state, .error error) => (state, .error error)

end Reducing

end CanonTree
