import CanonTree.Node.Walk
import CanonTree.Normalize.Record
import CanonTree.Scope.Arena

/-!
# The binding walk

The second phase of normalization opens a scope for every block-like node and
registers declared names in the innermost open scope.  Nodes are entered parents
first and left children first; a node first binds its names in the innermost open
scope and then opens its own, which stays open until the node is left.  A root that
opens no scope still gets an outermost one, which is not recorded on the node, to
hold its declarations.
-/

namespace CanonTree

structure BindingState where
  arena : Arena := Arena.empty
  /-- The open scopes, the innermost first. -/
  active : List ScopeId := []
  /-- Nodes entered so far, and so the position of the next one. -/
  entered : Nat := 0
  /-- Names bound so far. -/
  bindings : Nat := 0
  log : Array Record := #[]
deriving DecidableEq, Inhabited

namespace BindingState

/-- Opens a scope inside the innermost open one; it gets the next identifier of the arena. -/
def openScope (state : BindingState) (tag : Tag) (span : Span) : BindingState :=
  let id := state.arena.nextId
  let parent := state.active.head?
  { state with
    arena := state.arena.openScope parent tag span,
    active := id :: state.active,
    log := state.log.push (.openedScope id tag span parent) }

def closeScope (state : BindingState) : BindingState :=
  { state with active := state.active.tail }

def register (scope : ScopeId) (node : Node) (state : BindingState) (name : String) :
    BindingState :=
  { state with
    arena := state.arena.bind scope ⟨name, node.tag, node.span, state.entered⟩,
    bindings := state.bindings + 1,
    log := state.log.push (.binding name node.span) }

/-- Registers all names of a declaration in the innermost open scope; other nodes bind
nothing. -/
def declare (state : BindingState) (node : Node) : BindingState :=
  match state.active.head? with
  | some scope =>
      if node.tag.isDecl then node.boundNames.foldl (register scope node) state else state
  | none => state

/-- Counts one more node as entered. -/
def advance (state : BindingState) : BindingState :=
  { state with entered := state.entered + 1 }

/-- The walk; the context is the scope that the node above opened, to be noted on that node and
closed when it is left.  It never fails, and gives back each node with its scope noted. -/
def walk : Walk (Option ScopeId) BindingState Empty Node where
  enter _ node state :=
    let state := (state.declare node).advance
    if node.tag.hasOwnScope then
      (state.openScope node.tag node.span, .ok (some (some state.arena.nextId)))
    else (state, .ok (some none))
  leave opened node results state :=
    match opened with
    | some id => (state.closeScope, .ok [{ node with children := results, scope := some id }])
    | none => (state, .ok [{ node with children := results }])

/-- What is open before the root is entered. -/
def start (root : Node) : BindingState :=
  if root.tag.hasOwnScope then {} else ({} : BindingState).openScope root.tag root.span

/-- Binds the names of a tree.  The walk gives exactly one node back for the root. -/
def run (root : Node) : BindingState × Node :=
  match walk.runTree none (start root) root with
  | (state, .ok (bound :: _)) => (state, bound)
  | (state, _) => (state, root)

end BindingState

end CanonTree
