import CanonTree.Scope.Basic

/-!
# Arenas of scopes

All scopes of one tree, in opening order.  Opening a scope takes any identifier as
its parent, also one that names no scope yet, and keeps it; only a parent that
names a scope gets the new one as a child.  A scope can therefore be its own
parent, and the walk outwards from it has no end.  `Arena.resolve` tells such a
walk from one that ends without an answer.
-/

namespace CanonTree

structure Arena where
  scopes : Array Scope
  /-- The first scope opened without a parent. -/
  root : Option ScopeId
deriving DecidableEq, Inhabited

/-- What a walk outwards in search of a name comes to. -/
inductive Resolution where
  /-- The nearest scope that binds the name. -/
  | found (id : ScopeId)
  /-- The walk ends and no scope on it binds the name. -/
  | unbound
  /-- The walk goes round in a circle in which no scope binds the name. -/
  | endless
deriving DecidableEq, Inhabited

namespace Arena

def empty : Arena := ⟨#[], none⟩

def size (arena : Arena) : Nat :=
  arena.scopes.size

def get? (arena : Arena) (id : ScopeId) : Option Scope :=
  id.number?.bind (arena.scopes[·]?)

def contains (arena : Arena) (id : ScopeId) : Bool :=
  (arena.get? id).isSome

def parent? (arena : Arena) (id : ScopeId) : Option ScopeId :=
  (arena.get? id).bind (·.parent)

/-- Changes the named scope; nothing happens if there is none. -/
def modify (arena : Arena) (id : ScopeId) (change : Scope → Scope) : Arena :=
  match id.number? with
  | some number => { arena with scopes := arena.scopes.modify number change }
  | none => arena

def nextId (arena : Arena) : ScopeId :=
  ScopeId.ofNumber arena.size

/-- Opens a scope for a node with the given tag and span inside `parent`.  The new scope is
there before its parent is looked up. -/
def openScope (arena : Arena) (parent : Option ScopeId) (tag : Tag) (span : Span) : Arena :=
  let id := arena.nextId
  let grown : Arena := ⟨arena.scopes.push ⟨parent, #[], tag, span, #[]⟩, arena.root⟩
  match parent with
  | some parent =>
      grown.modify parent fun scope => { scope with children := scope.children.push id }
  | none => { grown with root := grown.root.or (some id) }

/-- Registers a binding in a scope; a scope that is not there is passed over. -/
def bind (arena : Arena) (id : ScopeId) (binding : Binding) : Arena :=
  arena.modify id fun scope => { scope with bindings := scope.bindings.push binding }

def bindingCount (arena : Arena) : Nat :=
  arena.scopes.foldl (fun count scope => count + scope.bindings.size) 0

def toList (arena : Arena) : List (ScopeId × Scope) :=
  arena.scopes.toList.zipIdx.map fun entry => (ScopeId.ofNumber entry.2, entry.1)

/-- The bindings of one name over all scopes, in opening and then registration order. -/
def bindingsNamed (arena : Arena) (name : String) : List (ScopeId × Binding) :=
  arena.toList.flatMap fun entry => (entry.2.lookup name).map (entry.1, ·)

/-- At most `limit` steps outwards: the identifier itself, its parent, and so on.  An
identifier that names no scope has no parent and ends the walk. -/
def outward (arena : Arena) : Nat → ScopeId → List ScopeId
  | 0, _ => []
  | limit + 1, id =>
      match arena.parent? id with
      | none => [id]
      | some parent => id :: arena.outward limit parent

/-- The first `limit` scopes around and including the named one; none if it is not there. -/
def ancestors (arena : Arena) (limit : Nat) (id : ScopeId) : List ScopeId :=
  if arena.contains id then arena.outward limit id else []

/-- The search of `resolve`, given up after `limit` scopes. -/
def resolveWithin (arena : Arena) (name : String) : Nat → ScopeId → Resolution
  | 0, _ => .endless
  | limit + 1, id =>
      match arena.get? id with
      | none => .unbound
      | some scope =>
          if scope.binds name then .found id
          else
            match scope.parent with
            | none => .unbound
            | some parent => arena.resolveWithin name limit parent

/-- The nearest scope that binds the name, from the given one outwards.  A walk over more
scopes than there are has come back to one of them. -/
def resolve (arena : Arena) (id : ScopeId) (name : String) : Resolution :=
  arena.resolveWithin name (arena.size + 1) id

end Arena

end CanonTree
