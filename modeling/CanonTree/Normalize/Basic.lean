import CanonTree.Config.Basic
import CanonTree.Node.Shape
import CanonTree.Normalize.Bind
import CanonTree.Normalize.Reduce

/-!
# Normalizing one tree

A normalizer reduces a tree and then binds its names.  Reducing comes first, so a
raw node that becomes a block or a declaration is bound like one that was written
so.  `Normalizer.run` gives the records of both phases also when the tree fails;
`Normalizer.normalize` is its result alone.
-/

namespace CanonTree

structure CanonicalTree where
  root : Node
  /-- Empty if names were not bound. -/
  scopes : Arena
  language : Language
  stats : Stats
deriving DecidableEq, Inhabited

namespace CanonicalTree

def scopeOf? (tree : CanonicalTree) (node : Node) : Option Scope :=
  node.scope.bind tree.scopes.get?

/-- The declaring node of a binding, found by its position. -/
def declaration? (tree : CanonicalTree) (binding : Binding) : Option Node :=
  tree.root.toList[binding.node]?

end CanonicalTree

structure Normalizer where
  language : Language
  config : Config := {}
deriving DecidableEq, Inhabited

namespace Normalizer

def describe (normalizer : Normalizer) : String :=
  "Normalizer \x7b language: " ++ normalizer.language.variant ++ ", config: " ++
    normalizer.config.describe ++ " \x7d"

def bindNames (normalizer : Normalizer) (root : Node) : BindingState × Node :=
  if normalizer.config.bindScopes then BindingState.run root else ({}, root)

/-- Normalizes a tree; the records come with it, also if it fails. -/
def run (normalizer : Normalizer) (root : Node) :
    Array Record × Except NormalizeError CanonicalTree :=
  match Reducing.run normalizer.language normalizer.config.maxDepth root with
  | (reducing, .error error) => (reducing.log, .error error)
  | (reducing, .ok reduced) =>
      let (binding, bound) := normalizer.bindNames reduced
      let stats : Stats := ⟨reducing.visited, reducing.reduced, reducing.discarded,
        binding.arena.size, binding.bindings⟩
      (reducing.log ++ binding.log ++ #[.normalized normalizer.language stats],
        .ok ⟨bound, binding.arena, normalizer.language, stats⟩)

/-- The canonical tree that a tree stands for. -/
def normalize (normalizer : Normalizer) (root : Node) : Except NormalizeError CanonicalTree :=
  (normalizer.run root).2

def records (normalizer : Normalizer) (root : Node) : Array Record :=
  (normalizer.run root).1

end Normalizer

end CanonTree
