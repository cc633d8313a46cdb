/-!
# Counters

What is counted while a tree is normalized, and sums of it over several trees.
-/

namespace CanonTree

structure Stats where
  /-- Nodes entered while reducing. -/
  visited : Nat := 0
  /-- Raw nodes reduced. -/
  reduced : Nat := 0
  /-- Discarded subtrees dropped. -/
  discarded : Nat := 0
  /-- Scopes opened. -/
  scopes : Nat := 0
  /-- Names bound. -/
  bindings : Nat := 0
deriving DecidableEq, Inhabited

def Stats.add (left right : Stats) : Stats :=
  ⟨left.visited + right.visited, left.reduced + right.reduced,
    left.discarded + right.discarded, left.scopes + right.scopes,
    left.bindings + right.bindings⟩

instance : Add Stats := ⟨Stats.add⟩

def Stats.total (stats : List Stats) : Stats :=
  stats.foldl (· + ·) {}

end CanonTree
