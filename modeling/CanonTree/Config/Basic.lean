/-!
# Settings

What can be set for the normalization of one or more trees, and how many workers
share a number of jobs.
-/

namespace CanonTree

structure Config where
  /-- Depth of the deepest tree that is accepted. -/
  maxDepth : Nat := 4096
  /-- Names are bound; if not, no scope is recorded. -/
  bindScopes : Bool := true
  /-- Workers that share a batch; 0 stands for as many as the machine runs at once. -/
  threads : Nat := 0
deriving DecidableEq, Inhabited

namespace Config

/-- The settings can be used: some tree is accepted. -/
def isValid (config : Config) : Bool :=
  config.maxDepth != 0

/-- Workers for a number of jobs, on a machine that runs `available` of them at once: never more
than there are jobs, and at least one. -/
def workerCount (config : Config) (available jobs : Nat) : Nat :=
  max 1 (min (if config.threads = 0 then available else config.threads) jobs)

def describe (config : Config) : String :=
  "NormalizerConfig \x7b max_depth: " ++ toString config.maxDepth ++ ", bind_scopes: " ++
    toString config.bindScopes ++ ", threads: " ++ toString config.threads ++ " \x7d"

end Config

end CanonTree
