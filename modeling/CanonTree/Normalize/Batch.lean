import CanonTree.Normalize.Basic
import CanonTree.Normalize.Pool

/-!
# Normalizing many trees

Independent trees of one language are shared out among workers.  The result of each
tree stands at the place of the tree, and a tree that fails has no effect on the
others.  One worker takes the trees in order and its records are kept; the records
of several workers are their own and are not.
-/

namespace CanonTree

namespace Normalizer

/-- The outcome for one tree of a batch, with its records.  A failure leaves one more. -/
def runJob (normalizer : Normalizer) (index : Nat) (tree : Node) :
    Array Record × Except NormalizeError CanonicalTree :=
  match normalizer.run tree with
  | (log, .ok canonical) => (log, .ok canonical)
  | (log, .error error) => (log.push (.treeFailed index error), .error error)

def runInOrder (normalizer : Normalizer) (trees : List Node) :
    Array Record × List (Except NormalizeError CanonicalTree) :=
  let outcomes := trees.zipIdx.map fun entry => normalizer.runJob entry.2 entry.1
  (outcomes.foldl (fun log outcome => log ++ outcome.1) #[], outcomes.map (·.2))

/-- All trees, by several workers that take their steps in the given order. -/
def runOnWorkers (normalizer : Normalizer) (workers : Nat) (schedule : List Nat)
    (trees : List Node) : List (Except NormalizeError CanonicalTree) :=
  ((Pool.start workers trees).runSchedule normalizer.normalize schedule).collect trees.length

/-- Normalizes a batch on a machine that runs `available` workers at once; with the records of
the calling thread. -/
def runBatch (normalizer : Normalizer) (available : Nat) (trees : List Node) :
    Array Record × List (Except NormalizeError CanonicalTree) :=
  let workers := normalizer.config.workerCount available trees.length
  let started := Record.batchStarted trees.length normalizer.language workers
  if workers ≤ 1 then
    let (log, results) := normalizer.runInOrder trees
    (#[started] ++ log, results)
  else
    (#[started], normalizer.runOnWorkers workers (Pool.inTurn workers trees.length) trees)

def normalizeBatch (normalizer : Normalizer) (available : Nat) (trees : List Node) :
    List (Except NormalizeError CanonicalTree) :=
  (normalizer.runBatch available trees).2

end Normalizer

end CanonTree
