/-!
# Workers that share a queue

Workers take jobs from one queue, work on them, and send the results off.  Each of
the three is one step of one worker, and the steps of different workers may come in
any order.  Results are told apart by the number of their job, so they can be put
back into the order of the jobs.
-/

namespace CanonTree

/-- What a worker has in hand. -/
inductive Hand (α β : Type) where
  | idle
  /-- A job that was taken from the queue. -/
  | job (index : Nat) (input : α)
  /-- A result that was not sent yet. -/
  | result (index : Nat) (output : β)
deriving DecidableEq, Inhabited

/-- A queue, the workers on it, and the results sent so far, the latest first. -/
structure Pool (α β : Type) where
  queue : List (Nat × α)
  hands : List (Hand α β)
  sent : List (Nat × β)
deriving DecidableEq, Inhabited

namespace Pool

variable {α β : Type}

/-- All jobs are in the queue, with their numbers, and all workers are idle. -/
def start (workers : Nat) (inputs : List α) : Pool α β :=
  ⟨inputs.zipIdx.map fun entry => (entry.2, entry.1), List.replicate workers .idle, []⟩

/-- One step of one worker: take a job, work on it, or send its result.  A worker that finds
the queue empty, or that is not there, does nothing. -/
def step (work : α → β) (pool : Pool α β) (worker : Nat) : Pool α β :=
  match pool.hands[worker]?, pool.queue with
  | some .idle, (index, input) :: queue =>
      { pool with queue := queue, hands := pool.hands.set worker (.job index input) }
  | some (.job index input), _ =>
      { pool with hands := pool.hands.set worker (.result index (work input)) }
  | some (.result index output), _ =>
      { pool with
        hands := pool.hands.set worker .idle, sent := (index, output) :: pool.sent }
  | _, _ => pool

/-- Lets the workers take steps in the given order. -/
def runSchedule (work : α → β) (schedule : List Nat) (pool : Pool α β) : Pool α β :=
  schedule.foldl (step work) pool

/-- Nothing is left to do: the queue is empty and no worker holds anything. -/
def isFinished (pool : Pool α β) : Bool :=
  pool.queue.isEmpty && pool.hands.all fun
    | .idle => true
    | _ => false

/-- The results that were sent, in the order of their jobs. -/
def collect (jobs : Nat) (pool : Pool α β) : List β :=
  (List.range jobs).filterMap fun index => pool.sent.lookup index

/-- The workers in turn, each of them doing one whole job. -/
def inTurn (workers jobs : Nat) : List Nat :=
  (List.range jobs).flatMap fun job => List.replicate 3 (job % workers)

end Pool

end CanonTree
