import CanonTree.Normalize.Pool
import Mathlib.Algebra.GroupWithZero.Nat
import Mathlib.Data.List.Nodup
import Mathlib.Data.List.Perm.Basic

/-!
# Sharing a queue loses nothing

Whatever the order in which workers take their steps, the results that were sent and
those that are still to come are always the same: one for each job, under its number.
A job is in the queue, in the hands of one worker, or sent, and a step only moves it on.
Each step that does something brings the end nearer by one, and as long as there is
something left to do some worker can do it.  So every order of steps ends, after three
steps for each job, with exactly the results of all jobs.
-/

namespace CanonTree

variable {α β : Type}

/-- What comes of that which a worker has in hand, under the number of the job. -/
def Hand.outcome? (work : α → β) : Hand α β → Option (Nat × β)
  | .idle => none
  | .job index input => some (index, work input)
  | .result index output => some (index, output)

/-- Number of steps until a worker is idle. -/
def Hand.remaining : Hand α β → Nat
  | .idle => 0
  | .job _ _ => 2
  | .result _ _ => 1

namespace Pool

/-- The results still to come and those that were sent. -/
def outcomes (work : α → β) (pool : Pool α β) : List (Nat × β) :=
  pool.queue.map (fun job => (job.1, work job.2)) ++
    (pool.hands.filterMap (Hand.outcome? work) ++ pool.sent)

/-- Number of steps until nothing is left to do. -/
def remaining (pool : Pool α β) : Nat :=
  3 * pool.queue.length + (pool.hands.map Hand.remaining).sum

/-! ## One step -/

/-- What a worker does in one step, with its hand between those of the others. -/
inductive Moves (work : α → β) : Pool α β → Pool α β → Prop where
  | take {index : Nat} {input : α} {queue : List (Nat × α)} {before after : List (Hand α β)}
      {sent : List (Nat × β)} :
      Moves work ⟨(index, input) :: queue, before ++ .idle :: after, sent⟩
        ⟨queue, before ++ .job index input :: after, sent⟩
  | finish {index : Nat} {input : α} {queue : List (Nat × α)} {before after : List (Hand α β)}
      {sent : List (Nat × β)} :
      Moves work ⟨queue, before ++ .job index input :: after, sent⟩
        ⟨queue, before ++ .result index (work input) :: after, sent⟩
  | send {index : Nat} {output : β} {queue : List (Nat × α)} {before after : List (Hand α β)}
      {sent : List (Nat × β)} :
      Moves work ⟨queue, before ++ .result index output :: after, sent⟩
        ⟨queue, before ++ .idle :: after, (index, output) :: sent⟩

variable {work : α → β} {pool next : Pool α β}

/-- A job that is moved on still has the same outcome. -/
theorem Moves.outcomes_perm (hmoves : Moves work pool next) :
    (outcomes work next).Perm (outcomes work pool) := by
  classical
  cases hmoves <;> rw [List.perm_iff_count] <;> intro outcome <;>
    simp only [outcomes, List.filterMap_append, List.filterMap_cons, List.map_cons,
      Hand.outcome?, List.count_append, List.count_cons] <;>
    omega

theorem Moves.remaining_eq (hmoves : Moves work pool next) :
    pool.remaining = next.remaining + 1 := by
  cases hmoves <;>
    simp only [remaining, List.map_append, List.map_cons, List.sum_append, List.sum_cons,
      List.length_cons, Hand.remaining] <;>
    omega

theorem Moves.length_hands (hmoves : Moves work pool next) :
    next.hands.length = pool.hands.length := by
  cases hmoves <;> simp

/-- A move is never without effect. -/
theorem Moves.ne (hmoves : Moves work pool next) : next ≠ pool := by
  rintro rfl
  have hremaining := hmoves.remaining_eq
  omega

/-- The worker whose hand stands between those of the others. -/
theorem exists_split_set {hands : List (Hand α β)} {worker : Nat} {hand : Hand α β}
    (hhand : hands[worker]? = some hand) (changed : Hand α β) :
    ∃ before after, hands = before ++ hand :: after ∧
      hands.set worker changed = before ++ changed :: after := by
  obtain ⟨hbound, rfl⟩ := List.getElem?_eq_some_iff.mp hhand
  obtain ⟨before, after, hsplit, -, hset⟩ := @List.exists_of_set _ worker changed hands hbound
  exact ⟨before, after, hsplit, hset⟩

/-- A step of a worker that holds something, or that is idle while there are jobs, is a move. -/
theorem moves_step {worker : Nat} {hand : Hand α β} (hhand : pool.hands[worker]? = some hand)
    (hbusy : hand ≠ .idle ∨ pool.queue ≠ []) : Moves work pool (step work pool worker) := by
  obtain ⟨queue, hands, sent⟩ := pool
  dsimp only at hhand hbusy
  cases hand with
  | idle =>
      cases queue with
      | nil => simp at hbusy
      | cons job queue =>
          obtain ⟨before, after, hsplit, hset⟩ := exists_split_set hhand (.job job.1 job.2)
          simp only [step, hhand, hset]
          rw [hsplit]
          exact .take
  | job index input =>
      obtain ⟨before, after, hsplit, hset⟩ := exists_split_set hhand (.result index (work input))
      simp only [step, hhand, hset]
      rw [hsplit]
      exact .finish
  | result index output =>
      obtain ⟨before, after, hsplit, hset⟩ := exists_split_set hhand .idle
      simp only [step, hhand, hset]
      rw [hsplit]
      exact .send

/-- A step does nothing, or it is a move. -/
theorem step_eq_or_moves (work : α → β) (pool : Pool α β) (worker : Nat) :
    step work pool worker = pool ∨ Moves work pool (step work pool worker) := by
  cases hhand : pool.hands[worker]? with
  | none => exact .inl (by simp [step, hhand])
  | some hand =>
      by_cases hbusy : hand ≠ .idle ∨ pool.queue ≠ []
      · exact .inr (moves_step hhand hbusy)
      · simp only [not_or, not_not] at hbusy
        exact .inl (by simp [step, hhand, hbusy])

theorem isFinished_iff :
    pool.isFinished = true ↔ pool.queue = [] ∧ ∀ hand ∈ pool.hands, hand = .idle := by
  simp only [isFinished, Bool.and_eq_true, List.isEmpty_iff, List.all_eq_true]
  refine and_congr_right fun _ => forall₂_congr fun hand _ => ?_
  cases hand <;> simp

/-- As long as something is left to do, some worker can do it. -/
theorem exists_moves (work : α → β) (hworkers : pool.hands ≠ [])
    (hleft : pool.isFinished = false) : ∃ worker, Moves work pool (step work pool worker) := by
  by_cases hidle : ∀ hand ∈ pool.hands, hand = .idle
  · -- all workers are idle, so there is a job, and the first worker can take it
    have hqueue : pool.queue ≠ [] := by
      intro hempty
      rw [isFinished_iff.mpr ⟨hempty, hidle⟩] at hleft
      cases hleft
    obtain ⟨hand, hands, hsplit⟩ := List.exists_cons_of_ne_nil hworkers
    have hhand : pool.hands[0]? = some hand := by
      rw [hsplit]
      rfl
    exact ⟨0, moves_step hhand (.inr hqueue)⟩
  · simp only [not_forall] at hidle
    obtain ⟨hand, hmem, hbusy⟩ := hidle
    obtain ⟨worker, hhand⟩ := List.mem_iff_getElem?.mp hmem
    exact ⟨worker, moves_step hhand (.inl hbusy)⟩

/-- Nothing is left to do exactly if no step remains. -/
theorem remaining_eq_zero_iff : pool.remaining = 0 ↔ pool.isFinished = true := by
  have hhand : ∀ hand : Hand α β, hand.remaining = 0 ↔ hand = .idle := by
    intro hand
    cases hand <;> simp [Hand.remaining]
  rw [isFinished_iff, remaining, Nat.add_eq_zero_iff, List.sum_eq_zero_iff_forall_eq_nat,
    Nat.mul_eq_zero, List.length_eq_zero_iff]
  simp [hhand]

/-! ## All steps -/

theorem runSchedule_cons (work : α → β) (worker : Nat) (schedule : List Nat) (pool : Pool α β) :
    runSchedule work (worker :: schedule) pool =
      runSchedule work schedule (step work pool worker) := rfl

/-- What is to come of the jobs does not depend on the order of the steps. -/
theorem outcomes_runSchedule (work : α → β) (schedule : List Nat) :
    ∀ pool : Pool α β,
      (outcomes work (runSchedule work schedule pool)).Perm (outcomes work pool) := by
  induction schedule with
  | nil => exact fun pool => .refl _
  | cons worker schedule ih =>
      intro pool
      have hstep : (outcomes work (step work pool worker)).Perm (outcomes work pool) := by
        obtain hsame | hmoves := step_eq_or_moves work pool worker
        · rw [hsame]
        · exact hmoves.outcomes_perm
      exact (ih (step work pool worker)).trans hstep

/-- An order of steps in which every worker finds something to do when its turn comes. -/
inductive Interleaving (work : α → β) : Pool α β → List Nat → Prop where
  | nil {pool : Pool α β} : Interleaving work pool []
  | cons {pool : Pool α β} {worker : Nat} {schedule : List Nat}
      (hstep : step work pool worker ≠ pool)
      (hrest : Interleaving work (step work pool worker) schedule) :
      Interleaving work pool (worker :: schedule)

/-- Each step of an interleaving is one less that remains, and the workers stay. -/
theorem Interleaving.remaining_eq {schedule : List Nat}
    (hschedule : Interleaving work pool schedule) :
    pool.remaining = (runSchedule work schedule pool).remaining + schedule.length ∧
      (runSchedule work schedule pool).hands.length = pool.hands.length := by
  induction hschedule with
  | nil => exact ⟨rfl, rfl⟩
  | @cons pool worker schedule hstep _ ih =>
      have hmoves := (step_eq_or_moves work pool worker).resolve_left hstep
      rw [runSchedule_cons, hmoves.remaining_eq, ih.1, ih.2, hmoves.length_hands,
        List.length_cons]
      exact ⟨by omega, rfl⟩

/-- An interleaving can be continued by any move. -/
theorem Interleaving.concat {schedule : List Nat} {worker : Nat}
    (hschedule : Interleaving work pool schedule)
    (hmoves : Moves work (runSchedule work schedule pool)
      (step work (runSchedule work schedule pool) worker)) :
    Interleaving work pool (schedule ++ [worker]) := by
  induction hschedule with
  | nil => exact .cons hmoves.ne .nil
  | cons hstep _ ih => exact .cons hstep (ih hmoves)

/-! ## From the first step to the last -/

theorem outcomes_start (work : α → β) (workers : Nat) (inputs : List α) :
    outcomes work (start workers inputs) =
      inputs.zipIdx.map fun entry => (entry.2, work entry.1) := by
  have hidle : (List.replicate workers Hand.idle).filterMap (Hand.outcome? work) = [] := by
    rw [List.filterMap_eq_nil_iff]
    intro hand hhand
    rw [List.eq_of_mem_replicate hhand]
    rfl
  simp only [outcomes, start, hidle, List.append_nil, List.map_map]
  rfl

theorem remaining_start (workers : Nat) (inputs : List α) :
    (start workers inputs : Pool α β).remaining = 3 * inputs.length := by
  simp [remaining, start, Hand.remaining]

theorem outcomes_of_isFinished (work : α → β) (hfinished : pool.isFinished = true) :
    outcomes work pool = pool.sent := by
  obtain ⟨hqueue, hidle⟩ := isFinished_iff.mp hfinished
  have hnone : pool.hands.filterMap (Hand.outcome? work) = [] := by
    rw [List.filterMap_eq_nil_iff]
    intro hand hhand
    rw [hidle hand hhand]
    rfl
  rw [outcomes, hqueue, hnone]
  rfl

/-- Among results with different numbers, each is found under its own. -/
theorem lookup_of_mem {results : List (Nat × β)} (hnodup : (results.map (·.1)).Nodup)
    {index : Nat} {output : β} (hmem : (index, output) ∈ results) :
    results.lookup index = some output := by
  obtain ⟨before, after, rfl⟩ := List.append_of_mem hmem
  refine List.lookup_eq_some_iff.mpr ⟨before, after, rfl, ?_⟩
  intro earlier hearlier
  rw [List.map_append, List.map_cons] at hnodup
  have hother := (List.nodup_append.mp hnodup).2.2 earlier.1 (List.mem_map_of_mem hearlier)
    index List.mem_cons_self
  rw [bne_iff_ne]
  exact hother.symm

/-- If the results of all jobs were sent, in whatever order, they are put back into the order of
the jobs. -/
theorem collect_eq_map {inputs : List α}
    (hsent : pool.sent.Perm (inputs.zipIdx.map fun entry => (entry.2, work entry.1))) :
    collect inputs.length pool = inputs.map work := by
  have hnumbers : (pool.sent.map (·.1)).Nodup := by
    rw [(hsent.map (·.1)).nodup_iff, List.map_map]
    change (inputs.zipIdx.map Prod.snd).Nodup
    rw [List.zipIdx_map_snd]
    exact List.nodup_range'
  calc
    collect inputs.length pool
      = (inputs.zipIdx.map Prod.snd).filterMap (pool.sent.lookup ·) := by
        rw [List.zipIdx_map_snd, ← List.range_eq_range']
        rfl
    _ = inputs.zipIdx.filterMap (some ∘ fun entry => work entry.1) := by
        rw [List.filterMap_map]
        apply List.filterMap_congr
        intro entry hentry
        apply lookup_of_mem hnumbers
        exact hsent.mem_iff.mpr (List.mem_map_of_mem hentry)
    _ = (inputs.zipIdx.map Prod.fst).map work := by
        rw [List.filterMap_eq_map, List.map_map]
        rfl
    _ = inputs.map work := by
        rw [List.zipIdx_map_fst]

/-- Once nothing is left to do, the results of all jobs are there, in the order of the jobs. -/
theorem collect_of_isFinished {workers : Nat} {inputs : List α} {schedule : List Nat}
    (hfinished : ((start workers inputs).runSchedule work schedule).isFinished = true) :
    ((start workers inputs).runSchedule work schedule).collect inputs.length =
      inputs.map work := by
  apply collect_eq_map
  rw [← outcomes_start work workers, ← outcomes_of_isFinished work hfinished]
  exact outcomes_runSchedule work schedule _

/-! ## Workers in turn -/

/-- A worker that does one whole job, while the others are idle, is idle again. -/
theorem runSchedule_job {worker workers : Nat} (hworker : worker < workers) (index : Nat)
    (input : α) (queue : List (Nat × α)) (sent : List (Nat × β)) :
    runSchedule work (List.replicate 3 worker)
        ⟨(index, input) :: queue, List.replicate workers .idle, sent⟩ =
      ⟨queue, List.replicate workers .idle, (index, work input) :: sent⟩ := by
  have hset : (List.replicate workers (Hand.idle : Hand α β)).set worker .idle =
      List.replicate workers .idle := by
    apply List.ext_getElem?
    intro slot
    by_cases hslot : worker = slot <;> simp [hslot, List.getElem?_replicate]
  simp [List.replicate, runSchedule, step, hworker, hset]

/-- Workers that take turns, one whole job each, work off the queue. -/
theorem runSchedule_turns {workers : Nat} (turns : List Nat) :
    ∀ (queue : List (Nat × α)) (sent : List (Nat × β)), turns.length = queue.length →
      (∀ worker ∈ turns, worker < workers) →
      (runSchedule work (turns.flatMap (List.replicate 3))
        ⟨queue, List.replicate workers .idle, sent⟩).isFinished = true := by
  induction turns with
  | nil =>
      intro queue sent hlength _
      rw [isFinished_iff]
      exact ⟨List.eq_nil_of_length_eq_zero hlength.symm, fun hand => List.eq_of_mem_replicate⟩
  | cons worker turns ih =>
      intro queue sent hlength hturns
      obtain ⟨hworker, hothers⟩ := List.forall_mem_cons.mp hturns
      cases queue with
      | nil => cases hlength
      | cons job queue =>
          rw [List.flatMap_cons, runSchedule, List.foldl_append]
          change (runSchedule work _ (runSchedule work _ _)).isFinished = true
          rw [runSchedule_job hworker]
          exact ih queue _ (Nat.succ.inj hlength) hothers

theorem isFinished_inTurn (work : α → β) {workers : Nat} (hworkers : 0 < workers)
    (inputs : List α) :
    ((start workers inputs).runSchedule work (inTurn workers inputs.length)).isFinished =
      true := by
  have hturns : inTurn workers inputs.length =
      ((List.range inputs.length).map (· % workers)).flatMap (List.replicate 3) := by
    rw [inTurn, List.flatMap_map]
  rw [hturns]
  apply runSchedule_turns
  · simp
  · intro worker hworker
    obtain ⟨job, -, rfl⟩ := List.mem_map.mp hworker
    exact Nat.mod_lt job hworkers

end Pool

end CanonTree
