import CanonTree.Normalize.Batch
import CanonTree.Proofs.Pool

/-!
# A batch is normalized tree by tree

The result of each tree of a batch is that of the tree alone, at the place of the tree,
on any number of workers and in whatever order they take their steps.
-/

namespace CanonTree

namespace Normalizer

/-- A job comes to what normalizing its tree comes to; its number is only for the records. -/
theorem runJob_snd (normalizer : Normalizer) (index : Nat) (tree : Node) :
    (normalizer.runJob index tree).2 = normalizer.normalize tree := by
  rw [runJob, normalize]
  match normalizer.run tree with
  | (_, .ok _) => rfl
  | (_, .error _) => rfl

theorem runInOrder_snd (normalizer : Normalizer) (trees : List Node) :
    (normalizer.runInOrder trees).2 = trees.map normalizer.normalize := by
  have hjobs : trees.zipIdx.map (fun entry => (normalizer.runJob entry.2 entry.1).2) =
      (trees.zipIdx.map Prod.fst).map normalizer.normalize := by
    rw [List.map_map]
    apply List.map_congr_left
    intro entry _
    exact normalizer.runJob_snd entry.2 entry.1
  rw [runInOrder, List.map_map]
  exact hjobs.trans (by rw [List.zipIdx_map_fst])

/-- A batch gives the result of each tree at the place of the tree: if the trees are taken in order,
if workers share them, and on any machine.  Whatever steps the workers have taken, either the last
step is done and all results are there, or one of them can take a further step; and there are only
three steps for each tree. -/
theorem normalizeBatch_eq_map (normalizer : Normalizer) (trees : List Node) :
    (∀ available, normalizer.normalizeBatch available trees = trees.map normalizer.normalize) ∧
    (normalizer.runInOrder trees).2 = trees.map normalizer.normalize ∧
    (∀ workers schedule,
      ((Pool.start workers trees).runSchedule normalizer.normalize schedule).isFinished = true →
      normalizer.runOnWorkers workers schedule trees = trees.map normalizer.normalize) ∧
    ∀ workers schedule, 0 < workers →
      Pool.Interleaving normalizer.normalize (Pool.start workers trees) schedule →
      (schedule.length < 3 * trees.length ∧
        ∃ worker, Pool.Interleaving normalizer.normalize (Pool.start workers trees)
          (schedule ++ [worker])) ∨
      (schedule.length = 3 * trees.length ∧
        ((Pool.start workers trees).runSchedule normalizer.normalize schedule).isFinished =
          true) := by
  have hworkers : ∀ workers schedule,
      ((Pool.start workers trees).runSchedule normalizer.normalize schedule).isFinished = true →
      normalizer.runOnWorkers workers schedule trees = trees.map normalizer.normalize :=
    fun workers schedule => Pool.collect_of_isFinished
  refine ⟨?_, normalizer.runInOrder_snd trees, hworkers, ?_⟩
  · intro available
    rw [normalizeBatch, runBatch]
    split
    · exact normalizer.runInOrder_snd trees
    · rename_i hseveral
      apply hworkers
      exact Pool.isFinished_inTurn normalizer.normalize (by omega) trees
  · intro workers schedule hpositive hschedule
    obtain ⟨hremaining, hhands⟩ := hschedule.remaining_eq
    rw [Pool.remaining_start] at hremaining
    cases hleft : ((Pool.start workers trees).runSchedule normalizer.normalize
        schedule).isFinished with
    | true =>
        rw [← Pool.remaining_eq_zero_iff] at hleft
        exact .inr ⟨by omega, rfl⟩
    | false =>
        have hsome : (Pool.runSchedule normalizer.normalize schedule
            (Pool.start workers trees)).remaining ≠ 0 := by
          rw [ne_eq, Pool.remaining_eq_zero_iff, hleft]
          exact Bool.false_ne_true
        have hworker : (Pool.runSchedule normalizer.normalize schedule
            (Pool.start workers trees)).hands ≠ [] := by
          apply List.ne_nil_of_length_pos
          rw [hhands]
          simpa [Pool.start] using hpositive
        obtain ⟨worker, hmoves⟩ := Pool.exists_moves normalizer.normalize hworker hleft
        exact .inl ⟨by omega, worker, hschedule.concat hmoves⟩

/-- Two trees, the first of which has a raw node of another language. -/
def twoUnits : List Node :=
  [.branch .list ⟨0, 9, 1, 1⟩
      [⟨.raw (.ecma .spread), ⟨1, 2, 1, 2⟩, none, none, [.leaf .ident ⟨2, 3, 1, 3⟩], none⟩],
    .branch .list ⟨10, 19, 1, 1⟩
      [⟨.raw (.java .declPackage), ⟨11, 12, 1, 2⟩, some "p", none, [], none⟩]]

/-- The second worker is done with the second tree before the first one is done with the first. -/
theorem normalizeBatch_eq_map_twoUnits :
    (⟨.java, {}⟩ : Normalizer).runOnWorkers 2 [0, 1, 1, 1, 0, 0] twoUnits =
        twoUnits.map (⟨.java, {}⟩ : Normalizer).normalize ∧
      Pool.Interleaving (⟨.java, {}⟩ : Normalizer).normalize (Pool.start 2 twoUnits) [1] ∧
      ∃ worker, Pool.Interleaving (⟨.java, {}⟩ : Normalizer).normalize (Pool.start 2 twoUnits)
        [1, worker] := by
  obtain ⟨-, -, hworkers, hgoesOn⟩ := normalizeBatch_eq_map ⟨.java, {}⟩ twoUnits
  have htaken : Pool.Interleaving (⟨.java, {}⟩ : Normalizer).normalize (Pool.start 2 twoUnits)
      [1] :=
    .cons (Pool.moves_step rfl (.inr (List.cons_ne_nil _ _))).ne .nil
  refine ⟨hworkers 2 _ (by decide +kernel), htaken, ?_⟩
  obtain ⟨-, hnext⟩ | ⟨hlength, -⟩ := hgoesOn 2 [1] (by decide) htaken
  · exact hnext
  · cases hlength

end Normalizer

end CanonTree
