import CanonTree.Proofs.Counters
import CanonTree.Proofs.Log.Binding
import CanonTree.Proofs.Log.Reducing

/-!
# The log is a trace of the run

The records of normalizing a tree are those of its passages, as far as the reducing walk went;
then, if the tree was reduced, those that its bound form shows, and last the summary.  So the
counters of a tree that succeeds are numbers of its records, and the records of one that
fails end where it failed.
-/

namespace CanonTree

open Node Reducing

namespace Normalizer

variable {normalizer : Normalizer} {root : Node} {tree : CanonicalTree} {error : NormalizeError}

def recordsAlong (normalizer : Normalizer) (passages : List Passage) : List Record :=
  passages.filterMap (·.record? normalizer.language normalizer.config.maxDepth)

/-- The tree was passed through as a whole, bound if it was to be, and summed up. -/
structure Completes (normalizer : Normalizer) (root : Node) (tree : CanonicalTree) : Prop where
  clear : ∀ passage ∈ root.passages,
    passage.Clear normalizer.language normalizer.config.maxDepth
  records : (normalizer.records root).toList =
    normalizer.recordsAlong root.passages ++
      (if normalizer.config.bindScopes then tree.root.bindingTrace else []) ++
      [.normalized normalizer.language tree.stats]
  /-- The counters are numbers of records. -/
  discarded : Record.numberOf .dropping (normalizer.records root) = tree.stats.discarded
  reduced : Record.numberOf .reducing (normalizer.records root) = tree.stats.reduced
  bindings : Record.numberOf .binding (normalizer.records root) = tree.stats.bindings
  scopes : Record.numberOf .opening (normalizer.records root) = tree.stats.scopes

/-- The tree was passed through up to its first fault, or it was dropped as a whole. -/
inductive Halts (normalizer : Normalizer) (root : Node) : NormalizeError → Prop where
  | fault {passed rest : List Passage} {fault : Passage} {error : NormalizeError}
      (hsplit : root.passages = passed ++ fault :: rest)
      (hclear : ∀ passage ∈ passed,
        passage.Clear normalizer.language normalizer.config.maxDepth)
      (hfault : fault.FailsWith normalizer.language normalizer.config.maxDepth error)
      (hrecords : (normalizer.records root).toList =
        normalizer.recordsAlong (passed ++ [fault])) :
      Halts normalizer root error
  | dropped (hdiscarded : root.tag.isDiscarded = true)
      (hrecords : (normalizer.records root).toList = [.dropping root.span]) :
      Halts normalizer root (.discardedRoot root.span)

/-- The log of a normalizer tells what it did, and nothing else. -/
structure Traces (normalizer : Normalizer) (root : Node) : Prop where
  completed : ∀ tree, normalizer.normalize root = .ok tree → normalizer.Completes root tree
  halted : ∀ error, normalizer.normalize root = .error error → normalizer.Halts root error
  /-- The last record of a tree with a malformed node is that of the node. -/
  malformed : ∀ tag span defect,
    normalizer.normalize root = .error (.malformed tag span defect) →
    ∃ passed ancestors node rest, root.passages = passed ++ .leaving ancestors node :: rest ∧
      node.tag = .raw tag ∧ node.span = span ∧
      (normalizer.records root).toList =
        normalizer.recordsAlong passed ++ [.reducing tag span]
  /-- A raw node of another language has no record, neither on entering nor on leaving it. -/
  unmapped : ∀ tag language span,
    normalizer.normalize root = .error (.unmapped tag language span) →
    ∃ passed ancestors node rest, root.passages = passed ++ .leaving ancestors node :: rest ∧
      node.tag = .raw tag ∧ node.span = span ∧
      (normalizer.records root).toList = normalizer.recordsAlong passed ∧
      normalizer.recordsAlong [.entering ancestors node, .leaving ancestors node] = [] ∧
      ∀ other, Record.reducing tag other ∉ (normalizer.records root).toList

/-! ## Both phases -/

theorem log_bindNames (normalizer : Normalizer) (reduced : Node) :
    (normalizer.bindNames reduced).1.log.toList =
      if normalizer.config.bindScopes then (normalizer.bindNames reduced).2.bindingTrace
      else [] := by
  rw [bindNames]
  split
  · exact BindingState.log_run reduced
  · rfl

theorem recorded_bindNames (normalizer : Normalizer) (reduced : Node) :
    (normalizer.bindNames reduced).1.Recorded := by
  rw [bindNames]
  split
  · exact BindingState.recorded_run reduced
  · exact BindingState.recorded_empty

theorem completes_of_normalize (hok : normalizer.normalize root = .ok tree) :
    normalizer.Completes root tree := by
  obtain ⟨state, reduced, hrun, rfl⟩ := normalize_ok_iff.mp hok
  have hpassed := passed_run hrun
  have htallied := tallied_run hrun
  have hrecorded := recorded_bindNames normalizer reduced
  have hlog := log_bindNames normalizer reduced
  generalize hbound : normalizer.bindNames reduced = bound at hrecorded hlog ⊢
  have hrecords : normalizer.records root = (state.log ++ bound.1.log).push
      (.normalized normalizer.language ⟨state.visited, state.reduced, state.discarded,
        bound.1.arena.size, bound.1.bindings⟩) := by
    rw [records, run, hrun, ← hbound]
    exact Array.append_singleton
  have hnumber : ∀ kind, kind ≠ .summary → Record.numberOf kind (normalizer.records root) =
      Record.numberOf kind state.log + Record.numberOf kind bound.1.log := by
    intro kind hkind
    simp [hrecords, Record.kind, hkind.symm]
  constructor
  case clear => exact hpassed.clear
  case records =>
    rw [hrecords, Array.toList_push, Array.toList_append, hlog, hpassed.log]
    rfl
  case discarded =>
    rw [hnumber _ (by decide), hpassed.numberOf_dropping,
      hrecorded.numberOf_other (by decide) (by decide)]
    exact (htallied.discarded.trans (Nat.zero_add _)).symm
  case reduced =>
    rw [hnumber _ (by decide), hpassed.numberOf_reducing,
      hrecorded.numberOf_other (by decide) (by decide)]
    exact (htallied.reduced.trans (Nat.zero_add _)).symm
  case bindings =>
    rw [hnumber _ (by decide), hpassed.numberOf_other (by decide) (by decide),
      hrecorded.bindings, Nat.zero_add]
  case scopes =>
    rw [hnumber _ (by decide), hpassed.numberOf_other (by decide) (by decide),
      hrecorded.scopes, Nat.zero_add]

theorem exists_run_of_error (hfailed : normalizer.normalize root = .error error) :
    ∃ state,
      Reducing.run normalizer.language normalizer.config.maxDepth root = (state, .error error) ∧
      normalizer.records root = state.log := by
  rw [normalize, run] at hfailed
  rw [records, run]
  generalize Reducing.run normalizer.language normalizer.config.maxDepth root = outcome at hfailed ⊢
  obtain ⟨state, fault | reduced⟩ := outcome
  · cases hfailed
    exact ⟨state, rfl, rfl⟩
  · cases hfailed

theorem halts_of_normalize (hfailed : normalizer.normalize root = .error error) :
    normalizer.Halts root error := by
  obtain ⟨state, hrun, hrecords⟩ := exists_run_of_error hfailed
  obtain ⟨passed, fault, rest, hsplit, hclear, hfault, hlog⟩ | ⟨rfl, hdiscarded, hpassed⟩ :=
    stopped_run hrun
  · exact .fault hsplit hclear hfault (by rw [hrecords, hlog]; rfl)
  · apply Halts.dropped hdiscarded
    have hpassages : root.passages = [.entering [] root] := by
      rw [passages, passagesBelow_eq, if_pos hdiscarded]
    have hdepth : 0 < normalizer.config.maxDepth :=
      hpassed.clear (.entering [] root) (by simp [hpassages])
    rw [hrecords, hpassed.log, hpassages]
    simp [Passage.record?, hdepth, hdiscarded]

/-! ## The trace -/

/-- A run that did not stop for want of a tree stopped at a fault. -/
theorem stopped_of_normalize (hfailed : normalizer.normalize root = .error error)
    (hfault : error ≠ .discardedRoot root.span) :
    ∃ state, normalizer.records root = state.log ∧
      Stopped normalizer.language normalizer.config.maxDepth {} state root.passages error := by
  obtain ⟨state, hrun, hrecords⟩ := exists_run_of_error hfailed
  obtain hstopped | ⟨hdropped, -⟩ := stopped_run hrun
  · exact ⟨state, hrecords, hstopped⟩
  · exact absurd hdropped hfault

/-- The records of normalizing a tree, whatever comes of it. -/
theorem normalize_traces (normalizer : Normalizer) (root : Node) : normalizer.Traces root := by
  constructor
  case completed => exact fun tree => completes_of_normalize
  case halted => exact fun error => halts_of_normalize
  case malformed =>
    intro tag span defect hfailed
    obtain ⟨state, hrecords, hstopped⟩ := stopped_of_normalize hfailed nofun
    rw [hrecords]
    exact hstopped.malformed
  case unmapped =>
    intro tag language span hfailed
    obtain ⟨state, hrecords, hstopped⟩ := stopped_of_normalize hfailed nofun
    obtain ⟨howner, passed, ancestors, node, rest, hsplit, htag, hspan, hlog⟩ := hstopped.unmapped
    have hnone :
        normalizer.recordsAlong [.entering ancestors node, .leaving ancestors node] = [] := by
      simp [recordsAlong, Passage.record?, htag, howner, Tag.flags_raw]
    rw [hrecords]
    refine ⟨passed, ancestors, node, rest, hsplit, htag, hspan, hlog, hnone, ?_⟩
    intro other hother
    rw [hlog, List.mem_append, List.mem_filterMap] at hother
    obtain hbefore | ⟨passage, -, hrecord⟩ := hother
    · cases hbefore
    obtain ⟨span, hdropping⟩ | ⟨tag, span, howned, hreducing⟩ := Passage.record?_cases hrecord
    · cases hdropping
    · cases hreducing
      exact howner howned

/-- A tree that succeeds, a malformed one, and the same one in another language. -/
theorem normalize_traces_faultyUnit :
    (∃ tree, (⟨.java, {}⟩ : Normalizer).normalize mixedUnit = .ok tree ∧
      Completes ⟨.java, {}⟩ mixedUnit tree) ∧
    (∃ passed, ((⟨.java, {}⟩ : Normalizer).records faultyUnit).toList =
      (⟨.java, {}⟩ : Normalizer).recordsAlong passed ++
        [.reducing (.java .typeCast) ⟨12, 20, 2, 3⟩]) ∧
    ∀ span, Record.reducing (.java .typeCast) span ∉
      ((⟨.ecma, {}⟩ : Normalizer).records faultyUnit).toList := by
  have hmalformed : (⟨.java, {}⟩ : Normalizer).normalize faultyUnit =
      .error (.malformed (.java .typeCast) ⟨12, 20, 2, 3⟩ (.tooFewChildren 2 0)) := by
    decide +kernel
  have hunmapped : (⟨.ecma, {}⟩ : Normalizer).normalize faultyUnit =
      .error (.unmapped (.java .typeCast) .ecma ⟨12, 20, 2, 3⟩) := by
    decide +kernel
  obtain ⟨tree, hok⟩ := exists_normalize_mixedUnit
  obtain ⟨passed, -, -, -, -, -, -, hlast⟩ := (normalize_traces _ _).malformed _ _ _ hmalformed
  obtain ⟨-, -, -, -, -, -, -, -, -, hunrecorded⟩ :=
    (normalize_traces _ _).unmapped _ _ _ hunmapped
  exact ⟨⟨tree, hok, (normalize_traces _ _).completed tree hok⟩, ⟨passed, hlast⟩, hunrecorded⟩

end Normalizer

end CanonTree
