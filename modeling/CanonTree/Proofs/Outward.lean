import CanonTree.Proofs.History
import Mathlib.Data.List.Nodup
import Mathlib.Data.List.Perm.Subperm
import Mathlib.Logic.Relation

/-!
# Walks outwards

From a scope a walk goes outwards along the parents.  Nothing keeps a scope from being its
own parent, or the parent of one further out: opening takes any identifier, and the scope
that it names may be the new one or one that is opened later.  A walk ends exactly if it
does not come to such a circle.  Then it meets no scope twice, and every search for a name
ends as well.

No circle can arise if a parent is opened before its children or not at all.  `Grounded`
says this of the calls on an arena.
-/

namespace CanonTree

namespace Arena

open Relation

variable {arena : Arena} {id parent inner outer : ScopeId} {path : List ScopeId}

/-! ## Parents -/

/-- The first identifier names a scope that was opened inside the second. -/
def IsInside (arena : Arena) (inner outer : ScopeId) : Prop :=
  arena.parent? inner = some outer

/-- Only scopes have a parent, though the parent may be none. -/
theorem IsInside.contains (hinside : arena.IsInside inner outer) :
    arena.contains inner = true := by
  rw [IsInside, parent?, Option.bind_eq_some_iff] at hinside
  obtain ⟨scope, hscope, -⟩ := hinside
  rw [Arena.contains, hscope]
  rfl

/-- From the identifier outwards there are exactly these, up to one without a parent, which may
name no scope. -/
inductive Trail (arena : Arena) : ScopeId → List ScopeId → Prop where
  | last {id : ScopeId} (hparent : arena.parent? id = none) : Trail arena id [id]
  | step {id parent : ScopeId} {outer : List ScopeId} (hinside : arena.IsInside id parent)
      (houter : Trail arena parent outer) : Trail arena id (id :: outer)

namespace Trail

theorem unique {other : List ScopeId} (htrail : Trail arena id path) :
    Trail arena id other → path = other := by
  intro hother
  induction htrail generalizing other with
  | last hparent =>
      cases hother with
      | last _ => rfl
      | step hinside _ => cases hparent.symm.trans hinside
  | step hinside _ ih =>
      cases hother with
      | last hparent => cases hparent.symm.trans hinside
      | step hinside' houter =>
          obtain rfl := Option.some.inj (hinside.symm.trans hinside')
          rw [ih houter]

/-- One step outwards leaves the rest of the trail. -/
theorem tail (htrail : Trail arena id path) (hinside : arena.IsInside id parent) :
    ∃ outer, path = id :: outer ∧ Trail arena parent outer := by
  cases htrail with
  | last hparent => cases hparent.symm.trans hinside
  | step hinside' houter =>
      obtain rfl := Option.some.inj (hinside.symm.trans hinside')
      exact ⟨_, rfl, houter⟩

/-- Every scope further out has a shorter trail. -/
theorem shorter (htrail : Trail arena id path) (houter : TransGen arena.IsInside id outer) :
    ∃ rest, Trail arena outer rest ∧ rest.length < path.length := by
  induction houter with
  | single hinside =>
      obtain ⟨rest, rfl, hrest⟩ := htrail.tail hinside
      exact ⟨rest, hrest, Nat.lt_succ_self _⟩
  | tail _ hinside ih =>
      obtain ⟨longer, hlonger, hlength⟩ := ih
      obtain ⟨rest, rfl, hrest⟩ := hlonger.tail hinside
      exact ⟨rest, hrest, Nat.lt_of_succ_lt hlength⟩

/-- A scope with a trail is not outside itself. -/
theorem not_circular (htrail : Trail arena id path) : ¬TransGen arena.IsInside id id := by
  intro hcircle
  obtain ⟨rest, hrest, hlength⟩ := htrail.shorter hcircle
  rw [htrail.unique hrest] at hlength
  exact Nat.lt_irrefl _ hlength

theorem outward_eq (htrail : Trail arena id path) :
    ∀ limit, arena.outward limit id = path.take limit := by
  induction htrail with
  | last hparent =>
      intro limit
      cases limit with
      | zero => rfl
      | succ limit => simp [outward, hparent]
  | step hinside _ ih =>
      intro limit
      rw [IsInside] at hinside
      cases limit with
      | zero => rfl
      | succ limit => simp [outward, hinside, ih]

end Trail

/-! ## Walks -/

/-- A walk that stops before its limit has come to the end of a trail. -/
theorem trail_of_length_lt (limit : Nat) :
    ∀ {id}, (arena.outward limit id).length < limit →
      Trail arena id (arena.outward limit id) := by
  induction limit with
  | zero =>
      intro id hlength
      exact absurd hlength (Nat.not_lt_zero _)
  | succ limit ih =>
      intro id hlength
      rw [outward] at hlength ⊢
      split at hlength
      · rename_i hparent
        exact .last hparent
      · rename_i hparent
        exact .step hparent (ih (Nat.lt_of_succ_lt_succ hlength))

/-- What a walk meets is the identifier itself or further out. -/
theorem reaches_of_mem_outward (limit : Nat) :
    ∀ {id}, outer ∈ arena.outward limit id → ReflTransGen arena.IsInside id outer := by
  induction limit with
  | zero =>
      intro id houter
      cases houter
  | succ limit ih =>
      intro id houter
      rw [outward] at houter
      split at houter
      · rw [List.mem_singleton.mp houter]
      · rename_i parent hparent
        obtain rfl | houter := List.mem_cons.mp houter
        · exact .refl
        · exact .head hparent (ih houter)

/-- What a walk meets later is further out. -/
theorem pairwise_outward (limit : Nat) :
    ∀ id, (arena.outward limit id).Pairwise (TransGen arena.IsInside) := by
  induction limit with
  | zero => exact fun _ => .nil
  | succ limit ih =>
      intro id
      rw [outward]
      split
      · exact List.pairwise_singleton _ _
      · rename_i parent hparent
        refine .cons ?_ (ih parent)
        exact fun outer houter => .head' hparent (reaches_of_mem_outward limit houter)

/-- All that a walk meets before its last step are scopes. -/
theorem contains_of_mem_dropLast_outward (limit : Nat) :
    ∀ {id}, outer ∈ (arena.outward limit id).dropLast → arena.contains outer = true := by
  induction limit with
  | zero =>
      intro id houter
      cases houter
  | succ limit ih =>
      intro id houter
      rw [outward] at houter
      split at houter
      · cases houter
      · rename_i parent hparent
        cases hrest : arena.outward limit parent with
        | nil =>
            rw [hrest] at houter
            cases houter
        | cons first rest =>
            rw [hrest, List.dropLast_cons_cons, List.mem_cons, ← hrest] at houter
            obtain rfl | houter := houter
            · exact IsInside.contains hparent
            · exact ih houter

/-- A walk without repetitions is over after one step more than there are scopes. -/
theorem length_outward_le {limit : Nat} (hnodup : (arena.outward limit id).Nodup) :
    (arena.outward limit id).length ≤ arena.size + 1 := by
  have hscopes : (arena.outward limit id).dropLast ⊆
      (List.range arena.size).map ScopeId.ofNumber := by
    intro outer houter
    obtain ⟨number, hnumber, rfl⟩ :=
      contains_iff.mp (contains_of_mem_dropLast_outward limit houter)
    exact List.mem_map_of_mem (List.mem_range.mpr hnumber)
  have hlength := ((List.dropLast_sublist _).nodup hnodup |>.subperm hscopes).length_le
  rw [List.length_dropLast, List.length_map, List.length_range] at hlength
  omega

/-! ## Walks that end -/

/-- The walk outwards from an identifier yields finitely many, none of them twice, and every search
along it comes to an answer. -/
structure Ends (arena : Arena) (id : ScopeId) : Prop where
  walk : ∃ path : List ScopeId, path.Nodup ∧ ∀ limit, arena.ancestors limit id = path.take limit
  search : ∀ name, arena.resolve id name ≠ .endless

/-- The search along a trail ends with the trail. -/
theorem Trail.resolveWithin_ne_endless (htrail : Trail arena id path) (name : String) :
    ∀ limit, path.length ≤ limit → arena.resolveWithin name limit id ≠ .endless := by
  induction htrail with
  | @last id hparent =>
      intro limit hlimit
      obtain ⟨limit, rfl⟩ := Nat.exists_eq_add_of_le' hlimit
      rw [List.length_singleton, resolveWithin]
      cases hscope : arena.get? id with
      | none => simp
      | some scope =>
          have hnone : scope.parent = none := by
            simpa [parent?, hscope] using hparent
          cases hbinds : scope.binds name <;> simp [hbinds, hnone]
  | @step id parent outer hinside _ ih =>
      intro limit hlimit
      obtain ⟨limit, rfl⟩ := Nat.exists_eq_add_of_le' (Nat.le_trans (Nat.le_add_left 1 _) hlimit)
      rw [resolveWithin]
      cases hscope : arena.get? id with
      | none => simp
      | some scope =>
          have hsome : scope.parent = some parent := by
            simpa [IsInside, parent?, hscope] using hinside
          have houter := ih limit (Nat.le_of_succ_le_succ hlimit)
          cases hbinds : scope.binds name <;> simp [hbinds, hsome, houter]

/-- The scopes outwards from an identifier go round in a circle at some point. -/
def Circles (arena : Arena) (id : ScopeId) : Prop :=
  ∃ outer, ReflTransGen arena.IsInside id outer ∧ TransGen arena.IsInside outer outer

/-- Without a circle, there is a trail. -/
theorem exists_trail (hfree : ¬arena.Circles id) :
    ∃ path, Trail arena id path ∧ path.Nodup ∧ path.length ≤ arena.size + 1 := by
  have hnodup : (arena.outward (arena.size + 2) id).Nodup := by
    refine (pairwise_outward (arena.size + 2) id).imp_of_mem ?_
    rintro inner outer hinner - hbetween rfl
    exact hfree ⟨inner, reaches_of_mem_outward _ hinner, hbetween⟩
  have hlength := length_outward_le hnodup
  exact ⟨_, trail_of_length_lt _ (Nat.lt_succ_of_le hlength), hnodup, hlength⟩

/-- An identifier that names no scope leads nowhere. -/
theorem not_circles_of_not_contains (hid : ¬arena.contains id = true) : ¬arena.Circles id := by
  rintro ⟨outer, hreaches, hcircle⟩
  have hnowhere : ∀ other, ¬arena.IsInside id other := fun _ hinside => hid hinside.contains
  obtain rfl | ⟨other, hinside, -⟩ := ReflTransGen.cases_head hreaches
  · obtain ⟨other, hinside, -⟩ := TransGen.head'_iff.mp hcircle
    exact hnowhere other hinside
  · exact hnowhere other hinside

/-- A walk ends exactly if it does not come to a circle. -/
theorem ends_iff : arena.Ends id ↔ ¬arena.Circles id := by
  constructor
  · rintro ⟨⟨path, -, hpath⟩, -⟩
    by_cases hid : arena.contains id = true
    · have hwalk := hpath (path.length + 1)
      rw [ancestors, if_pos hid, List.take_of_length_le (Nat.le_succ _)] at hwalk
      have htrail : Trail arena id (arena.outward (path.length + 1) id) := by
        apply trail_of_length_lt
        rw [hwalk]
        exact Nat.lt_succ_self _
      rintro ⟨outer, hreaches, hcircle⟩
      obtain rfl | houter := reflTransGen_iff_eq_or_transGen.mp hreaches
      · exact htrail.not_circular hcircle
      · obtain ⟨rest, hrest, -⟩ := htrail.shorter houter
        exact hrest.not_circular hcircle
    · exact not_circles_of_not_contains hid
  · intro hfree
    obtain ⟨path, htrail, hnodup, hlength⟩ := exists_trail hfree
    refine ⟨?_, fun name => htrail.resolveWithin_ne_endless name _ hlength⟩
    by_cases hid : arena.contains id = true
    · exact ⟨path, hnodup, fun limit => by rw [ancestors, if_pos hid, htrail.outward_eq]⟩
    · exact ⟨[], List.nodup_nil, fun limit => by rw [ancestors, if_neg hid, List.take_nil]⟩

/-! ## Parents that are opened first -/

/-- Of the scopes that are opened, each is opened before those that it is the parent of.  Parents
that are never opened are no matter. -/
def Grounded (calls : List Call) : Prop :=
  ∀ child < (openings calls).length, ∀ parent < (openings calls).length,
    (openings calls)[child]?.bind (·.parent) = some (.ofNumber parent) → parent < child

instance (calls : List Call) : Decidable (Grounded calls) :=
  inferInstanceAs (Decidable (∀ child < (openings calls).length,
    ∀ parent < (openings calls).length,
      (openings calls)[child]?.bind (·.parent) = some (.ofNumber parent) → parent < child))

variable {calls : List Call}

theorem parent?_replay (calls : List Call) (number : Nat) :
    (replay calls).parent? (.ofNumber number) = (openings calls)[number]?.bind (·.parent) := by
  rw [parent?_ofNumber, getElem?_openings (recounts_replay calls)]
  cases (replay calls).scopes[number]? <;> rfl

/-- Going outwards from scope to scope, the numbers decrease. -/
theorem number_lt_of_isInside (hgrounded : Grounded calls) {child parent : Nat}
    (hparent : parent < (openings calls).length)
    (hinside : (replay calls).IsInside (.ofNumber child) (.ofNumber parent)) :
    parent < child := by
  obtain ⟨number, hnumber, heq⟩ := contains_iff.mp hinside.contains
  rw [ScopeId.ofNumber_inj] at heq
  rw [(recounts_replay calls).size, ← heq] at hnumber
  rw [IsInside, parent?_replay] at hinside
  exact hgrounded child hnumber parent hparent hinside

theorem number_lt_of_transGen (hgrounded : Grounded calls) {child : Nat} :
    TransGen (replay calls).IsInside (.ofNumber child) outer →
      ∀ number < (openings calls).length, outer = .ofNumber number → number < child := by
  intro houter
  induction houter with
  | single hinside =>
      rintro number hnumber rfl
      exact number_lt_of_isInside hgrounded hnumber hinside
  | tail _ hinside ih =>
      rintro number hnumber rfl
      obtain ⟨middle, hmiddle, rfl⟩ := contains_iff.mp hinside.contains
      rw [(recounts_replay calls).size] at hmiddle
      exact Nat.lt_trans (number_lt_of_isInside hgrounded hnumber hinside) (ih middle hmiddle rfl)

theorem not_circles_of_grounded (hgrounded : Grounded calls) (id : ScopeId) :
    ¬(replay calls).Circles id := by
  rintro ⟨outer, -, hcircle⟩
  obtain ⟨other, hinside, -⟩ := TransGen.head'_iff.mp hcircle
  obtain ⟨number, hnumber, rfl⟩ := contains_iff.mp hinside.contains
  rw [(recounts_replay calls).size] at hnumber
  exact Nat.lt_irrefl _ (number_lt_of_transGen hgrounded hcircle number hnumber rfl)

/-- Whatever the calls on an arena, the walk outwards from an identifier ends exactly if it does not
come to a circle; and there is none if no scope is passed as a parent before it is opened. -/
theorem replay_walks (calls : List Call) :
    (∀ id, (replay calls).Ends id ↔ ¬(replay calls).Circles id) ∧
      (Grounded calls → ∀ id, (replay calls).Ends id) :=
  ⟨fun _ => ends_iff, fun hgrounded id => ends_iff.mpr (not_circles_of_grounded hgrounded id)⟩

/-- Calls with parents that name no scope: the null identifier, one that is too high, and one that
no arena gives out. -/
def strayCalls : List Call :=
  [.openScope (some .null) (.shared .block) .dummy,
    .openScope (some (.ofNumber 0)) (.shared .block) .dummy,
    .openScope (some (.ofNumber 7)) (.shared .block) .dummy,
    .openScope (some (.slot 1 3)) (.shared .block) .dummy,
    .bind (.ofNumber 1) ⟨"x", .shared .decl, .dummy, 0⟩]

theorem replay_walks_strayCalls :
    Grounded strayCalls ∧ (replay strayCalls).Ends (.ofNumber 1) ∧
      (replay strayCalls).Ends (.ofNumber 2) ∧ (replay strayCalls).Ends .null :=
  have hgrounded : Grounded strayCalls := by decide
  have hends := (replay_walks strayCalls).2 hgrounded
  ⟨hgrounded, hends _, hends _, hends _⟩

def selfCalls : List Call :=
  [.openScope (some (.ofNumber 0)) (.shared .block) .dummy]

theorem outward_selfCalls (limit : Nat) :
    (replay selfCalls).outward limit (.ofNumber 0) = List.replicate limit (.ofNumber 0) := by
  have hparent : (replay selfCalls).parent? (.ofNumber 0) = some (.ofNumber 0) := by decide
  induction limit with
  | zero => rfl
  | succ limit ih => simp only [outward, hparent, ih, List.replicate_succ]

/-- The walk from a scope inside itself yields it over and over, and the search for a name that it
does not bind has no end. -/
theorem selfCalls_endless :
    (∀ limit, (replay selfCalls).ancestors limit (.ofNumber 0) =
      List.replicate limit (.ofNumber 0)) ∧
    (replay selfCalls).resolve (.ofNumber 0) "x" = .endless ∧
    ¬(replay selfCalls).Ends (.ofNumber 0) := by
  have hcontains : (replay selfCalls).contains (.ofNumber 0) = true := by decide
  have hsearch : (replay selfCalls).resolve (.ofNumber 0) "x" = .endless := by decide
  refine ⟨?_, hsearch, fun hends => hends.search "x" hsearch⟩
  intro limit
  rw [ancestors, if_pos hcontains, outward_selfCalls]

end Arena

end CanonTree
