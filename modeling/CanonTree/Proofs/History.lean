import CanonTree.Proofs.Arena
import Mathlib.Data.List.Induction

/-!
# An arena is what was done to it

An arena is changed by two calls, which open a scope and register a name, and either
takes any identifier: of a scope that is there, of one that is not there yet, or the null
identifier.  This module says what an arena holds after any list of calls, by reading the
list alone: the openings in order, the openings that name a scope as their parent, and the
names registered in a scope after it was opened.  The step lemma is `Recounts.perform`;
that an arena recounts all calls follows by induction on the list, from its end.
-/

namespace CanonTree

namespace Arena

/-! ## Calls -/

inductive Call where
  | openScope (parent : Option ScopeId) (tag : Tag) (span : Span)
  | bind (id : ScopeId) (binding : Binding)
deriving DecidableEq

def perform (arena : Arena) : Call → Arena
  | .openScope parent tag span => arena.openScope parent tag span
  | .bind id binding => arena.bind id binding

/-- The arena after the given calls on a fresh one. -/
def replay (calls : List Call) : Arena :=
  calls.foldl perform empty

/-- The identifiers that the calls on an arena give out, one for each scope that they open. -/
def issued (arena : Arena) : List Call → List ScopeId
  | [] => []
  | .openScope parent tag span :: calls =>
      arena.nextId :: issued (arena.openScope parent tag span) calls
  | .bind id binding :: calls => issued (arena.bind id binding) calls

theorem replay_concat (calls : List Call) (call : Call) :
    replay (calls ++ [call]) = (replay calls).perform call := by
  simp [replay]

/-! ## What the calls say -/

/-- What a scope is opened with. -/
structure Opening where
  parent : Option ScopeId
  tag : Tag
  span : Span
deriving DecidableEq

def Call.opening? : Call → Option Opening
  | .openScope parent tag span => some ⟨parent, tag, span⟩
  | .bind _ _ => none

def openings (calls : List Call) : List Opening :=
  calls.filterMap Call.opening?

@[simp]
theorem openings_cons_openScope (parent : Option ScopeId) (tag : Tag) (span : Span)
    (calls : List Call) :
    openings (.openScope parent tag span :: calls) = ⟨parent, tag, span⟩ :: openings calls := rfl

@[simp]
theorem openings_cons_bind (id : ScopeId) (binding : Binding) (calls : List Call) :
    openings (.bind id binding :: calls) = openings calls := rfl

/-- The first scope that is opened without a parent. -/
def outermost (calls : List Call) : Option ScopeId :=
  ((openings calls).findIdx? (·.parent.isNone)).map .ofNumber

/-- The scopes, from the given one on, that are opened with it as their parent. -/
def openedInside (calls : List Call) (number : Nat) : List ScopeId :=
  ((List.range (openings calls).length).filter fun child =>
    decide (number ≤ child ∧
      (openings calls)[child]?.bind (·.parent) = some (.ofNumber number))).map .ofNumber

/-- The calls after the one that opens the scope with the given number. -/
def since : Nat → List Call → List Call
  | _, [] => []
  | 0, .openScope _ _ _ :: calls => calls
  | number + 1, .openScope _ _ _ :: calls => since number calls
  | number, .bind _ _ :: calls => since number calls

/-- The binding that a call passes to the given scope. -/
def Call.bindingFor? (id : ScopeId) : Call → Option Binding
  | .openScope _ _ _ => none
  | .bind other binding => if other = id then some binding else none

/-- The bindings that are passed to a scope after it was opened. -/
def registered (calls : List Call) (number : Nat) : List Binding :=
  (since number calls).filterMap (Call.bindingFor? (.ofNumber number))

/-- How many bindings are passed to a scope that is open by then, if `opened` scopes are open at
the start. -/
def effective (opened : Nat) : List Call → Nat
  | [] => 0
  | .openScope _ _ _ :: calls => effective (opened + 1) calls
  | .bind id _ :: calls =>
      (if id.number?.any (· < opened) then 1 else 0) + effective opened calls

section Concat

variable (calls : List Call) (parent : Option ScopeId) (tag : Tag) (span : Span) (id : ScopeId)
  (binding : Binding) (number : Nat)

theorem openings_concat_openScope :
    openings (calls ++ [.openScope parent tag span]) = openings calls ++ [⟨parent, tag, span⟩] := by
  simp [openings, Call.opening?]

theorem openings_concat_bind : openings (calls ++ [.bind id binding]) = openings calls := by
  simp [openings, Call.opening?]

theorem outermost_concat_openScope :
    outermost (calls ++ [.openScope parent tag span]) =
      (outermost calls).or
        (if parent.isNone then some (.ofNumber (openings calls).length) else none) := by
  rw [outermost, openings_concat_openScope, List.findIdx?_append, outermost]
  cases (openings calls).findIdx? (·.parent.isNone) with
  | some first => simp
  | none => cases parent <;> simp

theorem since_concat (call : Call) :
    since number (calls ++ [call]) =
      since number calls ++ if number < (openings calls).length then [call] else [] := by
  fun_induction since number calls with
  | case1 number => cases call <;> cases number <;> simp [since, openings]
  | case2 parent tag span calls => simp [since]
  | case3 number parent tag span calls ih =>
      rw [List.cons_append, since, ih, openings_cons_openScope, List.length_cons]
      simp
  | case4 number id binding calls ih =>
      rw [List.cons_append, since, ih, openings_cons_bind]

theorem registered_concat_openScope :
    registered (calls ++ [.openScope parent tag span]) number = registered calls number := by
  rw [registered, since_concat, List.filterMap_append, registered]
  split <;> simp [Call.bindingFor?]

theorem registered_concat_bind :
    registered (calls ++ [.bind id binding]) number =
      registered calls number ++
        if number < (openings calls).length ∧ id = .ofNumber number then [binding] else [] := by
  rw [registered, since_concat, List.filterMap_append, registered]
  by_cases hnumber : number < (openings calls).length <;> by_cases hid : id = .ofNumber number <;>
    simp [Call.bindingFor?, hnumber, hid]

/-- Nothing is registered in a scope that was not opened. -/
theorem registered_eq_nil {calls : List Call} {number : Nat}
    (hnumber : (openings calls).length ≤ number) : registered calls number = [] := by
  have hsince : since number calls = [] := by
    fun_induction since number calls with
    | case1 => rfl
    | case2 => simp at hnumber
    | case3 number parent tag span calls ih =>
        apply ih
        simpa using hnumber
    | case4 number id binding calls ih =>
        apply ih
        exact hnumber
  rw [registered, hsince, List.filterMap_nil]

theorem effective_concat (call : Call) (opened : Nat) :
    effective opened (calls ++ [call]) =
      effective opened calls + effective (opened + (openings calls).length) [call] := by
  fun_induction effective opened calls with
  | case1 opened => simp [openings]
  | case2 opened parent tag span calls ih =>
      rw [List.cons_append, effective, ih, openings_cons_openScope, List.length_cons,
        Nat.add_right_comm, Nat.add_assoc opened]
  | case3 opened id binding calls ih =>
      rw [List.cons_append, effective, ih, openings_cons_bind, Nat.add_assoc]

end Concat

/-! ## One call -/

def Opening.ofScope (scope : Scope) : Opening :=
  ⟨scope.parent, scope.tag, scope.span⟩

theorem map_opening_openScope (arena : Arena) (parent : Option ScopeId) (tag : Tag)
    (span : Span) :
    (arena.openScope parent tag span).scopes.toList.map Opening.ofScope =
      arena.scopes.toList.map Opening.ofScope ++ [⟨parent, tag, span⟩] := by
  cases parent with
  | none => simp [openScope, Opening.ofScope]
  | some parent =>
      rw [openScope, map_modify]
      · simp [Opening.ofScope]
      · intro scope
        rfl

@[simp]
theorem root_modify (arena : Arena) (id : ScopeId) (change : Scope → Scope) :
    (arena.modify id change).root = arena.root := by
  rw [modify]
  split <;> rfl

theorem root_openScope (arena : Arena) (parent : Option ScopeId) (tag : Tag) (span : Span) :
    (arena.openScope parent tag span).root =
      arena.root.or (if parent.isNone then some arena.nextId else none) := by
  cases parent with
  | none => rfl
  | some parent => simp [openScope]

/-- A binding that is passed to a scope that is not there changes nothing. -/
theorem bind_of_not_contains {arena : Arena} {id : ScopeId} (hid : ¬arena.contains id = true)
    (binding : Binding) : arena.bind id binding = arena := by
  rw [bind, modify]
  split
  · rename_i number hnumber
    rw [ScopeId.number?_eq_some_iff] at hnumber
    have hsize : ¬number < arena.scopes.size := by
      intro hsize
      exact hid (contains_iff.mpr ⟨number, hsize, hnumber⟩)
    simp [Array.modify, Array.modifyM, hsize]
  · rfl

/-- The arena holds what the calls say, and nothing else. -/
structure Recounts (arena : Arena) (calls : List Call) : Prop where
  openings : arena.scopes.toList.map Opening.ofScope = openings calls
  bindings : ∀ number scope, arena.scopes[number]? = some scope →
    scope.bindings.toList = registered calls number
  root : arena.root = outermost calls
  count : arena.bindingCount = effective 0 calls
  linked : Linked arena

variable {arena : Arena} {calls : List Call}

theorem Recounts.size (hrecounts : Recounts arena calls) :
    arena.size = (Arena.openings calls).length := by
  rw [← hrecounts.openings]
  simp [Arena.size]

theorem Recounts.contains_iff (hrecounts : Recounts arena calls) {id : ScopeId} :
    arena.contains id = true ↔
      id.number?.any (· < (Arena.openings calls).length) = true := by
  rw [Arena.contains_iff, hrecounts.size, Option.any_eq_true]
  simp only [ScopeId.number?_eq_some_iff, decide_eq_true_eq]
  exact exists_congr fun number => and_comm

theorem recounts_empty : Recounts empty [] where
  openings := rfl
  bindings := by simp [empty]
  root := rfl
  count := rfl
  linked := linked_empty

theorem Recounts.openScope (hrecounts : Recounts arena calls) (parent : Option ScopeId)
    (tag : Tag) (span : Span) :
    Recounts (arena.openScope parent tag span) (calls ++ [.openScope parent tag span]) where
  openings := by
    rw [map_opening_openScope, hrecounts.openings, openings_concat_openScope]
  bindings := by
    intro number scope hscope
    rw [getElem?_openScope, Option.map_eq_some_iff] at hscope
    obtain ⟨old, hold, rfl⟩ := hscope
    have hbindings : old.bindings.toList = registered calls number := by
      split at hold
      · rename_i hnew
        cases hold
        rw [registered_eq_nil (Nat.le_of_eq (hrecounts.size.symm.trans hnew.symm))]
      · exact hrecounts.bindings number old hold
    rw [registered_concat_openScope, ← hbindings]
    split <;> rfl
  root := by
    rw [root_openScope, hrecounts.root, outermost_concat_openScope, nextId, hrecounts.size]
  count := by
    rw [bindingCount_openScope, hrecounts.count, effective_concat]
    rfl
  linked := linked_openScope hrecounts.linked parent tag span

theorem Recounts.bind (hrecounts : Recounts arena calls) (id : ScopeId) (binding : Binding) :
    Recounts (arena.bind id binding) (calls ++ [.bind id binding]) where
  openings := by
    rw [openings_concat_bind, ← hrecounts.openings]
    apply map_modify
    intro scope
    rfl
  bindings := by
    intro number scope hscope
    have hnumber : number < (Arena.openings calls).length := by
      have hbound := (Array.getElem?_eq_some_iff.mp hscope).1
      change number < (arena.bind id binding).size at hbound
      rwa [size_bind, hrecounts.size] at hbound
    rw [Arena.bind, getElem?_modify, Option.map_eq_some_iff] at hscope
    obtain ⟨old, hold, rfl⟩ := hscope
    rw [registered_concat_bind, ← hrecounts.bindings number old hold]
    by_cases hid : id = .ofNumber number
    · simp [hid, hnumber]
    · simp [hid]
  root := by
    rw [Arena.bind, root_modify, hrecounts.root, outermost, outermost, openings_concat_bind]
  count := by
    rw [effective_concat, ← hrecounts.count]
    simp only [effective, Nat.zero_add, Nat.add_zero, ← hrecounts.contains_iff]
    split
    · rename_i hid
      exact bindingCount_bind hid binding
    · rename_i hid
      rw [bind_of_not_contains hid, Nat.add_zero]
  linked := linked_bind hrecounts.linked id binding

/-- An arena that recounts the calls so far recounts one more call. -/
theorem Recounts.perform (hrecounts : Recounts arena calls) (call : Call) :
    Recounts (arena.perform call) (calls ++ [call]) := by
  cases call with
  | openScope parent tag span => exact hrecounts.openScope parent tag span
  | bind id binding => exact hrecounts.bind id binding

/-! ## All calls -/

theorem recounts_replay (calls : List Call) : Recounts (replay calls) calls := by
  induction calls using List.reverseRecOn with
  | nil => exact recounts_empty
  | append_singleton calls call ih =>
      rw [replay_concat]
      exact ih.perform call

theorem issued_eq (calls : List Call) :
    ∀ arena : Arena, issued arena calls =
      (List.range (openings calls).length).map fun number =>
        .ofNumber (arena.size + number) := by
  induction calls with
  | nil =>
      intro arena
      rfl
  | cons call calls ih =>
      intro arena
      cases call with
      | openScope parent tag span =>
          rw [issued, ih, openings_cons_openScope, List.length_cons, List.range_succ_eq_map,
            List.map_cons, List.map_map, size_openScope, nextId, Nat.add_zero]
          congr 1
          apply List.map_congr_left
          intro number _
          rw [Function.comp_apply, Nat.succ_eq_add_one, Nat.add_assoc, Nat.add_comm 1]
      | bind id binding => rw [issued, ih, openings_cons_bind, size_bind]

theorem getElem?_openings (hrecounts : Recounts arena calls) (number : Nat) :
    (openings calls)[number]? = arena.scopes[number]?.map Opening.ofScope := by
  rw [← hrecounts.openings, List.getElem?_map, Array.getElem?_toList]

theorem children_eq_openedInside (hrecounts : Recounts arena calls) {number : Nat}
    {scope : Scope} (hscope : arena.scopes[number]? = some scope) :
    scope.children.toList = openedInside calls number := by
  rw [hrecounts.linked number scope hscope, inside, openedInside, hrecounts.size]
  congr 1
  apply List.filter_congr
  intro child _
  rw [parent?_ofNumber, getElem?_openings hrecounts]
  cases arena.scopes[child]? <;> rfl

theorem bindingsNamed_eq (hrecounts : Recounts arena calls) (name : String) :
    arena.bindingsNamed name =
      (List.range (openings calls).length).flatMap fun number =>
        ((registered calls number).filter (·.name == name)).map (ScopeId.ofNumber number, ·) := by
  rw [bindingsNamed, List.flatMap_def, List.flatMap_def]
  congr 1
  apply List.ext_getElem?
  intro number
  rw [List.getElem?_map, List.getElem?_map, getElem?_toList, get?_ofNumber, ← hrecounts.size]
  by_cases hsize : number < arena.size
  · have hscope := Array.getElem?_eq_getElem hsize
    rw [hscope, List.getElem?_range hsize]
    simp only [Option.map_some, Scope.lookup, hrecounts.bindings number _ hscope]
  · have hscope : arena.scopes[number]? = none :=
      Array.getElem?_eq_none_iff.mpr (Nat.le_of_not_lt hsize)
    rw [hscope, List.getElem?_eq_none (by simpa using hsize)]
    rfl

/-! ## Distinct names -/

theorem eraseDups_concat (names : List String) (last : String) :
    (names ++ [last]).eraseDups = names.eraseDups ++ if last ∈ names then [] else [last] := by
  rw [List.eraseDups_append]
  by_cases hlast : last ∈ names <;> simp [List.removeAll, hlast, List.eraseDups_cons]

/-- Names without repetitions stand in the order in which they first came. -/
theorem pairwise_idxOf_eraseDups (names : List String) :
    names.eraseDups.Pairwise fun earlier later => names.idxOf earlier < names.idxOf later := by
  induction names using List.reverseRecOn with
  | nil => simp
  | append_singleton names last ih =>
      -- a name that was there before keeps its place
      have hplace : ∀ name ∈ names, (names ++ [last]).idxOf name = names.idxOf name := by
        intro name hname
        rw [List.idxOf_append, if_pos hname]
      rw [eraseDups_concat, List.pairwise_append]
      refine ⟨?_, by split <;> simp, ?_⟩
      · refine ih.imp_of_mem ?_
        intro earlier later hearlier hlater hlt
        rw [List.mem_eraseDups] at hearlier hlater
        rwa [hplace earlier hearlier, hplace later hlater]
      · intro earlier hearlier later hlater
        rw [List.mem_eraseDups] at hearlier
        split at hlater
        · cases hlater
        · rename_i hnew
          rw [List.mem_singleton.mp hlater, hplace earlier hearlier, List.idxOf_append,
            if_neg hnew]
          have hbound := List.idxOf_lt_length_of_mem hearlier
          omega

/-! ## The whole arena -/

/-- An arena is exactly what the calls on it say.  The scopes are numbered as they are opened, and
no other identifier names one.  Each has the parent that it was opened with; its children are the
scopes that were opened inside it, from itself on; its bindings are those passed to it after it
was opened, and its names are theirs, each once, as they first came.  The root is the first scope
without a parent.  All bindings are counted, and found by their names scope by scope. -/
theorem replay_recounted (calls : List Call) :
    issued empty calls = (List.range (openings calls).length).map .ofNumber ∧
    (∀ id, (replay calls).contains id = true ↔
      ∃ number < (openings calls).length, id = .ofNumber number) ∧
    (∀ number opening, (openings calls)[number]? = some opening →
      (replay calls).parent? (.ofNumber number) = opening.parent ∧
      ∃ scope, (replay calls).get? (.ofNumber number) = some scope ∧
        scope.tag = opening.tag ∧ scope.span = opening.span ∧
        scope.children.toList = openedInside calls number ∧
        scope.bindings.toList = registered calls number ∧
        (∀ name, name ∈ scope.names ↔ ∃ binding ∈ registered calls number, binding.name = name) ∧
        scope.names.Nodup ∧
        scope.names.Pairwise fun earlier later =>
          ((registered calls number).map (·.name)).idxOf earlier <
            ((registered calls number).map (·.name)).idxOf later) ∧
    (replay calls).root = outermost calls ∧
    (replay calls).bindingCount = effective 0 calls ∧
    ∀ name, (replay calls).bindingsNamed name =
      (List.range (openings calls).length).flatMap fun number =>
        ((registered calls number).filter (·.name == name)).map
          (ScopeId.ofNumber number, ·) := by
  have hrecounts := recounts_replay calls
  refine ⟨?_, ?_, ?_, hrecounts.root, hrecounts.count, bindingsNamed_eq hrecounts⟩
  · rw [issued_eq]
    simp [size, empty]
  · intro id
    rw [contains_iff, hrecounts.size]
  · intro number opened hopened
    rw [getElem?_openings hrecounts, Option.map_eq_some_iff] at hopened
    obtain ⟨scope, hscope, rfl⟩ := hopened
    have hbindings := hrecounts.bindings number scope hscope
    have hordered : scope.names.Pairwise fun earlier later =>
        ((registered calls number).map (·.name)).idxOf earlier <
          ((registered calls number).map (·.name)).idxOf later := by
      rw [Scope.names, hbindings]
      exact pairwise_idxOf_eraseDups _
    refine ⟨?_, scope, hscope, rfl, rfl, children_eq_openedInside hrecounts hscope, hbindings, ?_,
      ?_, hordered⟩
    · rw [parent?_ofNumber, hscope]
      rfl
    · intro name
      rw [Scope.names, hbindings, List.mem_eraseDups, List.mem_map]
    · refine hordered.imp ?_
      rintro earlier later hlt rfl
      exact Nat.lt_irrefl _ hlt

/-- Calls in an order in which no walk makes them: a name for a scope that is not open yet, a
parent that is opened later, a scope inside itself, and a name for no scope. -/
def looseCalls : List Call :=
  [.bind (.ofNumber 1) ⟨"early", .shared .decl, .dummy, 0⟩,
    .openScope (some (.ofNumber 1)) (.shared .block) .dummy,
    .openScope (some (.ofNumber 1)) (.shared .block) .dummy,
    .bind (.ofNumber 1) ⟨"x", .shared .decl, .dummy, 1⟩,
    .openScope none (.shared .fileRoot) .dummy,
    .bind .null ⟨"x", .shared .decl, .dummy, 2⟩,
    .bind (.ofNumber 1) ⟨"y", .shared .decl, .dummy, 3⟩,
    .bind (.ofNumber 1) ⟨"x", .shared .decl, .dummy, 4⟩]

theorem replay_recounted_looseCalls :
    issued empty looseCalls = [.ofNumber 0, .ofNumber 1, .ofNumber 2] ∧
    (replay looseCalls).parent? (.ofNumber 0) = some (.ofNumber 1) ∧
    (∃ scope, (replay looseCalls).get? (.ofNumber 1) = some scope ∧
      scope.children.toList = [.ofNumber 1] ∧
      scope.bindings.toList.map (·.node) = [1, 3, 4] ∧ "early" ∉ scope.names) ∧
    (replay looseCalls).root = some (.ofNumber 2) ∧
    (replay looseCalls).bindingCount = 3 := by
  obtain ⟨hissued, -, hscopes, hroot, hcount, -⟩ := replay_recounted looseCalls
  obtain ⟨hparent, -⟩ := hscopes 0 ⟨some (.ofNumber 1), .shared .block, .dummy⟩ rfl
  obtain ⟨-, scope, hscope, -, -, hchildren, hbindings, hnames, -, -⟩ :=
    hscopes 1 ⟨some (.ofNumber 1), .shared .block, .dummy⟩ rfl
  refine ⟨hissued, hparent, ⟨scope, hscope, hchildren.trans (by decide), ?_, ?_⟩,
    hroot.trans (by decide), hcount.trans (by decide)⟩
  · rw [hbindings]
    decide
  · rw [hnames]
    decide

end Arena

end CanonTree
