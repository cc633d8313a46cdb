import CanonTree.Scope.Arena
import Mathlib.Data.List.Basic

/-!
# Links between the scopes of an arena

What opening a scope and registering a name do to each slot of an arena and to the number
of its bindings, and the two invariants on the links that follow.  `Arena.Linked` says
that the children of a scope are exactly the later scopes that name it as their parent,
in opening order; opening a scope keeps it, whatever is passed as the parent.
`Arena.Nested` says that a parent is older than its children; it is kept as long as only
scopes that are there are passed as parents.
-/

namespace CanonTree

theorem ScopeId.ofNumber_inj {left right : Nat} :
    ScopeId.ofNumber left = ScopeId.ofNumber right ↔ left = right := by
  simp [ScopeId.ofNumber]

namespace Arena

@[simp]
theorem get?_ofNumber (arena : Arena) (number : Nat) :
    arena.get? (.ofNumber number) = arena.scopes[number]? := rfl

theorem get?_eq_some_iff {arena : Arena} {id : ScopeId} {scope : Scope} :
    arena.get? id = some scope ↔
      ∃ number, id = .ofNumber number ∧ arena.scopes[number]? = some scope := by
  simp only [get?, Option.bind_eq_some_iff, ScopeId.number?_eq_some_iff]

theorem contains_iff {arena : Arena} {id : ScopeId} :
    arena.contains id = true ↔ ∃ number, number < arena.size ∧ id = .ofNumber number := by
  rw [contains, Option.isSome_iff_exists]
  constructor
  · rintro ⟨scope, hscope⟩
    obtain ⟨number, rfl, hnumber⟩ := get?_eq_some_iff.mp hscope
    exact ⟨number, (Array.getElem?_eq_some_iff.mp hnumber).1, rfl⟩
  · rintro ⟨number, hnumber, rfl⟩
    exact ⟨_, Array.getElem?_eq_getElem hnumber⟩

theorem getElem?_toList (arena : Arena) (number : Nat) :
    arena.toList[number]? = (arena.get? (.ofNumber number)).map (ScopeId.ofNumber number, ·) := by
  simp [toList, Function.comp_def]

theorem parent?_ofNumber (arena : Arena) (number : Nat) :
    arena.parent? (.ofNumber number) = arena.scopes[number]?.bind (·.parent) := rfl

/-! ## One slot after a change -/

theorem getElem?_modify (arena : Arena) (id : ScopeId) (change : Scope → Scope) (number : Nat) :
    (arena.modify id change).scopes[number]? =
      arena.scopes[number]?.map fun scope =>
        if id = .ofNumber number then change scope else scope := by
  rw [modify]
  split
  · rename_i slot hslot
    rw [ScopeId.number?_eq_some_iff] at hslot
    simp only [hslot, ScopeId.ofNumber_inj, Array.getElem?_modify]
    split <;> simp
  · rename_i hslot
    have hother : id ≠ .ofNumber number := by
      rintro rfl
      simp at hslot
    simp [hother]

/-- What a change keeps of each scope is kept of all scopes. -/
theorem map_modify {β : Type} {view : Scope → β} {change : Scope → Scope}
    (hview : ∀ scope, view (change scope) = view scope) (arena : Arena) (id : ScopeId) :
    (arena.modify id change).scopes.toList.map view = arena.scopes.toList.map view := by
  apply List.ext_getElem?
  intro slot
  simp only [List.getElem?_map, Array.getElem?_toList, getElem?_modify, Option.map_map]
  congr 1
  funext scope
  by_cases hslot : id = .ofNumber slot
  · simp [hslot, hview]
  · simp [hslot]

@[simp]
theorem size_modify (arena : Arena) (id : ScopeId) (change : Scope → Scope) :
    (arena.modify id change).size = arena.size := by
  rw [modify, size, size]
  split <;> simp

@[simp]
theorem size_bind (arena : Arena) (id : ScopeId) (binding : Binding) :
    (arena.bind id binding).size = arena.size :=
  size_modify arena id _

@[simp]
theorem size_openScope (arena : Arena) (parent : Option ScopeId) (tag : Tag) (span : Span) :
    (arena.openScope parent tag span).size = arena.size + 1 := by
  cases parent with
  | none => simp [openScope, size]
  | some parent =>
      rw [openScope, size_modify]
      simp [size]

/-- Opening a scope fills the next slot and then adds a child to the parent, which may be the
new scope itself. -/
theorem getElem?_openScope (arena : Arena) (parent : Option ScopeId) (tag : Tag) (span : Span)
    (number : Nat) :
    (arena.openScope parent tag span).scopes[number]? =
      (if number = arena.size then some ⟨parent, #[], tag, span, #[]⟩
        else arena.scopes[number]?).map fun scope =>
          if parent = some (.ofNumber number) then
            { scope with children := scope.children.push arena.nextId }
          else scope := by
  cases parent with
  | none =>
      simp only [openScope, Array.getElem?_push, reduceCtorEq, if_false, Option.map_id']
      rfl
  | some parent =>
      simp only [openScope, getElem?_modify, Array.getElem?_push, Option.some.injEq]
      rfl

/-- A change that keeps the parent of each scope does not show in the parent of a slot. -/
theorem bind_parent_map {slot : Option Scope} {change : Scope → Scope}
    (hparent : ∀ scope, (change scope).parent = scope.parent) :
    (slot.map change).bind (·.parent) = slot.bind (·.parent) := by
  cases slot with
  | none => rfl
  | some scope => exact hparent scope

theorem parent?_openScope (arena : Arena) (parent : Option ScopeId) (tag : Tag) (span : Span)
    (number : Nat) :
    (arena.openScope parent tag span).parent? (.ofNumber number) =
      if number = arena.size then parent else arena.parent? (.ofNumber number) := by
  rw [parent?_ofNumber, getElem?_openScope, parent?_ofNumber, bind_parent_map]
  · split <;> rfl
  · intro scope
    split <;> rfl

theorem parent?_bind (arena : Arena) (id : ScopeId) (binding : Binding) (number : Nat) :
    (arena.bind id binding).parent? (.ofNumber number) = arena.parent? (.ofNumber number) := by
  rw [parent?_ofNumber, parent?_ofNumber, bind, getElem?_modify, bind_parent_map]
  intro scope
  split <;> rfl

/-! ## Counting bindings -/

theorem bindingCount_eq_foldl (arena : Arena) :
    arena.bindingCount = (arena.scopes.toList.map (·.bindings.size)).foldl (· + ·) 0 := by
  rw [bindingCount, ← Array.foldl_toList, List.foldl_map]

/-- A change that adds no binding to any scope adds none to the arena. -/
theorem bindingCount_modify {change : Scope → Scope}
    (hchange : ∀ scope, (change scope).bindings.size = scope.bindings.size) (arena : Arena)
    (id : ScopeId) : (arena.modify id change).bindingCount = arena.bindingCount := by
  rw [bindingCount_eq_foldl, bindingCount_eq_foldl, map_modify hchange]

/-- A new scope holds no binding, and its parent gets a child but no binding. -/
theorem bindingCount_openScope (arena : Arena) (parent : Option ScopeId) (tag : Tag)
    (span : Span) : (arena.openScope parent tag span).bindingCount = arena.bindingCount := by
  have hgrown : ∀ root, bindingCount ⟨arena.scopes.push ⟨parent, #[], tag, span, #[]⟩, root⟩ =
      arena.bindingCount := by
    intro root
    simp [bindingCount_eq_foldl]
  cases parent with
  | none => exact hgrown _
  | some parent =>
      rw [openScope, bindingCount_modify]
      · exact hgrown _
      · intro scope
        rfl

theorem bindingCount_bind {arena : Arena} {id : ScopeId} (hid : arena.contains id = true)
    (binding : Binding) : (arena.bind id binding).bindingCount = arena.bindingCount + 1 := by
  obtain ⟨number, hnumber, rfl⟩ := contains_iff.mp hid
  have hbound : number < arena.scopes.toList.length := hnumber
  obtain ⟨before, scope, others, hsplit, -, hmodify⟩ := List.exists_of_modify
    (fun scope : Scope => { scope with bindings := scope.bindings.push binding }) hbound
  rw [bind, modify, ScopeId.number?_ofNumber, bindingCount_eq_foldl, bindingCount_eq_foldl,
    ← List.sum_eq_foldl, ← List.sum_eq_foldl]
  simp only [Array.toList_modify]
  rw [hmodify, hsplit]
  simp only [List.map_append, List.map_cons, List.sum_append, List.sum_cons, Array.size_push]
  omega

/-! ## Children are the later scopes that name their parent -/

/-- The scopes from the given one on that name it as their parent, in opening order. -/
def inside (arena : Arena) (number : Nat) : List ScopeId :=
  ((List.range arena.size).filter fun child =>
    decide (number ≤ child ∧ arena.parent? (.ofNumber child) = some (.ofNumber number))).map
    .ofNumber

/-- The children of every scope are the scopes that were opened inside it. -/
def Linked (arena : Arena) : Prop :=
  ∀ number scope, arena.scopes[number]? = some scope →
    scope.children.toList = arena.inside number

theorem linked_empty : Linked empty := by
  intro number scope hscope
  simp [empty] at hscope

theorem inside_of_size_le {arena : Arena} {number : Nat} (hnumber : arena.size ≤ number) :
    arena.inside number = [] := by
  rw [inside, List.map_eq_nil_iff, List.filter_eq_nil_iff]
  intro child hchild
  rw [List.mem_range] at hchild
  simp only [decide_eq_true_eq, not_and]
  omega

theorem inside_openScope (arena : Arena) (parent : Option ScopeId) (tag : Tag) (span : Span)
    {number : Nat} (hnumber : number ≤ arena.size) :
    (arena.openScope parent tag span).inside number =
      arena.inside number ++
        if parent = some (.ofNumber number) then [arena.nextId] else [] := by
  have hold : ∀ child ∈ List.range arena.size,
      decide (number ≤ child ∧
        (arena.openScope parent tag span).parent? (.ofNumber child) = some (.ofNumber number)) =
      decide (number ≤ child ∧
        arena.parent? (.ofNumber child) = some (.ofNumber number)) := by
    intro child hchild
    rw [parent?_openScope, if_neg (Nat.ne_of_lt (List.mem_range.mp hchild))]
  rw [inside, size_openScope, List.range_succ, List.filter_append, List.map_append,
    List.filter_congr hold, inside]
  congr 1
  by_cases hparent : parent = some (.ofNumber number)
  · simp [parent?_openScope, hparent, hnumber, nextId]
  · simp [parent?_openScope, hparent]

/-- Opening a scope keeps the children lists right, whatever is passed as the parent. -/
theorem linked_openScope {arena : Arena} (hlinked : Linked arena) (parent : Option ScopeId)
    (tag : Tag) (span : Span) : Linked (arena.openScope parent tag span) := by
  intro number scope hscope
  have hsize : number ≤ arena.size := by
    have hbound := (Array.getElem?_eq_some_iff.mp hscope).1
    change number < (arena.openScope parent tag span).size at hbound
    rw [size_openScope] at hbound
    omega
  rw [getElem?_openScope, Option.map_eq_some_iff] at hscope
  obtain ⟨old, hold, rfl⟩ := hscope
  have hchildren : old.children.toList = arena.inside number := by
    split at hold
    · rename_i hnew
      cases hold
      rw [inside_of_size_le (Nat.le_of_eq hnew.symm)]
    · exact hlinked number old hold
  rw [inside_openScope arena parent tag span hsize]
  split
  · rw [Array.toList_push, hchildren]
  · rw [List.append_nil, hchildren]

theorem linked_bind {arena : Arena} (hlinked : Linked arena) (id : ScopeId) (binding : Binding) :
    Linked (arena.bind id binding) := by
  intro number scope hscope
  have hinside : (arena.bind id binding).inside number = arena.inside number := by
    simp only [inside, size_bind, parent?_bind]
  rw [bind, getElem?_modify, Option.map_eq_some_iff] at hscope
  obtain ⟨old, hold, rfl⟩ := hscope
  rw [hinside, ← hlinked number old hold]
  split <;> rfl

/-! ## Parents are older than their children -/

/-- Every parent is a scope that was opened before. -/
def Nested (arena : Arena) : Prop :=
  ∀ child parent, arena.parent? (.ofNumber child) = some parent →
    ∃ number, number < child ∧ parent = .ofNumber number

theorem nested_empty : Nested empty := by
  intro child parent hparent
  simp [parent?_ofNumber, empty] at hparent

theorem nested_openScope {arena : Arena} (hnested : Nested arena) {parent : Option ScopeId}
    (hparent : ∀ id, parent = some id → arena.contains id = true) (tag : Tag) (span : Span) :
    Nested (arena.openScope parent tag span) := by
  intro child id hid
  rw [parent?_openScope] at hid
  split at hid
  · rename_i hchild
    obtain ⟨number, hnumber, rfl⟩ := contains_iff.mp (hparent id hid)
    exact ⟨number, hchild ▸ hnumber, rfl⟩
  · exact hnested child id hid

theorem nested_bind {arena : Arena} (hnested : Nested arena) (id : ScopeId) (binding : Binding) :
    Nested (arena.bind id binding) := by
  intro child parent hparent
  rw [parent?_bind] at hparent
  exact hnested child parent hparent

/-- Where parents are older, a scope's children are all scopes that name it as their parent. -/
theorem children_eq_of_nested {arena : Arena} (hlinked : Linked arena) (hnested : Nested arena)
    {id : ScopeId} {scope : Scope} (hscope : arena.get? id = some scope) :
    scope.children.toList =
      ((List.range arena.size).map ScopeId.ofNumber).filter fun child =>
        decide (arena.parent? child = some id) := by
  obtain ⟨number, rfl, hnumber⟩ := get?_eq_some_iff.mp hscope
  rw [hlinked number scope hnumber, inside, List.filter_map]
  congr 1
  apply List.filter_congr
  intro child _
  rw [Function.comp_apply, decide_eq_decide]
  constructor
  · exact fun hchild => hchild.2
  · intro hparent
    obtain ⟨older, holder, heq⟩ := hnested child _ hparent
    rw [ScopeId.ofNumber_inj] at heq
    exact ⟨by omega, hparent⟩

/-! ## The way outwards -/

/-- From the scope outwards there are exactly these scopes, up to one without a parent. -/
inductive Leads (arena : Arena) : ScopeId → List ScopeId → Prop where
  | last {id : ScopeId} {scope : Scope} (hscope : arena.get? id = some scope)
      (hparent : scope.parent = none) : Leads arena id [id]
  | step {id parent : ScopeId} {scope : Scope} {outer : List ScopeId}
      (hscope : arena.get? id = some scope) (hparent : scope.parent = some parent)
      (houter : Leads arena parent outer) : Leads arena id (id :: outer)

variable {arena : Arena} {id : ScopeId} {path : List ScopeId}

theorem Leads.contains (hleads : Leads arena id path) : arena.contains id = true := by
  cases hleads with
  | last hscope _ => rw [Arena.contains, hscope]; rfl
  | step hscope _ _ => rw [Arena.contains, hscope]; rfl

theorem Leads.outward_eq (hleads : Leads arena id path) :
    ∀ limit, arena.outward limit id = path.take limit := by
  induction hleads with
  | last hscope hparent =>
      intro limit
      cases limit with
      | zero => rfl
      | succ limit => simp [outward, parent?, hscope, hparent]
  | step hscope hparent _ ih =>
      intro limit
      cases limit with
      | zero => rfl
      | succ limit => simp [outward, parent?, hscope, hparent, ih]

/-- The walk outwards ends, and it visits exactly the scopes on the way. -/
theorem Leads.ancestors_eq (hleads : Leads arena id path) (limit : Nat) :
    arena.ancestors limit id = path.take limit := by
  rw [ancestors, if_pos hleads.contains, hleads.outward_eq]

def bindsAt (arena : Arena) (name : String) (id : ScopeId) : Bool :=
  (arena.get? id).any (·.binds name)

/-- A search that may take as many steps as there are scopes on the way finds the first of them
that binds the name. -/
theorem Leads.resolveWithin_eq (hleads : Leads arena id path) (name : String) :
    ∀ limit, path.length ≤ limit →
      arena.resolveWithin name limit id =
        match path.find? (arena.bindsAt name) with
        | some found => .found found
        | none => .unbound := by
  induction hleads with
  | last hscope hparent =>
      intro limit hlimit
      obtain ⟨limit, rfl⟩ := Nat.exists_eq_add_of_le' hlimit
      simp only [List.length_singleton, resolveWithin, hscope, hparent, List.find?_cons,
        List.find?_nil, bindsAt, Option.any_some]
      split <;> simp_all
  | @step id parent scope outer hscope hparent _ ih =>
      intro limit hlimit
      obtain ⟨limit, rfl⟩ := Nat.exists_eq_add_of_le' (Nat.le_trans (Nat.le_add_left 1 _) hlimit)
      have houter := ih limit (Nat.le_of_succ_le_succ hlimit)
      simp only [resolveWithin, hscope, hparent, houter, List.find?_cons, bindsAt,
        Option.any_some]
      cases scope.binds name <;> rfl

/-- Where parents are older, the way outwards goes from scope to older scope. -/
theorem Leads.older (hnested : Nested arena) (hleads : Leads arena id path) :
    ∀ number, id = .ofNumber number →
      path.length ≤ number + 1 ∧ path.Nodup ∧
        ∀ outer ∈ path, ∃ older ≤ number, outer = .ofNumber older := by
  induction hleads with
  | last _ _ =>
      rintro number rfl
      refine ⟨by simp, by simp, ?_⟩
      intro outer houter
      exact ⟨number, Nat.le_refl _, List.mem_singleton.mp houter⟩
  | @step id parent scope outer hscope hparent _ ih =>
      rintro number rfl
      have hlink : arena.parent? (.ofNumber number) = some parent := by
        rw [parent?, hscope]
        exact hparent
      obtain ⟨older, holder, rfl⟩ := hnested number parent hlink
      obtain ⟨hlength, hnodup, hall⟩ := ih older rfl
      refine ⟨by rw [List.length_cons]; omega, List.nodup_cons.mpr ⟨?_, hnodup⟩, ?_⟩
      · intro hmem
        obtain ⟨oldest, holdest, heq⟩ := hall _ hmem
        rw [ScopeId.ofNumber_inj] at heq
        omega
      · intro inner hinner
        obtain rfl | hinner := List.mem_cons.mp hinner
        · exact ⟨number, Nat.le_refl _, rfl⟩
        · obtain ⟨oldest, holdest, rfl⟩ := hall inner hinner
          exact ⟨oldest, by omega, rfl⟩

theorem Leads.nodup (hnested : Nested arena) (hleads : Leads arena id path) : path.Nodup := by
  obtain ⟨number, -, rfl⟩ := contains_iff.mp hleads.contains
  exact (hleads.older hnested number rfl).2.1

/-- Where parents are older, a name is resolved to the first scope on the way that binds it. -/
theorem Leads.resolve_eq (hnested : Nested arena) (hleads : Leads arena id path) (name : String) :
    arena.resolve id name =
      match path.find? (arena.bindsAt name) with
      | some found => .found found
      | none => .unbound := by
  obtain ⟨number, hnumber, rfl⟩ := contains_iff.mp hleads.contains
  have hlength := (hleads.older hnested number rfl).1
  exact hleads.resolveWithin_eq name _ (by omega)

theorem Leads.resolve_eq_found_iff (hnested : Nested arena) (hleads : Leads arena id path)
    {name : String} {found : ScopeId} :
    arena.resolve id name = .found found ↔
      ∃ inner outer, path = inner ++ found :: outer ∧ arena.bindsAt name found = true ∧
        ∀ nearer ∈ inner, ¬arena.bindsAt name nearer = true := by
  have hfind : arena.resolve id name = .found found ↔
      path.find? (arena.bindsAt name) = some found := by
    rw [hleads.resolve_eq hnested]
    cases path.find? (arena.bindsAt name) <;> simp
  rw [hfind, List.find?_eq_some_iff_append]
  constructor
  · rintro ⟨hbinds, inner, outer, hpath, hinner⟩
    exact ⟨inner, outer, hpath, hbinds, fun nearer hnearer => by simpa using hinner nearer hnearer⟩
  · rintro ⟨inner, outer, hpath, hbinds, hinner⟩
    exact ⟨hbinds, inner, outer, hpath, fun nearer hnearer => by simpa using hinner nearer hnearer⟩

theorem Leads.resolve_eq_unbound_iff (hnested : Nested arena) (hleads : Leads arena id path)
    {name : String} :
    arena.resolve id name = .unbound ↔ ∀ around ∈ path, ¬arena.bindsAt name around = true := by
  rw [hleads.resolve_eq hnested, ← List.find?_eq_none]
  cases path.find? (arena.bindsAt name) <;> simp

end Arena

end CanonTree
