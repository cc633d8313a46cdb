import CanonTree.Tag.Basic
import CanonTree.Span

/-!
# Scopes and their identifiers

A scope is one lexical frame: what opened it, the scopes around and directly
inside it, and the names bound in it.  Names are only recorded: two bindings of
one name are both kept, in the order in which they were registered.

An identifier names a slot of an arena together with the age of its content.
Arenas here never free a slot, so the identifiers they give out have age zero;
others can only be read from data and name no scope.  Identifiers of two arenas
are equal when they name the same slot.
-/

namespace CanonTree

/-- Handle of a scope inside its arena. -/
inductive ScopeId where
  /-- Names no scope in any arena. -/
  | null
  | slot (index age : Nat)
deriving DecidableEq, Inhabited

namespace ScopeId

/-- Identifier of the scope that was opened after `number` others; slots count from one. -/
def ofNumber (number : Nat) : ScopeId :=
  .slot (number + 1) 0

/-- How many scopes were opened before the named one, for an identifier that an arena gave out. -/
def number? : ScopeId → Option Nat
  | .slot (number + 1) 0 => some number
  | _ => none

@[simp] theorem number?_ofNumber (number : Nat) : (ofNumber number).number? = some number := rfl

theorem number?_eq_some_iff {id : ScopeId} {number : Nat} :
    id.number? = some number ↔ id = ofNumber number := by
  constructor
  · intro hnumber
    match id, hnumber with
    | .slot (_ + 1) 0, rfl => rfl
  · rintro rfl
    rfl

def label : ScopeId → String
  | .null => "ScopeId(null)"
  | .slot index age => "ScopeId(" ++ toString index ++ "v" ++ toString (2 * age + 1) ++ ")"

def labelOption : Option ScopeId → String
  | none => "None"
  | some id => "Some(" ++ id.label ++ ")"

end ScopeId

structure Binding where
  name : String
  tag : Tag
  /-- Span of the declaring node; two declarations may share one. -/
  span : Span
  /-- Position of the declaring node when the tree is listed parents first. -/
  node : Nat
deriving DecidableEq, Inhabited

structure Scope where
  parent : Option ScopeId
  /-- The scopes directly inside, in opening order. -/
  children : Array ScopeId
  /-- Tag of the node that opened the scope. -/
  tag : Tag
  span : Span
  /-- The names bound directly in this scope, in registration order. -/
  bindings : Array Binding
deriving DecidableEq, Inhabited

namespace Scope

def lookup (scope : Scope) (name : String) : List Binding :=
  scope.bindings.toList.filter (·.name == name)

def binds (scope : Scope) (name : String) : Bool :=
  scope.bindings.toList.any (·.name == name)

/-- The bound names without repetition, in order of first registration. -/
def names (scope : Scope) : List String :=
  (scope.bindings.toList.map (·.name)).eraseDups

end Scope

end CanonTree
