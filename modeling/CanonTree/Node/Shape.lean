import CanonTree.Node.Basic

/-!
# Comparing trees

Two trees are equal when all fields agree node by node.  They have the same shape
when all fields but the scopes agree, that is, when they become equal once every
scope is erased.
-/

namespace CanonTree

namespace Node

mutual

def decideEq : (left right : Node) → Decidable (left = right)
  | ⟨tag, span, text, operator, children, scope⟩,
    ⟨tag', span', text', operator', children', scope'⟩ =>
      if hhead : tag = tag' ∧ span = span' ∧ text = text' ∧ operator = operator' ∧
          scope = scope' then
        match decideEqAll children children' with
        | isTrue hchildren => isTrue (by
            obtain ⟨htag, hspan, htext, hoperator, hscope⟩ := hhead
            rw [htag, hspan, htext, hoperator, hscope, hchildren])
        | isFalse hchildren => isFalse fun heq => hchildren (Node.mk.inj heq).2.2.2.2.1
      else
        isFalse fun heq => hhead (by
          obtain ⟨htag, hspan, htext, hoperator, -, hscope⟩ := Node.mk.inj heq
          exact ⟨htag, hspan, htext, hoperator, hscope⟩)

def decideEqAll : (left right : List Node) → Decidable (left = right)
  | [], [] => isTrue rfl
  | [], _ :: _ => isFalse nofun
  | _ :: _, [] => isFalse nofun
  | node :: nodes, node' :: nodes' =>
      match decideEq node node' with
      | isFalse hhead => isFalse fun heq => hhead (List.cons.inj heq).1
      | isTrue hhead =>
          match decideEqAll nodes nodes' with
          | isTrue htail => isTrue (by rw [hhead, htail])
          | isFalse htail => isFalse fun heq => htail (List.cons.inj heq).2

end

instance : DecidableEq Node := decideEq

mutual

/-- The trees agree in all but their scopes. -/
def sameShape : Node → Node → Bool
  | ⟨tag, span, text, operator, children, _⟩,
    ⟨tag', span', text', operator', children', _⟩ =>
      tag == tag' && span == span' && text == text' && operator == operator' &&
        sameShapeAll children children'

def sameShapeAll : List Node → List Node → Bool
  | [], [] => true
  | node :: nodes, node' :: nodes' => sameShape node node' && sameShapeAll nodes nodes'
  | _, _ => false

end

mutual

def eraseScopes : Node → Node
  | ⟨tag, span, text, operator, children, _⟩ =>
      ⟨tag, span, text, operator, eraseScopesAll children, none⟩

def eraseScopesAll : List Node → List Node
  | [] => []
  | node :: nodes => eraseScopes node :: eraseScopesAll nodes

end

end Node

end CanonTree
