import CanonTree.Proofs.Rule.Occurrences

/-!
# Variable lists

A variable list declares one name for each of its declarators.  `Ecma.Declares` says which
nodes are variable lists, and `Ecma.DeclarationOf` what one declarator becomes, both of the
children as they are given.  The rule goes through the declarators one after the other and
may stop at any of them; it accepts exactly the nodes that are variable lists, and then the
declarations stand in the order of the declarators and bind the names that these carry.
-/

namespace CanonTree.Rule.Ecma

variable {node item declaration : Node} {items declarations : List Node}

/-! ## What a variable list is -/

/-- The children of a variable list that each declare a name: all but the first `MODIFIER`. -/
def declarators (node : Node) : List Node :=
  apartFrom (firstOccurrence? .modifier node.children).toList node.children

def declaredName? (item : Node) : Option String :=
  (firstOccurrence? .ident item.children).bind (·.1.text)

def IsDeclarator (item : Node) : Prop :=
  item.is .item = true ∧ declaredName? item ≠ none

/-- The node has declarators, and nothing else but a modifier. -/
def Declares (node : Node) : Prop :=
  declarators node ≠ [] ∧ ∀ item ∈ declarators node, IsDeclarator item

/-- The declaration stands for the declarator: it has the name as its text and holds the kind of
the declaration, the first `NAME`, and all other children as its value. -/
def DeclarationOf (item declaration : Node) : Prop :=
  item.is .item = true ∧
    ∃ name text, firstOccurrence? .ident item.children = some name ∧ name.1.text = some text ∧
      let value := apartFrom [name] item.children
      declaration = ⟨.shared .decl, item.span, some text, none,
        [⟨.shared .props, item.span, some "variable", none, [], none⟩, name.1] ++
          (if value = [] then []
            else [⟨.shared .init, Span.coverAll (value.map (·.span)), none, none, value, none⟩]),
        none⟩

/-! ## One declarator -/

theorem declarator_ok_iff_declarationOf :
    declarator item = .ok declaration ↔ DeclarationOf item declaration := by
  rw [declarator_ok_iff, DeclarationOf, first?_eq_firstOccurrence?, withoutFirst_eq_apartFrom]
  cases firstOccurrence? .ident item.children with
  | none => simp
  | some name =>
      simp only [Option.map_some, Option.some.injEq, Option.toList_some, List.isEmpty_iff]
      constructor
      · rintro ⟨_, text, hitem, rfl, htext, rfl⟩
        exact ⟨hitem, name, text, rfl, htext, rfl⟩
      · rintro ⟨hitem, _, text, rfl, htext, rfl⟩
        exact ⟨name.1, text, hitem, rfl, htext, rfl⟩

theorem exists_declarationOf_iff :
    (∃ declaration, DeclarationOf item declaration) ↔ IsDeclarator item := by
  rw [IsDeclarator, declaredName?, Option.ne_none_iff_exists']
  constructor
  · rintro ⟨_, hitem, name, text, hname, htext, -⟩
    refine ⟨hitem, text, ?_⟩
    rw [hname]
    exact htext
  · rintro ⟨hitem, text, htext⟩
    obtain ⟨name, hname, htext⟩ := Option.bind_eq_some_iff.mp htext
    exact ⟨_, hitem, name, text, hname, htext, rfl⟩

/-- A declaration binds the name of its declarator and no other, although the `NAME` stays below
it. -/
theorem DeclarationOf.boundNames_eq (hdeclaration : DeclarationOf item declaration) :
    declaration.boundNames.map some = [declaredName? item] := by
  obtain ⟨-, name, text, hname, htext, rfl⟩ := hdeclaration
  rw [declaredName?, hname, Option.bind_some, htext]
  rfl

/-! ## All declarators -/

/-- Declarators can all be declared exactly if each of them can. -/
theorem exists_forall₂_declarationOf_iff :
    (∃ declarations, List.Forall₂ DeclarationOf items declarations) ↔
      ∀ item ∈ items, IsDeclarator item := by
  induction items with
  | nil => exact ⟨fun _ => List.forall_mem_nil _, fun _ => ⟨[], .nil⟩⟩
  | cons item items ih =>
      rw [List.forall_mem_cons, ← exists_declarationOf_iff, ← ih]
      constructor
      · rintro ⟨_, hall⟩
        obtain ⟨declaration, declarations, hitem, hitems, -⟩ := List.forall₂_cons_left_iff.mp hall
        exact ⟨⟨declaration, hitem⟩, declarations, hitems⟩
      · rintro ⟨⟨declaration, hitem⟩, declarations, hitems⟩
        exact ⟨declaration :: declarations, .cons hitem hitems⟩

theorem boundNames_of_forall₂ (hall : List.Forall₂ DeclarationOf items declarations) :
    (declarations.flatMap (·.boundNames)).map some = items.map declaredName? := by
  induction hall with
  | nil => rfl
  | cons hitem _ ih =>
      rw [List.flatMap_cons, List.map_append, hitem.boundNames_eq, ih]
      rfl

theorem variableList_ok_iff_forall₂ {result : Node} :
    variableList node = .ok result ↔
      ∃ declarations, declarators node ≠ [] ∧
        List.Forall₂ DeclarationOf (declarators node) declarations ∧
        result = ⟨.shared .declList, node.span, node.text, none,
          ((firstOccurrence? .modifier node.children).map (·.1)).toList ++ declarations,
          none⟩ := by
  simp only [variableList_ok_iff, mapM_declarator_ok_iff, declarator_ok_iff_declarationOf,
    withoutFirst_eq_apartFrom, first?_eq_firstOccurrence?, declarators]
  constructor
  · rintro ⟨declarations, hsome, hall, rfl⟩
    exact ⟨declarations, hsome, hall, rfl⟩
  · rintro ⟨declarations, hsome, hall, rfl⟩
    exact ⟨declarations, hsome, hall, rfl⟩

/-- A raw node is reduced to a list of declarations exactly if it is a variable list.  The list
has the span and the text of the node and holds the modifier, if there is one, and one declaration
for each declarator, in order; so it binds the names of the declarators.  Every other node is
reported as malformed, with its raw tag and its span. -/
theorem reduce_variableList (node : Node) :
    ((∃ produced, reduce .ecma (.ecma .variableList) node = .ok produced) ↔ Declares node) ∧
      (∀ produced, reduce .ecma (.ecma .variableList) node = .ok produced ↔
        ∃ declarations, declarators node ≠ [] ∧
          List.Forall₂ DeclarationOf (declarators node) declarations ∧
          (declarations.flatMap (·.boundNames)).map some =
            (declarators node).map declaredName? ∧
          produced = [⟨.shared .declList, node.span, node.text, none,
            ((firstOccurrence? .modifier node.children).map (·.1)).toList ++ declarations,
            none⟩]) ∧
      ((∃ defect, reduce .ecma (.ecma .variableList) node =
        .error (.malformed (.ecma .variableList) node.span defect)) ↔ ¬Declares node) := by
  have haccepts : (∃ produced, reduce .ecma (.ecma .variableList) node = .ok produced) ↔
      Declares node := by
    simp only [reduce_ecma_ok_iff, canonical, variableList_ok_iff_forall₂]
    rw [Declares, ← exists_forall₂_declarationOf_iff]
    constructor
    · rintro ⟨_, _, -, declarations, hsome, hall, -⟩
      exact ⟨hsome, declarations, hall⟩
    · rintro ⟨hsome, declarations, hall⟩
      exact ⟨_, _, rfl, declarations, hsome, hall, rfl⟩
  refine ⟨haccepts, ?_, ?_⟩
  · intro produced
    simp only [reduce_ecma_ok_iff, canonical, variableList_ok_iff_forall₂]
    constructor
    · rintro ⟨_, rfl, declarations, hsome, hall, rfl⟩
      exact ⟨declarations, hsome, hall, boundNames_of_forall₂ hall, rfl⟩
    · rintro ⟨declarations, hsome, hall, -, rfl⟩
      exact ⟨_, rfl, declarations, hsome, hall, rfl⟩
  · have howner : RawTag.owner (.ecma .variableList) = .ecma := rfl
    rw [exists_malformed_iff howner, haccepts]

end CanonTree.Rule.Ecma
