import CanonTree.Proofs.Rule.Acceptance

/-!
# Declarations keep their name

Four rules of Java make a declaration of a raw node.  They look for its name before they put
the kind of the declaration in front of its children and, for what a `catch` clause declares,
after they put several types into one union; whoever asks for the names of the declaration
looks for them once more.  All of them find the one name that the raw node has by itself, and
the children of the raw node stay as they are but for the union.
-/

namespace CanonTree.Rule

variable {node result : Node} {nodes : List Node}

/-! ## Gathering nodes -/

theorem gather_of_countP_lt {tag group : SharedTag} {least : Nat}
    (hfew : nodes.countP (·.is tag) < least) : gather tag group least nodes = nodes := by
  rw [gather, if_pos hfew]

/-- What stands before the first node with the tag stays there, and all other nodes without the
tag come after the group. -/
theorem gather_of_le_countP {tag : SharedTag} (group : SharedTag) {least : Nat}
    (hleast : least ≤ nodes.countP (·.is tag)) (hsome : 0 < nodes.countP (·.is tag)) :
    gather tag group least nodes =
      nodes.takeWhile (!·.is tag) ++ wrap group (nodes.filter (·.is tag)) ::
        (nodes.dropWhile (!·.is tag)).filter (!·.is tag) := by
  have hothers : nodes.dropWhile (!·.is tag) ≠ [] := by
    rw [ne_eq, List.dropWhile_eq_nil_iff]
    intro hnone
    obtain ⟨child, hchild, htag⟩ := List.countP_pos_iff.mp hsome
    have hother := hnone child hchild
    rw [htag] at hother
    cases hother
  have hbefore : (nodes.takeWhile (!·.is tag)).filter (·.is tag) = [] := by
    rw [List.filter_eq_nil_iff]
    intro child hchild
    simpa using List.mem_takeWhile_imp hchild
  have hgathered : nodes.filter (·.is tag) =
      (nodes.dropWhile (!·.is tag)).filter (·.is tag) := by
    conv_lhs => rw [← List.takeWhile_append_dropWhile (p := (!·.is tag)) (l := nodes)]
    rw [List.filter_append, hbefore, List.nil_append]
  rw [gather, if_neg (by omega), List.span_eq_takeWhile_dropWhile, hgathered]
  split
  · rename_i hnone
    cases hothers (Prod.mk.inj hnone).2
  · rename_i hsplit
    obtain ⟨hbefore, hafter⟩ := Prod.mk.inj hsplit
    rw [hbefore, hafter]

namespace Java

/-- The kind of declaration that a raw node with the tag becomes. -/
def declKind? : JavaRawTag → Option DeclKind
  | .declPackage => some .package
  | .declAnnotationElement => some .annotationElement
  | .declReceivedParameter => some .receiverParameter
  | .declCatchParameter => some .catchParameter
  | _ => none

/-- The nodes are those that were given, but two or more `TYPE` nodes are replaced by one
`TYPE_UNION` that holds them, where the first of them stood. -/
structure Unites (given below : List Node) : Prop where
  few : given.countP (·.is .type) < 2 → below = given
  several : 2 ≤ given.countP (·.is .type) → ∃ before union after,
    below = before ++ union :: after ∧ union.is .typeUnion = true ∧
    union.children = given.filter (·.is .type) ∧
    before = given.takeWhile (!·.is .type) ∧ before ++ after = given.filter (!·.is .type)

theorem unites_gather (given : List Node) : Unites given (gather .type .typeUnion 2 given) where
  few := gather_of_countP_lt
  several := by
    intro hseveral
    refine ⟨_, _, _, gather_of_le_countP .typeUnion hseveral (by omega), rfl, rfl, rfl, ?_⟩
    have hbefore : (given.takeWhile (!·.is .type)).filter (!·.is .type) =
        given.takeWhile (!·.is .type) := by
      rw [List.filter_eq_self]
      exact fun child => List.mem_takeWhile_imp
    conv_rhs => rw [← List.takeWhile_append_dropWhile (p := (!·.is .type)) (l := given)]
    rw [List.filter_append, hbefore]

/-- At most one type is left. -/
theorem Unites.countP_le_one {given below : List Node} (hunites : Unites given below) :
    below.countP (·.is .type) ≤ 1 := by
  by_cases hfew : given.countP (·.is .type) < 2
  · rw [hunites.few hfew]
    omega
  · obtain ⟨before, union, after, rfl, hunion, -, -, hothers⟩ := hunites.several (by omega)
    have hnone : (before ++ after).countP (·.is .type) = 0 := by
      rw [hothers, List.countP_eq_zero]
      simp
    have htype : union.is .type = false :=
      is_eq_false (show SharedTag.type ≠ .typeUnion by decide) hunion
    rw [List.countP_append] at hnone
    rw [List.countP_append, List.countP_cons, htype]
    simp only [Bool.false_eq_true, if_false]
    omega

/-! ## The four rules -/

/-- The declaration of the given kind that a raw node stands for. -/
structure DeclaresAs (kind : DeclKind) (node declared : Node) : Prop where
  tag : declared.tag = .shared .decl
  span : declared.span = node.span
  /-- It binds the name of the raw node and no other; only a receiver needs none. -/
  name : ∃ name, declared.boundNames = [name] ∧
    (node.boundName? = some name ∨
      kind = .receiverParameter ∧ node.boundName? = none ∧ name = "this")
  /-- The kind stands before the children of the raw node. -/
  children : ∃ props below, declared.children = props :: below ∧ props.is .props = true ∧
    props.text = some kind.name ∧
    (kind ≠ .catchParameter → below = node.children) ∧
    (kind = .catchParameter →
      Unites node.children below ∧ below.countP (·.is .type) ≤ 1)

theorem canonical_declares {tag : JavaRawTag} {kind : DeclKind} (hkind : declKind? tag = some kind)
    (haccepted : canonical tag node = .ok result) :
    ∃ name below, declare kind name node below = result ∧
      (node.boundName? = some name ∨
        kind = .receiverParameter ∧ node.boundName? = none ∧ name = "this") ∧
      (kind ≠ .catchParameter → below = node.children) ∧
      (kind = .catchParameter → Unites node.children below) := by
  cases tag <;> cases hkind <;> rw [canonical] at haccepted
  case declPackage | declAnnotationElement =>
    obtain ⟨name, hname, hresult⟩ := declaration_ok_iff.mp haccepted
    rw [Option.or_none] at hname
    exact ⟨name, node.children, hresult, .inl hname, fun _ => rfl,
      fun hcatch => absurd hcatch (by decide)⟩
  case declReceivedParameter =>
    obtain ⟨name, hname, hresult⟩ := declaration_ok_iff.mp haccepted
    refine ⟨name, node.children, hresult, ?_, fun _ => rfl,
      fun hcatch => absurd hcatch (by decide)⟩
    cases hbound : node.boundName? with
    | some bound =>
        rw [hbound, Option.some_or] at hname
        exact .inl hname
    | none =>
        rw [hbound, Option.none_or, Option.some.injEq] at hname
        exact .inr ⟨rfl, rfl, hname.symm⟩
  case declCatchParameter =>
    obtain ⟨-, name, hname, hresult⟩ := catchParameter_ok_iff.mp haccepted
    rw [boundName?_gather] at hname
    exact ⟨name, _, hresult, .inl hname, fun hother => absurd rfl hother,
      fun _ => unites_gather node.children⟩

/-- Whatever one of the four rules accepts becomes one declaration.  It binds exactly the name of
the raw node, also if `NAME` nodes are left below it, and its children are those of the raw node
after a mark of its kind; only several types of a `catch` parameter become one union. -/
theorem reduce_declares {tag : JavaRawTag} {kind : DeclKind} {produced : List Node}
    (hkind : declKind? tag = some kind)
    (haccepted : reduce .java (.java tag) node = .ok produced) :
    ∃ declared, produced = [declared] ∧ DeclaresAs kind node declared := by
  obtain ⟨result, rfl, hcanonical⟩ := reduce_java_ok_iff.mp haccepted
  obtain ⟨name, below, rfl, hname, hkept, hunites⟩ := canonical_declares hkind hcanonical
  refine ⟨_, rfl, rfl, rfl, ⟨name, rfl, hname⟩, _, below, rfl, rfl, rfl, hkept, fun hcatch => ?_⟩
  exact ⟨hunites hcatch, (hunites hcatch).countP_le_one⟩

/-- A `catch` parameter with two types around one of its two names. -/
def caughtTwice : Node :=
  ⟨.raw (.java .declCatchParameter), ⟨0, 20, 1, 1⟩, none, none,
    [.leaf .modifier ⟨0, 2, 1, 1⟩, .leaf .type ⟨3, 6, 1, 4⟩,
      (Node.leaf .ident ⟨7, 8, 1, 8⟩).withText "e", .leaf .type ⟨9, 12, 1, 10⟩,
      (Node.leaf .ident ⟨13, 14, 1, 14⟩).withText "f"], none⟩

theorem reduce_declares_caughtTwice :
    ∃ declared, reduce .java (.java .declCatchParameter) caughtTwice = .ok [declared] ∧
      declared.boundNames = ["e"] ∧
      declared.children.map (·.tag) =
        [.shared .props, .shared .modifier, .shared .typeUnion, .shared .ident, .shared .ident] ∧
      DeclaresAs .catchParameter caughtTwice declared := by
  have haccepted : reduce .java (.java .declCatchParameter) caughtTwice =
      .ok [declare .catchParameter "e" caughtTwice
        (gather .type .typeUnion 2 caughtTwice.children)] := rfl
  obtain ⟨declared, hproduced, hdeclares⟩ := reduce_declares rfl haccepted
  cases hproduced
  exact ⟨_, haccepted, rfl, by decide, hdeclares⟩

end Java

end CanonTree.Rule
