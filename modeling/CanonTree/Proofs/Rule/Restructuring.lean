import CanonTree.Proofs.Rule.Acceptance

/-!
# Shapes of restructured nodes

Five rules of Java put the children of a raw node into another order: method calls,
constructor calls, qualified creations, array creations and casts.  For each of them a
definition here says what stands where in the result, in terms of the children as they are
given and of their places, so that what is left over is left in source order however often
a tag is repeated.  Each rule gives exactly the nodes of its shape.
-/

namespace CanonTree.Rule.Java

variable {node result : Node} {nodes : List Node}

/-! ## The shapes -/

/-- `CALL [CHAIN, TYPE_ARGUMENTS?, ARGUMENTS]`, where the chain ends with the last `NAME` and starts
with all children that are not used elsewhere. -/
def IsMethodCall (node result : Node) : Prop :=
  let types := firstOccurrence? .typeArguments node.children
  let arguments := firstOccurrence? .arguments node.children
  ∃ method chain,
    lastOccurrence? .ident node.children = some method ∧
    chain = apartFrom (method :: arguments.toList ++ types.toList) node.children ++ [method.1] ∧
    2 ≤ chain.length ∧
    result = .branch .call node.span
      (.branch .chain (Span.coverAll (chain.map (·.span))) chain ::
        (types.map (·.1)).toList ++
        [(arguments.map (·.1)).getD (.leaf .arguments node.span)])

/-- `NEW [CHAIN [qualifier, TYPE], TYPE_ARGUMENTS?, ARGUMENTS, MEMBERS?]`, where the qualifier is the
first child.  An `ARGUMENTS` child is used only if nothing else is left; arguments that are not
wrapped are all that is left. -/
def IsQualifiedCreation (node result : Node) : Prop :=
  ∃ qualifier others created arguments,
    node.children = qualifier :: others ∧ qualifier.is .type = false ∧
    firstOccurrence? .type others = some created ∧
    let types := firstOccurrence? .typeArguments others
    let members := firstOccurrence? .members others
    let rest := apartFrom (members.toList ++ types.toList ++ [created]) others
    (rest = [arguments] ∧ arguments.is .arguments = true ∨
      ¬Among .arguments rest ∧ rest ≠ [] ∧
        arguments = .branch .arguments (Span.coverAll (rest.map (·.span))) rest ∨
      rest = [] ∧ arguments = .branch .arguments node.span []) ∧
    result = .branch .newExpr node.span
      (.branch .chain (Span.coverAll [qualifier.span, created.1.span]) [qualifier, created.1] ::
        (types.map (·.1)).toList ++ arguments :: (members.map (·.1)).toList)

def NamesConstructor (child : Node) : Prop :=
  child.is .thisRef = true ∨ child.is .superRef = true

/-- `CALL [callee, TYPE_ARGUMENTS…, ARGUMENTS, others…]`.  The callee is the first `THIS` or `SUPER`,
in a chain with the qualifiers before it if there are any; type arguments are those before it, and
the arguments and the others come after it. -/
def IsConstructorCall (node result : Node) : Prop :=
  ∃ before target after,
    node.children = before ++ target :: after ∧ NamesConstructor target ∧
    (∀ earlier ∈ before, ¬NamesConstructor earlier) ∧
    let qualifiers := before.filter (!·.is .typeArguments)
    let chain := qualifiers ++ [target]
    let arguments := firstOccurrence? .arguments after
    result = .branch .call node.span
      ((if qualifiers = [] then target
          else .branch .chain (Span.coverAll (chain.map (·.span))) chain) ::
        before.filter (·.is .typeArguments) ++
        (arguments.map (·.1)).getD (.leaf .arguments node.span) ::
        apartFrom arguments.toList after)

/-- The children of an array creation are told apart one by one: each is a dimension, holds
dimensions, or is neither. -/
inductive Dimensioned : List Node → List Node → List Node → Prop where
  | nil : Dimensioned [] [] []
  | dim {child : Node} {nodes dimensions rest : List Node} (hdim : child.is .arrayDim = true)
      (hothers : Dimensioned nodes dimensions rest) :
      Dimensioned (child :: nodes) (child :: dimensions) rest
  | dims {child : Node} {nodes dimensions rest : List Node} (hdims : child.is .arrayDims = true)
      (hothers : Dimensioned nodes dimensions rest) :
      Dimensioned (child :: nodes) (child.children ++ dimensions) rest
  | other {child : Node} {nodes dimensions rest : List Node} (hdim : child.is .arrayDim = false)
      (hdims : child.is .arrayDims = false) (hothers : Dimensioned nodes dimensions rest) :
      Dimensioned (child :: nodes) dimensions (child :: rest)

/-- `NEW [TYPE, ARRAY_DIMS?, rest…]`, where all dimensions are in the one `ARRAY_DIMS`, and it is
there only if there are any. -/
def IsArrayCreation (node result : Node) : Prop :=
  ∃ element dimensions rest,
    firstOccurrence? .type node.children = some element ∧
    Dimensioned (apartFrom [element] node.children) dimensions rest ∧
    (∀ child ∈ rest, child.is .arrayDim = false ∧ child.is .arrayDims = false) ∧
    ¬(dimensions = [] ∧ rest = []) ∧
    result = .branch .newExpr node.span
      (element.1 ::
        (if dimensions = [] then []
          else [.branch .arrayDims (Span.coverAll (dimensions.map (·.span))) dimensions]) ++ rest)

/-- `TYPE_CAST [target, operand]`, where the operand is the last child, and the target is the only
other child or else a `TYPE_INTERSECTION` of all others. -/
def IsCast (node result : Node) : Prop :=
  ∃ targets target operand,
    node.children = targets ++ [operand] ∧
    (targets = [target] ∨ 2 ≤ targets.length ∧
      target = .branch .typeIntersection (Span.coverAll (targets.map (·.span))) targets) ∧
    result = ⟨.shared .typeCast, node.span, node.text, none, [target, operand], none⟩

/-! ## Method calls -/

theorem methodCall_iff : methodCall node = .ok result ↔ IsMethodCall node result := by
  rw [methodCall_ok_iff, IsMethodCall, first?_eq_firstOccurrence?, first?_eq_firstOccurrence?]
  constructor
  · rintro ⟨_, _, rfl, hlast, hreceiver, rfl⟩
    rw [last?_method] at hlast
    obtain ⟨method, hmethod, rfl⟩ := Option.map_eq_some_iff.mp hlast
    rw [withoutLast_method, hmethod] at hreceiver ⊢
    refine ⟨method, _, rfl, rfl, ?_, rfl⟩
    have hpositive := List.length_pos_iff.mpr hreceiver
    rw [List.length_append, List.length_singleton]
    exact Nat.succ_le_succ hpositive
  · rintro ⟨method, _, hmethod, rfl, hlength, rfl⟩
    refine ⟨_, method.1, rfl, ?_, ?_, ?_⟩
    · rw [last?_method, hmethod]
      rfl
    · rw [withoutLast_method, hmethod]
      rw [List.length_append, List.length_singleton] at hlength
      exact List.length_pos_iff.mp (Nat.le_of_succ_le_succ hlength)
    · rw [withoutLast_method, hmethod]
      rfl

/-! ## Qualified creations -/

/-- A node that is alone is all that is left once it is found and taken out. -/
theorem first?_and_withoutFirst_eq_nil_iff {tag : SharedTag} :
    first? tag nodes = some node ∧ withoutFirst tag nodes = [] ↔
      nodes = [node] ∧ node.is tag = true := by
  constructor
  · rintro ⟨hfirst, hnothing⟩
    have hperm := first?_append_withoutFirst_perm tag nodes
    rw [hfirst, hnothing] at hperm
    exact ⟨List.singleton_perm.mp hperm |>.symm, is_of_first? hfirst⟩
  · rintro ⟨rfl, htag⟩
    simp [first?, withoutFirst, htag]

theorem first?_eq_none_iff {tag : SharedTag} : first? tag nodes = none ↔ ¬Among tag nodes := by
  rw [← exists_first?_iff]
  cases first? tag nodes <;> simp

theorem creationArguments_iff {span : Span} :
    creationArguments span nodes = .ok result ↔
      nodes = [result] ∧ result.is .arguments = true ∨
      ¬Among .arguments nodes ∧ nodes ≠ [] ∧
        result = .branch .arguments (Span.coverAll (nodes.map (·.span))) nodes ∨
      nodes = [] ∧ result = .branch .arguments span [] := by
  rw [creationArguments_ok_iff, first?_and_withoutFirst_eq_nil_iff, first?_eq_none_iff]
  apply or_congr_right
  rw [eq_comm (b := result)]
  by_cases hnil : nodes = []
  · simp [hnil, Among, Node.leaf]
  · simp [hnil, wrap]

theorem qualifiedCreation_iff :
    qualifiedCreation node = .ok result ↔ IsQualifiedCreation node result := by
  simp only [qualifiedCreation_ok_iff, IsQualifiedCreation, creationArguments_iff,
    first?_eq_firstOccurrence?]
  constructor
  · rintro ⟨qualifier, others, _, arguments, hchildren, hqualifier, htype, harguments, rfl⟩
    obtain ⟨created, hcreated, rfl⟩ := Option.map_eq_some_iff.mp htype
    rw [withoutFirst_members_eq_apartFrom hcreated] at harguments
    exact ⟨qualifier, others, created, arguments, hchildren, hqualifier, hcreated, harguments, rfl⟩
  · rintro ⟨qualifier, others, created, arguments, hchildren, hqualifier, hcreated, harguments, rfl⟩
    rw [← withoutFirst_members_eq_apartFrom hcreated] at harguments
    exact ⟨qualifier, others, created.1, arguments, hchildren, hqualifier, by rw [hcreated]; rfl,
      harguments, rfl⟩

/-! ## Constructor calls -/

theorem namesConstructor_iff : NamesConstructor node ↔ isConstructor node = true :=
  Bool.or_eq_true_iff.symm

/-- The children are split at the first that names a constructor. -/
theorem span_isConstructor_iff {before after : List Node} {target : Node} :
    nodes.span (!isConstructor ·) = (before, target :: after) ↔
      nodes = before ++ target :: after ∧ NamesConstructor target ∧
        ∀ earlier ∈ before, ¬NamesConstructor earlier := by
  simp only [namesConstructor_iff, Bool.not_eq_true]
  constructor
  · intro hspan
    have hnodes := append_of_span hspan
    rw [List.span_eq_takeWhile_dropWhile, Prod.mk.injEq] at hspan
    obtain ⟨rfl, hafter⟩ := hspan
    refine ⟨hnodes.symm, ?_, ?_⟩
    · have hstop := List.head?_dropWhile_not (!isConstructor ·) nodes
      simpa [hafter] using hstop
    · intro earlier hearlier
      simpa using List.mem_takeWhile_imp hearlier
  · rintro ⟨rfl, htarget, hbefore⟩
    rw [List.span_eq_takeWhile_dropWhile, List.takeWhile_append_of_pos (by simpa using hbefore),
      List.dropWhile_append_of_pos (by simpa using hbefore)]
    simp [htarget]

theorem constructorCall_iff :
    constructorCall node = .ok result ↔ IsConstructorCall node result := by
  simp only [constructorCall_ok_iff, IsConstructorCall, span_isConstructor_iff, List.isEmpty_iff,
    first?_eq_firstOccurrence?, withoutFirst_eq_apartFrom]
  constructor
  · rintro ⟨before, target, after, ⟨hchildren, htarget, hbefore⟩, rfl⟩
    exact ⟨before, target, after, hchildren, htarget, hbefore, rfl⟩
  · rintro ⟨before, target, after, hchildren, htarget, hbefore, rfl⟩
    exact ⟨before, target, after, ⟨hchildren, htarget, hbefore⟩, rfl⟩

/-! ## Array creations -/

theorem Dimensioned.other_of_mem {dimensions rest : List Node}
    (hnodes : Dimensioned nodes dimensions rest) :
    ∀ child ∈ rest, child.is .arrayDim = false ∧ child.is .arrayDims = false := by
  induction hnodes with
  | nil => exact List.forall_mem_nil _
  | dim _ _ ih => exact ih
  | dims _ _ ih => exact ih
  | other hdim hdims _ ih => exact List.forall_mem_cons.mpr ⟨⟨hdim, hdims⟩, ih⟩

theorem dimensioned_iff {dimensions rest : List Node} :
    Dimensioned nodes dimensions rest ↔
      nodes.flatMap dimensionsOf = dimensions ∧
        nodes.filter (fun child => !child.is .arrayDim && !child.is .arrayDims) = rest := by
  constructor
  · intro hnodes
    induction hnodes with
    | nil => exact ⟨rfl, rfl⟩
    | dim hdim _ ih => simp [dimensionsOf, hdim, ih]
    | dims hdims _ ih =>
        have hdim := is_eq_false (show SharedTag.arrayDim ≠ .arrayDims by decide) hdims
        simp [dimensionsOf, hdim, hdims, ih]
    | other hdim hdims _ ih => simp [dimensionsOf, hdim, hdims, ih]
  · rintro ⟨rfl, rfl⟩
    induction nodes with
    | nil => exact .nil
    | cons child nodes ih =>
        rw [List.flatMap_cons, List.filter_cons, dimensionsOf]
        cases hdim : child.is .arrayDim with
        | true => exact .dim hdim ih
        | false =>
            cases hdims : child.is .arrayDims with
            | true => exact .dims hdims ih
            | false => exact .other hdim hdims ih

theorem arrayCreation_iff : arrayCreation node = .ok result ↔ IsArrayCreation node result := by
  simp only [arrayCreation_ok_iff, IsArrayCreation, List.isEmpty_iff, first?_eq_firstOccurrence?,
    withoutFirst_eq_apartFrom]
  constructor
  · rintro ⟨_, dimensions, rest, htype, hdimensions, hrest, hsome, rfl⟩
    obtain ⟨element, helement, rfl⟩ := Option.map_eq_some_iff.mp htype
    rw [helement, Option.toList_some] at hdimensions hrest
    have hothers := dimensioned_iff.mpr ⟨hdimensions, hrest⟩
    exact ⟨element, dimensions, rest, helement, hothers, hothers.other_of_mem, hsome, rfl⟩
  · rintro ⟨element, dimensions, rest, helement, hothers, -, hsome, rfl⟩
    obtain ⟨hdimensions, hrest⟩ := dimensioned_iff.mp hothers
    rw [helement]
    exact ⟨element.1, dimensions, rest, rfl, hdimensions, hrest, hsome, rfl⟩

/-! ## Casts -/

theorem cast_iff : cast node = .ok result ↔ IsCast node result := by
  rw [cast_ok_iff, IsCast]
  constructor
  · rintro ⟨first, others, operand, hreverse, rfl⟩
    have hchildren : node.children = (first :: others).reverse ++ [operand] := by
      rw [← List.reverse_cons, ← hreverse, List.reverse_reverse]
    refine ⟨_, _, operand, hchildren, ?_, rfl⟩
    cases others with
    | nil => exact .inl rfl
    | cons second others => exact .inr ⟨by simp, rfl⟩
  · rintro ⟨targets, target, operand, hchildren, rfl | ⟨hlength, rfl⟩, rfl⟩
    · exact ⟨target, [], operand, by rw [hchildren]; rfl, rfl⟩
    · -- two types at least, from the end as the rule reads them
      rw [← List.length_reverse] at hlength
      match hreverse : targets.reverse, hlength with
      | first :: second :: others, _ =>
          refine ⟨first, second :: others, operand, ?_, ?_⟩
          · rw [hchildren, List.reverse_append, hreverse]
            rfl
          · rw [← hreverse, List.reverse_reverse]
            rfl

/-! ## All shapes -/

/-- Each of the rules gives one node, and this has the shape that is written out for the rule;
and it gives any node of that shape. -/
theorem reduce_restructures (node : Node) (produced : List Node) :
    (reduce .java (.java .methodAccess) node = .ok produced ↔
        ∃ result, produced = [result] ∧ IsMethodCall node result) ∧
      (reduce .java (.java .newQualified) node = .ok produced ↔
        ∃ result, produced = [result] ∧ IsQualifiedCreation node result) ∧
      (reduce .java (.java .explicitCtorInvoke) node = .ok produced ↔
        ∃ result, produced = [result] ∧ IsConstructorCall node result) ∧
      (reduce .java (.java .arrayInstantiation) node = .ok produced ↔
        ∃ result, produced = [result] ∧ IsArrayCreation node result) ∧
      (reduce .java (.java .typeCast) node = .ok produced ↔
        ∃ result, produced = [result] ∧ IsCast node result) := by
  simp only [reduce_java_ok_iff, canonical, methodCall_iff, qualifiedCreation_iff,
    constructorCall_iff, arrayCreation_iff, cast_iff, and_self]

/-- Only the first `TYPE_ARGUMENTS` and the last `NAME` have places of their own; what repeats their
tags stays in the chain. -/
example :
    reduce .java (.java .methodAccess) ⟨.raw (.java .methodAccess), ⟨0, 9, 1, 1⟩, none, none,
      [.leaf .ident ⟨0, 1, 1, 1⟩, .leaf .typeArguments ⟨1, 2, 1, 2⟩, .leaf .ident ⟨2, 3, 1, 3⟩,
        .leaf .typeArguments ⟨3, 4, 1, 4⟩], none⟩ =
      .ok [.branch .call ⟨0, 9, 1, 1⟩
        [.branch .chain ⟨0, 4, 1, 1⟩
          [.leaf .ident ⟨0, 1, 1, 1⟩, .leaf .typeArguments ⟨3, 4, 1, 4⟩,
            .leaf .ident ⟨2, 3, 1, 3⟩],
        .leaf .typeArguments ⟨1, 2, 1, 2⟩, .leaf .arguments ⟨0, 9, 1, 1⟩]] := by
  decide +kernel

end CanonTree.Rule.Java
