import CanonTree.Json.Codec
import CanonTree.Proofs.Forest
import Mathlib.Data.List.Nodup

/-!
# Trees come back from JSON

A form restores a value if it reads back the value from what it writes, whatever room it
is given, as long as the containers of the written value fit into it.  Names of choices,
objects with given fields and values that may be absent are treated once for all forms;
the forms of tags, operators, spans and scope identifiers are put together from them, and
whole trees follow by induction over forests.

An identifier is written as two words, and a binding holds the position of its node as a
word, so those are the values that come back; no identifier or position of another kind
can be had from a source, a text or an arena that fits into memory.
-/

namespace CanonTree

open Json

/-! ## Forms that restore what they write -/

namespace Json

variable {α : Type}

/-- The form reads back the value from what it writes for it, given room for all its containers. -/
def Form.Restores (form : Form α) (value : α) : Prop :=
  ∀ room, (form.write value).nesting ≤ room → form.read? room (form.write value) = some value

/-- Values that are restored are told apart by what is written for them. -/
theorem Form.eq_of_write_eq {form : Form α} {left right : α} (hleft : form.Restores left)
    (hright : form.Restores right) (hwrite : form.write left = form.write right) :
    left = right := by
  have hread := hleft _ (Nat.le_refl _)
  rw [hwrite, hright _ (Nat.le_refl _)] at hread
  exact (Option.some.inj hread).symm

theorem restores_word (value : UInt32) : Form.word.Restores value := by
  intro room _
  have hbound : value.toNat < wordBound := value.toNat_lt
  simp [Form.word, Form.natural, hbound]

theorem restores_text (text : String) : Form.text.Restores text := by
  intro room _
  rfl

/-- An absent value is told from one that is there, as long as nothing that is there is written
`null`. -/
theorem restores_nullable {form : Form α} {value : Option α}
    (hrestores : ∀ content, value = some content →
      form.Restores content ∧ form.write content ≠ .null) :
    form.nullable.Restores value := by
  intro room hroom
  cases value with
  | none => rfl
  | some content =>
      obtain ⟨hcontent, hwritten⟩ := hrestores content rfl
      have hread := hcontent room hroom
      -- what is written is not `null`, so it is left to the form of the content
      simp only [Form.nullable]
      rw [hread]
      rfl

/-! ## Names -/

/-- Among values with different names, exactly one has a given name. -/
theorem filter_name {name : α → String} {all : List α} (hdistinct : (all.map name).Nodup)
    {value : α} (hvalue : value ∈ all) : all.filter (name · == name value) = [value] := by
  obtain ⟨before, after, rfl⟩ := List.append_of_mem hvalue
  rw [List.map_append, List.map_cons, List.nodup_append, List.nodup_cons] at hdistinct
  obtain ⟨-, ⟨hafter, -⟩, hbefore⟩ := hdistinct
  have hnone : ∀ other ∈ before ++ after, ¬(name other == name value) = true := by
    intro other hother heq
    rw [beq_iff_eq] at heq
    obtain hother | hother := List.mem_append.mp hother
    · exact hbefore (name other) (List.mem_map_of_mem hother) (name value) (by simp) heq
    · exact hafter (heq ▸ List.mem_map_of_mem hother)
  rw [List.filter_append, List.filter_cons_of_pos (by simp),
    List.filter_eq_nil_iff.mpr fun other hother => hnone other (by simp [hother]),
    List.filter_eq_nil_iff.mpr fun other hother => hnone other (by simp [hother])]
  rfl

theorem find?_name {name : α → String} {all : List α} (hdistinct : (all.map name).Nodup)
    {value : α} (hvalue : value ∈ all) : all.find? (name · == name value) = some value := by
  rw [← List.head?_filter, filter_name hdistinct hvalue]
  rfl

/-! ## Choices -/

theorem restores_choice {name : α → String} {ofName? : String → Option α} {value : α}
    (hname : ofName? (name value) = some value) : (Form.choice name ofName?).Restores value := by
  intro room _
  simp [Form.choice, readName?, readChoice?, Value.text, hname]

theorem nesting_carried (name : String) (content : Value) :
    (carried name content).nesting = content.nesting + 1 := by
  simp [carried, Value.record, Value.nesting, Value.nestingFields]

/-- What a choice carries is found with the room that is left inside, and read back. -/
theorem exists_readCarried? {form : Form α} {value : α} (hrestores : form.Restores value)
    {name : String} {room : Nat} (hroom : (carried name (form.write value)).nesting ≤ room) :
    ∃ inside, readCarried? room (carried name (form.write value)) =
        some (name, inside, form.write value) ∧
      form.read? inside (form.write value) = some value := by
  rw [nesting_carried] at hroom
  obtain ⟨inside, rfl⟩ := Nat.exists_eq_add_of_le' (Nat.le_of_add_left_le hroom)
  exact ⟨inside, rfl, hrestores inside (by omega)⟩

/-! ## Structures -/

theorem mapM_eq_some_map {β γ : Type} {f : β → Option γ} {g : β → γ} {list : List β}
    (heach : ∀ element ∈ list, f element = some (g element)) :
    list.mapM f = some (list.map g) := by
  induction list with
  | nil => rfl
  | cons element list ih =>
      rw [List.mapM_cons, heach element (by simp),
        ih fun other hother => heach other (by simp [hother])]
      rfl

/-- The fields of an object are found by their names, if these differ. -/
theorem selectFields?_plain {fields : List (String × Value)}
    (hdistinct : (fields.map (·.1)).Nodup) (closed : Bool) :
    selectFields? (fields.map (·.1)) closed
        (fields.map fun field => (Quoted.plain field.1, field.2)) =
      some (fields.map fun field => some field.2) := by
  have hknown : fields.any (fun field => !(fields.map (·.1)).contains field.1) = false := by
    rw [List.any_eq_false]
    intro field hfield
    simp [List.mem_map_of_mem hfield]
  rw [selectFields?, List.mapM_map, mapM_eq_some_map (g := id)]
  · simp only [List.map_id, Option.bind_eq_bind, Option.bind_some, hknown, Bool.and_false,
      Bool.false_eq_true, if_false]
    rw [List.mapM_map]
    apply mapM_eq_some_map
    intro field hfield
    rw [Function.comp_apply, filter_name hdistinct hfield]
  · intro field _
    rfl

theorem Form.Restores.required? {form : Form α} {value : α} (hrestores : form.Restores value)
    {room : Nat} (hroom : (form.write value).nesting ≤ room) :
    form.required? room (some (form.write value)) = some value :=
  hrestores room hroom

theorem Form.Restores.optional? {form : Form α} {value : Option α}
    (hrestores : form.nullable.Restores value) {room : Nat}
    (hroom : (form.nullable.write value).nesting ≤ room) :
    form.optional? room (some (form.nullable.write value)) = some value :=
  hrestores room hroom

theorem required?_natural {bound value : Nat} (hvalue : value < bound) (room : Nat) :
    (Form.natural bound).required? room (some (.natural value)) = some value := by
  simp [Form.required?, Form.natural, hvalue]

theorem nesting_le_nestingFields {fields : List (Quoted × Value)} {field : Quoted × Value}
    (hfield : field ∈ fields) : field.2.nesting ≤ Value.nestingFields fields := by
  induction fields with
  | nil => simp at hfield
  | cons first fields ih =>
      rw [Value.nestingFields]
      obtain rfl | hfield := List.mem_cons.mp hfield
      · exact Nat.le_max_left _ _
      · exact Nat.le_trans (ih hfield) (Nat.le_max_right _ _)

/-- The fields of a structure are all found, and there is room for each of them inside. -/
theorem exists_readFieldsOf?_record {fields : List (String × Value)} {room : Nat}
    (hroom : (Value.record fields).nesting ≤ room) (hdistinct : (fields.map (·.1)).Nodup)
    (strictness : Strictness) :
    ∃ inside, room = inside + 1 ∧ (∀ field ∈ fields, field.2.nesting ≤ inside) ∧
      readFieldsOf? (fields.map (·.1)) strictness (inside + 1) (.record fields) =
        some (inside, fields.map fun field => some field.2) := by
  rw [Value.record, Value.nesting] at hroom
  obtain ⟨inside, rfl⟩ := Nat.exists_eq_add_of_le' (Nat.le_of_add_left_le hroom)
  refine ⟨inside, rfl, ?_, ?_⟩
  · intro field hfield
    have hmem := List.mem_map_of_mem (f := fun field => (Quoted.plain field.1, field.2)) hfield
    exact Nat.le_trans (nesting_le_nestingFields hmem) (Nat.le_of_add_le_add_right hroom)
  · rw [Value.record, readFieldsOf?, selectFields?_plain hdistinct]
    rfl

end Json

/-! ## Tags and operators -/

theorem SharedTag.restores_form (tag : SharedTag) : SharedTag.form.Restores tag :=
  restores_choice (find?_name (by decide +kernel) (by cases tag <;> decide))

theorem JavaTag.restores_form (tag : JavaTag) : JavaTag.form.Restores tag :=
  restores_choice (find?_name (by decide +kernel) (by cases tag <;> decide))

theorem JavaRawTag.restores_form (tag : JavaRawTag) : JavaRawTag.form.Restores tag :=
  restores_choice (find?_name (by decide +kernel) (by cases tag <;> decide))

theorem EcmaRawTag.restores_form (tag : EcmaRawTag) : EcmaRawTag.form.Restores tag :=
  restores_choice (find?_name (by decide +kernel) (by cases tag <;> decide))

theorem BinaryOperator.restores_form (operator : BinaryOperator) :
    BinaryOperator.form.Restores operator :=
  restores_choice (find?_name (by decide +kernel) (by cases operator <;> decide))

theorem UnaryOperator.restores_form (operator : UnaryOperator) :
    UnaryOperator.form.Restores operator :=
  restores_choice (find?_name (by decide +kernel) (by cases operator <;> decide))

theorem RawTag.restores_form (tag : RawTag) : RawTag.form.Restores tag := by
  intro room hroom
  cases tag with
  | java tag =>
      obtain ⟨inside, hcarried, hread⟩ := exists_readCarried? tag.restores_form hroom
      simp [RawTag.form, hcarried, hread]
  | ecma tag =>
      obtain ⟨inside, hcarried, hread⟩ := exists_readCarried? tag.restores_form hroom
      simp [RawTag.form, hcarried, hread]

theorem Tag.restores_form (tag : Tag) : Tag.form.Restores tag := by
  intro room hroom
  cases tag with
  | shared tag =>
      obtain ⟨inside, hcarried, hread⟩ := exists_readCarried? tag.restores_form hroom
      simp [Tag.form, hcarried, hread]
  | java tag =>
      obtain ⟨inside, hcarried, hread⟩ := exists_readCarried? tag.restores_form hroom
      simp [Tag.form, hcarried, hread]
  | raw tag =>
      obtain ⟨inside, hcarried, hread⟩ := exists_readCarried? tag.restores_form hroom
      simp [Tag.form, hcarried, hread]

theorem Operator.restores_form (operator : Operator) : Operator.form.Restores operator := by
  intro room hroom
  cases operator with
  | binary operator =>
      obtain ⟨inside, hcarried, hread⟩ := exists_readCarried? operator.restores_form hroom
      simp [Operator.form, hcarried, hread]
  | unary operator =>
      obtain ⟨inside, hcarried, hread⟩ := exists_readCarried? operator.restores_form hroom
      simp [Operator.form, hcarried, hread]

/-! ## Spans, scope identifiers and bindings -/

theorem Span.restores_form (span : Span) : Span.form.Restores span := by
  intro room hroom
  obtain ⟨inside, rfl, hinside, hfields⟩ := exists_readFieldsOf?_record hroom (by simp) {}
  simp only [List.forall_mem_cons] at hinside
  obtain ⟨hstart, hstop, hline, hcolumn, -⟩ := hinside
  simp only [List.map_cons, List.map_nil] at hfields
  simp only [Span.form, hfields, (restores_word _).required? hstart,
    (restores_word _).required? hstop, (restores_word _).required? hline,
    (restores_word _).required? hcolumn]
  rfl

/-- The index and the version that the identifier is written with are words, and the index is not
the one that is kept for the null identifier. -/
def ScopeId.FitsWords : ScopeId → Prop
  | .null => True
  | .slot index age => index < nullIndex ∧ 2 * age + 1 < wordBound

theorem ScopeId.restores_form {id : ScopeId} (hfits : id.FitsWords) :
    ScopeId.form.Restores id := by
  intro room hroom
  cases id with
  | null =>
      obtain ⟨inside, rfl, -, hfields⟩ := exists_readFieldsOf?_record hroom (by simp) {}
      simp only [List.map_cons, List.map_nil] at hfields
      have hindex : nullIndex < wordBound := by decide
      have hversion : 1 < wordBound := by decide
      simp only [ScopeId.form, hfields, required?_natural hindex, required?_natural hversion]
      rfl
  | slot index age =>
      obtain ⟨hindex, hversion⟩ := hfits
      obtain ⟨inside, rfl, -, hfields⟩ := exists_readFieldsOf?_record hroom (by simp) {}
      simp only [List.map_cons, List.map_nil] at hfields
      have hword : index < wordBound := Nat.lt_of_lt_of_le hindex (Nat.sub_le _ _)
      have hage : (2 * age + 1) / 2 = age := by omega
      simp [ScopeId.form, hfields, required?_natural hword, required?_natural hversion, hage,
        Nat.ne_of_lt hindex]

theorem Binding.restores_form {binding : Binding} (hnode : binding.node < longBound) :
    Binding.form.Restores binding := by
  intro room hroom
  obtain ⟨inside, rfl, hinside, hfields⟩ := exists_readFieldsOf?_record hroom (by simp) {}
  simp only [List.forall_mem_cons] at hinside
  obtain ⟨hname, htag, hspan, -⟩ := hinside
  simp only [List.map_cons, List.map_nil] at hfields
  simp only [Binding.form, hfields, (restores_text _).required? hname,
    (Tag.restores_form _).required? htag, (Span.restores_form _).required? hspan,
    required?_natural hnode]
  rfl

/-! ## Trees -/

namespace Node

/-- Every scope identifier in the tree is held by the words that it is written with. -/
def FitsWords (node : Node) : Prop :=
  ∀ inner ∈ node.toList, ∀ id, inner.scope = some id → id.FitsWords

theorem toJson_eq (node : Node) :
    node.toJson =
      .record [("op", Tag.form.write node.tag), ("span", Span.form.write node.span),
        ("text", Form.text.nullable.write node.text),
        ("operator", Operator.form.nullable.write node.operator),
        ("children", .array (toJsonAll node.children)),
        ("scope", ScopeId.form.nullable.write node.scope)] := by
  cases node
  rfl

theorem restores_nullable_text (text : Option String) : Form.text.nullable.Restores text :=
  restores_nullable fun content _ => ⟨restores_text content, nofun⟩

theorem restores_nullable_operator (operator : Option Operator) :
    Operator.form.nullable.Restores operator := by
  apply restores_nullable
  intro content _
  exact ⟨content.restores_form, by cases content <;> nofun⟩

theorem restores_nullable_scope {scope : Option ScopeId}
    (hfits : ∀ id, scope = some id → id.FitsWords) : ScopeId.form.nullable.Restores scope := by
  apply restores_nullable
  intro id hscope
  exact ⟨ScopeId.restores_form (hfits id hscope), by cases id <;> nofun⟩

/-- A node comes back if its children do, in the room that is left inside the array of them. -/
theorem restores_of_children {node : Node}
    (hscope : ∀ id, node.scope = some id → id.FitsWords)
    (hchildren : ∀ room, Value.nestingAll (toJsonAll node.children) ≤ room →
      (toJsonAll node.children).mapM (ofJson? room) = some node.children) :
    form.Restores node := by
  intro room hroom
  simp only [form, toJson_eq] at hroom ⊢
  obtain ⟨inside, rfl, hinside, hfields⟩ := exists_readFieldsOf?_record hroom (by simp) {}
  simp only [List.forall_mem_cons, Value.nesting] at hinside
  obtain ⟨htag, hspan, htext, hoperator, harray, hid, -⟩ := hinside
  obtain ⟨room, rfl⟩ := Nat.exists_eq_add_of_le' (Nat.le_of_add_left_le harray)
  simp only [List.map_cons, List.map_nil] at hfields
  simp only [ofJson?, fieldNames, hfields, (Tag.restores_form _).required? htag,
    (Span.restores_form _).required? hspan, (restores_nullable_text _).optional? htext,
    (restores_nullable_operator _).optional? hoperator, hchildren room (by omega),
    (restores_nullable_scope hscope).optional? hid]
  cases node
  rfl

/-- By induction over forests: whatever room there is for them, all trees come back. -/
theorem mapM_ofJson?_toJsonAll (nodes : List Node)
    (hfits : ∀ inner ∈ preorderAll nodes, ∀ id, inner.scope = some id → id.FitsWords) :
    ∀ room, Value.nestingAll (toJsonAll nodes) ≤ room →
      (toJsonAll nodes).mapM (ofJson? room) = some nodes := by
  induction nodes using forest_induction with
  | nil =>
      intro room _
      rfl
  | cons node nodes hchildren hnodes =>
      intro room hroom
      simp only [preorderAll, preorder_eq, List.mem_append, List.mem_cons] at hfits
      rw [toJsonAll, Value.nestingAll, Nat.max_le] at hroom
      have hnode : form.Restores node :=
        restores_of_children (hfits node (by simp))
          (hchildren fun inner hinner => hfits inner (by simp [hinner]))
      have hothers := hnodes (fun inner hinner => hfits inner (by simp [hinner])) room hroom.2
      have hfirst : ofJson? room node.toJson = some node := hnode room hroom.1
      rw [toJsonAll, List.mapM_cons, hfirst, hothers]
      rfl

theorem restores_form {node : Node} (hfits : node.FitsWords) : form.Restores node := by
  rw [FitsWords, toList_eq_preorder, preorder_eq, List.forall_mem_cons] at hfits
  exact restores_of_children hfits.1 (mapM_ofJson?_toJsonAll _ hfits.2)

end Node

/-- Nothing is lost in JSON: every tree and every binding is read back from what is written for
it, so two different ones are never written alike. -/
theorem restores_trees_and_bindings :
    (∀ node : Node, node.FitsWords → Node.form.Restores node) ∧
      (∀ left right : Node, left.FitsWords → right.FitsWords →
        left.toJson = right.toJson → left = right) ∧
      (∀ binding : Binding, binding.node < longBound → Binding.form.Restores binding) ∧
      ∀ left right : Binding, left.node < longBound → right.node < longBound →
        Binding.form.write left = Binding.form.write right → left = right := by
  refine ⟨fun node hfits => Node.restores_form hfits, ?_,
    fun binding hnode => Binding.restores_form hnode, ?_⟩
  · intro left right hleft hright hwritten
    exact Form.eq_of_write_eq (Node.restores_form hleft) (Node.restores_form hright) hwritten
  · intro left right hleft hright hwritten
    exact Form.eq_of_write_eq (Binding.restores_form hleft) (Binding.restores_form hright) hwritten

/-- Tags of one name in several vocabularies, the tag of nothing beside absent fields, an empty
text, the null identifier and the last identifier there is. -/
def Node.lookAlikes : Node :=
  ⟨.raw (.java .typeCast), ⟨5, 2, 0, 0⟩, some "", none,
    [⟨.shared .typeCast, ⟨0, 0, 0, 0⟩, none, some (.unary .not), [], some .null⟩,
     ⟨.raw (.java .directiveUses), ⟨1, 1, 1, 1⟩, none, some (.binary .add),
       [⟨.java .directiveUses, ⟨1, 1, 1, 1⟩, none, none, [], none⟩],
       some (.slot 0xFFFFFFFE 0x7FFFFFFF)⟩,
     ⟨.shared .none, ⟨0, 0, 0, 0⟩, none, none, [], none⟩],
    some (.slot 1 0)⟩

theorem restores_lookAlikes :
    (∀ room, Node.lookAlikes.toJson.nesting ≤ room →
        Node.ofJson? room Node.lookAlikes.toJson = some Node.lookAlikes) ∧
      Node.lookAlikes.toJson ≠ Node.toJson { Node.lookAlikes with text := none } ∧
      (∀ room, 2 ≤ room → Binding.form.read? room
          (Binding.form.write ⟨"", .shared .none, ⟨0, 0, 0, 0⟩, longBound - 1⟩) =
        some ⟨"", .shared .none, ⟨0, 0, 0, 0⟩, longBound - 1⟩) ∧
      Binding.form.write ⟨"", .java .directiveUses, ⟨0, 0, 0, 0⟩, 0⟩ ≠
        Binding.form.write ⟨"", .raw (.java .directiveUses), ⟨0, 0, 0, 0⟩, 0⟩ := by
  obtain ⟨hnode, htrees, hbinding, hbindings⟩ := restores_trees_and_bindings
  have hfits : ∀ text, Node.FitsWords { Node.lookAlikes with text := text } := by
    intro text
    rw [Node.FitsWords, Node.toList_eq_preorder]
    simp [Node.lookAlikes, Node.preorder, Node.preorderAll, ScopeId.FitsWords, ScopeId.nullIndex,
      wordBound]
  refine ⟨hnode _ (hfits _), ?_, ?_, ?_⟩
  · intro hsame
    have hequal := htrees _ _ (hfits _) (hfits _) hsame
    simp [Node.lookAlikes] at hequal
  · intro room hroom
    exact hbinding _ (by decide) room hroom
  · intro hsame
    have hequal := hbindings _ _ (by decide) (by decide) hsame
    simp at hequal

end CanonTree
