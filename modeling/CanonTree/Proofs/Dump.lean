import CanonTree.Node.Dump
import CanonTree.Proofs.Dump.Recovery
import CanonTree.Proofs.Forest
import Mathlib.Data.List.Nodup

/-!
# Dumps tell trees apart

A dump shows of each node its tag, the symbol of its operator, its text, its line and column
and whether it opened a scope; and it shows where the node stands in its tree.  Two trees
have the same dump exactly if they agree in all of this.  Each line can be read
back, because its parts are told apart by the characters around them, whatever a text holds.
The depths of the lines then tell which nodes stand below which: those below a node are the
ones that follow it at greater depth.
-/

namespace CanonTree

open Text

/-! ## Names and symbols -/

theorem Tag.mem_all (tag : Tag) : tag ∈ all := by
  have hshared : ∀ tag : SharedTag, tag ∈ SharedTag.all := by
    intro tag
    cases tag <;> decide
  have hjava : ∀ tag : JavaTag, tag ∈ JavaTag.all := by
    intro tag
    cases tag <;> decide
  have hjavaRaw : ∀ tag : JavaRawTag, tag ∈ JavaRawTag.all := by
    intro tag
    cases tag <;> decide
  have hecmaRaw : ∀ tag : EcmaRawTag, tag ∈ EcmaRawTag.all := by
    intro tag
    cases tag <;> decide
  rw [all, RawTag.all]
  rcases tag with tag | tag | tag | tag <;> simp [hshared, hjava, hjavaRaw, hecmaRaw]

/-- No two tags have the same name, in whichever vocabulary they are. -/
theorem Tag.name_inj {left right : Tag} (hname : left.name = right.name) : left = right := by
  have hdistinct : (all.map name).Nodup := by decide +kernel
  exact List.inj_on_of_nodup_map hdistinct left.mem_all right.mem_all hname

/-- The name of a tag is one word. -/
theorem Tag.name_word (tag : Tag) :
    tag.name.toList ≠ [] ∧ ' ' ∉ tag.name.toList ∧ '\n' ∉ tag.name.toList := by
  have hwords : ∀ tag ∈ all,
      tag.name.toList ≠ [] ∧ ' ' ∉ tag.name.toList ∧ '\n' ∉ tag.name.toList := by
    decide +kernel
  exact hwords tag tag.mem_all

theorem Operator.symbol_marks (operator : Operator) :
    '\x60' ∉ operator.symbol.toList ∧ '\n' ∉ operator.symbol.toList := by
  rcases operator with operator | operator <;> cases operator <;> decide

namespace Node

/-! ## Lines -/

/-- What a dump shows of one node. -/
structure Face where
  tag : Tag
  symbol : Option String
  text : Option String
  line : UInt32
  column : UInt32
  opensScope : Bool
deriving DecidableEq

def face (node : Node) : Face :=
  ⟨node.tag, node.operator.map (·.symbol), node.text, node.span.line, node.span.column,
    node.scope.isSome⟩

def operatorPart (operator : Option Operator) : List Char :=
  operator.elim [] fun operator => ' ' :: '\x60' :: (operator.symbol.toList ++ ['\x60'])

def textPart (text : Option String) : List Char :=
  text.elim [] fun text => ' ' :: '"' :: (text.toList.flatMap escape ++ ['"'])

def scopePart (opensScope : Bool) : List Char :=
  if opensScope then [' ', '[', 's', 'c', 'o', 'p', 'e', ']', '\n'] else ['\n']

def positionPart (node : Node) : List Char :=
  ' ' :: '@' :: ((toString node.span.line).toList ++
    ':' :: ((toString node.span.column).toList ++ scopePart node.scope.isSome))

theorem toList_dumpLine (depth : Nat) (node : Node) :
    (dumpLine depth node).toList =
      List.replicate (2 * depth) ' ' ++ (node.tag.name.toList ++
        (operatorPart node.operator ++ (textPart node.text ++ positionPart node))) := by
  rcases node with ⟨tag, span, text, operator, children, scope⟩
  cases operator <;> cases text <;> cases scope <;>
    simp [dumpLine, headline, Span.position, operatorPart, textPart, positionPart, scopePart,
      toList_quoted]

theorem recovered_scopePart : Recovered scopePart id anything := by
  intro left right rest rest' _ _ heq
  cases left <;> cases right <;> simp_all [scopePart]

theorem recovered_positionPart :
    Recovered positionPart
      (fun node => (node.span.line, node.span.column, node.scope.isSome)) anything := by
  have hcolumn := (recovered_word.comap fun node : Node => node.span.column).append
    (recovered_scopePart.comap fun node : Node => node.scope.isSome) (by
      intro node rest _
      cases hscope : node.scope <;> simp [stops, scopePart, hscope])
  have hline := (recovered_word.comap fun node : Node => node.span.line).append
    (hcolumn.cons ':') (by simp [stops])
  exact (hline.cons '@').cons ' '

theorem recovered_textPart : Recovered textPart id (lacks '"') := by
  have htext := recovered_option '"' recovered_quoted
  rw [Option.map_id] at htext
  exact htext

theorem recovered_operatorPart :
    Recovered operatorPart (Option.map Operator.symbol) (lacks '\x60') :=
  recovered_option '\x60' (recovered_until '\x60' (fun operator => operator.symbol_marks.1)
    (fun _ _ hsymbol => String.toList_inj.mp hsymbol))

theorem recovered_name :
    Recovered (fun tag : Tag => tag.name.toList) id (stops (· != ' ')) := by
  refine recovered_of_test ?_ (fun _ _ hname => Tag.name_inj (String.toList_inj.mp hname))
  intro tag c hc
  exact bne_iff_ne.mpr (ne_of_mem_of_not_mem hc tag.name_word.2.1)

theorem recovered_indentation :
    Recovered (fun depth => List.replicate (2 * depth) ' ') id (stops (· == ' ')) := by
  refine recovered_of_test ?_ ?_
  · intro depth c hc
    exact beq_iff_eq.mpr (List.eq_of_mem_replicate hc)
  · intro left right heq
    have hlength := congrArg List.length heq
    simp only [List.length_replicate] at hlength
    exact Nat.eq_of_mul_eq_mul_left (by decide) hlength

/-- Behind the place of an operator there is a blank with the quote of a text or the mark of the
position, never with a backquote. -/
theorem lacks_textPart (node : Node) (rest : List Char) :
    lacks '\x60' (textPart node.text ++ positionPart node ++ rest) := by
  cases htext : node.text <;> simp [lacks, textPart, positionPart]

theorem stops_operatorPart (node : Node) (rest : List Char) :
    stops (· != ' ') (operatorPart node.operator ++ (textPart node.text ++ positionPart node) ++
      rest) := by
  cases hoperator : node.operator <;> cases htext : node.text <;>
    simp [stops, operatorPart, textPart, positionPart]

/-- The first character of a line without its indentation. -/
theorem exists_first (node : Node) :
    ∃ first others, node.tag.name.toList = first :: others ∧ first ≠ ' ' ∧ first ≠ '\n' := by
  obtain ⟨hword, hblank, hend⟩ := node.tag.name_word
  obtain ⟨first, others, hname⟩ := List.exists_cons_of_ne_nil hword
  have hfirst : first ∈ node.tag.name.toList := by simp [hname]
  exact ⟨first, others, hname, ne_of_mem_of_not_mem hfirst hblank,
    ne_of_mem_of_not_mem hfirst hend⟩

/-- A line of a dump gives back the depth of its node and all that is shown of the node. -/
theorem recovered_dumpLine :
    Recovered (fun entry : Nat × Node => (dumpLine entry.1 entry.2).toList)
      (fun entry => (entry.1, entry.2.face)) anything := by
  have htext := (recovered_textPart.comap Node.text).append recovered_positionPart (by
    intro node rest _
    simp [lacks, positionPart])
  have hoperator := (recovered_operatorPart.comap Node.operator).append htext
    fun node rest _ => lacks_textPart node rest
  have hname := (recovered_name.comap Node.tag).append hoperator
    fun node rest _ => stops_operatorPart node rest
  have hline := (recovered_indentation.comap Prod.fst).append
    (hname.comap fun entry : Nat × Node => entry.2) (by
      intro entry rest _
      obtain ⟨first, others, hfirst, hne, -⟩ := exists_first entry.2
      simp [stops, hfirst, hne])
  intro left right rest rest' hrest hrest' heq
  simp only [toList_dumpLine] at heq
  obtain ⟨hparts, heq⟩ := hline left right rest rest' hrest hrest' heq
  simp only [Function.comp_apply, id_eq, Prod.mk.injEq] at hparts
  simp only [face, Prod.mk.injEq, Face.mk.injEq]
  exact ⟨hparts, heq⟩

/-- A line depends on nothing but the depth and what is shown of the node. -/
theorem dumpLine_congr {depth : Nat} {left right : Node} (hface : left.face = right.face) :
    dumpLine depth left = dumpLine depth right := by
  rw [face, face, Face.mk.injEq] at hface
  obtain ⟨htag, hsymbol, htext, hline, hcolumn, hscope⟩ := hface
  have hoperator : operatorPart left.operator = operatorPart right.operator := by
    have hparts : ∀ operator : Option Operator, operatorPart operator =
        (operator.map (·.symbol)).elim [] fun symbol =>
          ' ' :: '\x60' :: (symbol.toList ++ ['\x60']) := by
      intro operator
      cases operator <;> rfl
    rw [hparts, hparts, hsymbol]
  rw [← String.toList_inj, toList_dumpLine, toList_dumpLine, positionPart, positionPart, htag,
    hoperator, htext, hline, hcolumn, hscope]

/-! ## Trees -/

mutual

/-- A dump shows the trees alike: they have the same nodes in the same places, as far as tag,
operator symbol, text, line and column and having a scope go. -/
def looksLike : Node → Node → Bool
  | ⟨tag, span, text, operator, children, scope⟩,
    ⟨tag', span', text', operator', children', scope'⟩ =>
      tag == tag' && operator.map (·.symbol) == operator'.map (·.symbol) && text == text' &&
        span.line == span'.line && span.column == span'.column &&
        scope.isSome == scope'.isSome && looksLikeAll children children'

def looksLikeAll : List Node → List Node → Bool
  | [], [] => true
  | node :: nodes, node' :: nodes' => looksLike node node' && looksLikeAll nodes nodes'
  | _, _ => false

end

theorem looksLike_iff {left right : Node} :
    left.looksLike right = true ↔
      left.face = right.face ∧ looksLikeAll left.children right.children = true := by
  cases left
  cases right
  simp [looksLike, face, and_assoc]

mutual

/-- The nodes of a tree with their depths, if the root has the given depth. -/
def ranked (depth : Nat) : Node → List (Nat × Node)
  | ⟨tag, span, text, operator, children, scope⟩ =>
      (depth, ⟨tag, span, text, operator, children, scope⟩) :: rankedAll (depth + 1) children

def rankedAll (depth : Nat) : List Node → List (Nat × Node)
  | [] => []
  | node :: nodes => ranked depth node ++ rankedAll depth nodes

end

theorem ranked_eq (depth : Nat) (node : Node) :
    node.ranked depth = (depth, node) :: rankedAll (depth + 1) node.children := by
  cases node
  rfl

theorem rankedAll_eq_flatMap (depth : Nat) (nodes : List Node) :
    rankedAll depth nodes = (atDepth depth nodes).flatMap fun entry => entry.2.ranked entry.1 := by
  induction nodes with
  | nil => rfl
  | cons node nodes ih => rw [rankedAll, ih]; rfl

theorem toList_levelsFrom (work : List (Nat × Node)) (out : Array (Nat × Node)) :
    (levelsFrom work out).toList =
      out.toList ++ work.flatMap fun entry => entry.2.ranked entry.1 := by
  fun_induction levelsFrom work out with
  | case1 out => simp
  | case2 out depth node rest ih =>
      rw [ih, List.flatMap_append, ← rankedAll_eq_flatMap, List.flatMap_cons, ranked_eq]
      simp

theorem toList_levels (node : Node) : node.levels.toList = rankedAll 0 [node] := by
  rw [levels, toList_levelsFrom, rankedAll_eq_flatMap]
  rfl

/-- The depth of a node is the number of its ancestors. -/
theorem rankedAll_length (nodes : List Node) :
    ∀ ancestors, rankedAll ancestors.length nodes =
      (lineageAll ancestors nodes).map fun entry => (entry.1.length, entry.2) := by
  induction nodes using forest_induction with
  | nil =>
      intro ancestors
      rfl
  | cons node nodes hchildren hnodes =>
      intro ancestors
      have hbelow := hchildren (node :: ancestors)
      rw [List.length_cons] at hbelow
      simp only [rankedAll, ranked_eq, lineageAll, lineageBelow_eq, List.map_append, List.map_cons,
        hbelow, hnodes]

theorem toList_levels_eq_lineage (node : Node) :
    node.levels.toList = node.lineage.map fun entry => (entry.1.length, entry.2) := by
  have hdepths := rankedAll_length [node] []
  rw [List.length_nil, ← toList_levels] at hdepths
  simpa [lineage, lineageAll] using hdepths

/-- What a dump shows of a node at its depth. -/
def glimpse (entry : Nat × Node) : Nat × Face :=
  (entry.1, entry.2.face)

/-- The rest of a listing does not go on at the given depth or below it. -/
def Shallow (depth : Nat) (rest : List (Nat × Face)) : Prop :=
  ∀ entry ∈ rest.head?, entry.1 < depth

/-- The depths of a listing tell where a forest ends, and what stands where in it. -/
theorem looksLikeAll_of_glimpses (left : List Node) :
    ∀ {depth right rest rest'}, Shallow depth rest → Shallow depth rest' →
      (rankedAll depth left).map glimpse ++ rest = (rankedAll depth right).map glimpse ++ rest' →
        looksLikeAll left right = true ∧ rest = rest' := by
  induction left using forest_induction with
  | nil =>
      intro depth right rest rest' hrest _ heq
      cases right with
      | nil => exact ⟨rfl, heq⟩
      | cons node nodes =>
          rw [rankedAll, rankedAll, ranked_eq, List.map_nil, List.nil_append] at heq
          have hdepth := hrest (depth, node.face) (by rw [heq]; rfl)
          exact absurd hdepth (Nat.lt_irrefl _)
  | cons node nodes hchildren hnodes =>
      intro depth right rest rest' hrest hrest' heq
      cases right with
      | nil =>
          rw [rankedAll, rankedAll, ranked_eq, List.map_nil, List.nil_append] at heq
          have hdepth := hrest' (depth, node.face) (by rw [← heq]; rfl)
          exact absurd hdepth (Nat.lt_irrefl _)
      | cons node' nodes' =>
          have hothers : ∀ (others : List Node) {rest : List (Nat × Face)}, Shallow depth rest →
              Shallow (depth + 1) ((rankedAll depth others).map glimpse ++ rest) := by
            intro others rest hrest entry hentry
            cases others with
            | nil => exact Nat.lt_succ_of_lt (hrest entry hentry)
            | cons other others =>
                rw [rankedAll, ranked_eq] at hentry
                cases hentry
                exact Nat.lt_succ_self depth
          simp only [rankedAll, ranked_eq, List.cons_append, List.map_cons, List.map_append,
            List.append_assoc, List.cons.injEq] at heq
          obtain ⟨hhead, heq⟩ := heq
          obtain ⟨hbelow, heq⟩ := hchildren (hothers nodes hrest) (hothers nodes' hrest') heq
          obtain ⟨hbehind, heq⟩ := hnodes hrest hrest' heq
          have hnode := looksLike_iff.mpr ⟨congrArg Prod.snd hhead, hbelow⟩
          exact ⟨by rw [looksLikeAll, hnode, hbehind]; rfl, heq⟩

/-- Forests that look alike have the same listing, as far as a dump shows it. -/
theorem glimpses_of_looksLikeAll (left : List Node) :
    ∀ {right}, looksLikeAll left right = true → ∀ depth,
      (rankedAll depth left).map glimpse = (rankedAll depth right).map glimpse := by
  induction left using forest_induction with
  | nil =>
      intro right hlooks depth
      cases right with
      | nil => rfl
      | cons node nodes => cases hlooks
  | cons node nodes hchildren hnodes =>
      intro right hlooks depth
      cases right with
      | nil => cases hlooks
      | cons node' nodes' =>
          rw [looksLikeAll, Bool.and_eq_true, looksLike_iff] at hlooks
          obtain ⟨⟨hface, hbelow⟩, hbehind⟩ := hlooks
          simp only [rankedAll, ranked_eq, List.cons_append, List.map_cons, List.map_append,
            hchildren hbelow, hnodes hbehind, glimpse, hface]

/-! ## Dumps -/

theorem toList_foldl_append {α : Type} (write : α → String) (values : List α) :
    ∀ text, (values.foldl (fun text value => text ++ write value) text).toList =
      text.toList ++ values.flatMap fun value => (write value).toList := by
  induction values with
  | nil =>
      intro text
      simp
  | cons value values ih =>
      intro text
      rw [List.foldl_cons, ih, String.toList_append, List.flatMap_cons, List.append_assoc]

/-- A dump consists of the lines of its nodes. -/
theorem toList_dump (node : Node) :
    node.dump.toList =
      node.levels.toList.flatMap fun entry => (dumpLine entry.1 entry.2).toList := by
  rw [dump, ← Array.foldl_toList, toList_foldl_append]
  rfl

/-- No line is empty. -/
theorem exists_first_dumpLine (entry : Nat × Node) :
    ∃ first others, (dumpLine entry.1 entry.2).toList = first :: others ∧ first ≠ '\n' := by
  obtain ⟨depth, node⟩ := entry
  rw [toList_dumpLine]
  cases depth with
  | zero =>
      obtain ⟨first, others, hname, -, hend⟩ := exists_first node
      rw [hname]
      exact ⟨first, _, rfl, hend⟩
  | succ depth => exact ⟨' ', _, rfl, by decide⟩

/-- Two trees with the same dump have the same listing, as far as a dump shows it. -/
theorem glimpses_of_dump_eq {left right : Node} (hdump : left.dump = right.dump) :
    left.levels.toList.map glimpse = right.levels.toList.map glimpse := by
  have hchars := congrArg String.toList hdump
  rw [toList_dump, toList_dump] at hchars
  -- a further empty line shows where the last line ends
  exact (recovered_flatMap_until '\n' recovered_dumpLine exists_first_dumpLine
    left.levels.toList right.levels.toList [] [] trivial trivial (by simp only [hchars])).1

theorem dumpLines_congr {entries : List (Nat × Node)} :
    ∀ {entries' : List (Nat × Node)}, entries.map glimpse = entries'.map glimpse →
      (entries.flatMap fun entry => (dumpLine entry.1 entry.2).toList) =
        entries'.flatMap fun entry => (dumpLine entry.1 entry.2).toList := by
  induction entries with
  | nil =>
      intro entries' hglimpses
      rw [List.map_eq_nil_iff.mp hglimpses.symm]
  | cons entry entries ih =>
      intro entries' hglimpses
      cases entries' with
      | nil => cases hglimpses
      | cons entry' entries' =>
          rw [List.map_cons, List.map_cons, List.cons.injEq, glimpse, glimpse,
            Prod.mk.injEq] at hglimpses
          obtain ⟨⟨hdepth, hface⟩, hglimpses⟩ := hglimpses
          rw [List.flatMap_cons, List.flatMap_cons, hdepth, dumpLine_congr hface, ih hglimpses]

/-- Trees have the same dump exactly if they look alike in it. -/
theorem dump_eq_iff {left right : Node} :
    left.dump = right.dump ↔ left.looksLike right = true := by
  have hforest : looksLikeAll [left] [right] = left.looksLike right := by
    simp [looksLikeAll]
  constructor
  · intro hdump
    have hglimpses := glimpses_of_dump_eq hdump
    rw [toList_levels, toList_levels] at hglimpses
    have hnothing : Shallow 0 [] := by simp [Shallow]
    rw [← hforest]
    exact (looksLikeAll_of_glimpses [left] hnothing hnothing (by simpa using hglimpses)).1
  · intro hlooks
    rw [← hforest] at hlooks
    rw [← String.toList_inj, toList_dump, toList_dump]
    apply dumpLines_congr
    rw [toList_levels, toList_levels]
    exact glimpses_of_looksLikeAll [left] hlooks 0

/-! ## Counting lines -/

theorem lineEnd_not_mem_headline (node : Node) : '\n' ∉ node.headline.toList := by
  have hname := node.tag.name_word.2.2
  have hword : ∀ word : UInt32, '\n' ∉ (toString word).toList := by
    intro word hend
    have hdigit := isDigit_of_mem_toString hend
    revert hdigit
    decide
  rcases node with ⟨tag, span, text, operator, children, scope⟩
  cases operator <;> cases text <;> cases scope <;>
    simp [headline, Span.position, hname, hword, lineEnd_not_mem_quoted, Operator.symbol_marks]

theorem splitOn_flatMap_lineEnd {rows : List (List Char)} (hrows : ∀ row ∈ rows, '\n' ∉ row) :
    (rows.flatMap (· ++ ['\n'])).splitOn '\n' = rows ++ [[]] := by
  induction rows with
  | nil => rfl
  | cons row rows ih =>
      rw [List.forall_mem_cons] at hrows
      rw [List.flatMap_cons, List.append_assoc, List.singleton_append,
        List.splitOn_append_cons_self_of_not_mem hrows.1, ih hrows.2, List.cons_append]

/-- The line of a node without its end, with two blanks for each ancestor. -/
def indented (ancestors : List Node) (node : Node) : List Char :=
  List.replicate (2 * ancestors.length) ' ' ++ node.headline.toList

/-- Splitting a dump at the line ends gives the lines of the nodes, and nothing behind the last. -/
theorem splitOn_dump (node : Node) :
    node.dump.toList.splitOn '\n' =
      (node.lineage.map fun entry => indented entry.1 entry.2) ++ [[]] := by
  have hrows : ∀ row ∈ node.lineage.map fun entry => indented entry.1 entry.2, '\n' ∉ row := by
    intro row hrow
    obtain ⟨entry, -, rfl⟩ := List.mem_map.mp hrow
    simp [indented, lineEnd_not_mem_headline]
  rw [← splitOn_flatMap_lineEnd hrows, toList_dump, toList_levels_eq_lineage, List.flatMap_map,
    List.flatMap_map]
  simp [dumpLine, indented]

/-- Two trees have the same dump exactly if they look alike in it, whatever their texts hold; and a
dump has one line for each node, parents before their children and in order, with two blanks for
each ancestor of the node in front. -/
theorem dump_unambiguous (left right : Node) :
    (left.dump = right.dump ↔ left.looksLike right = true) ∧
    left.dump.toList.splitOn '\n' =
      (left.lineage.map fun entry => indented entry.1 entry.2) ++ [[]] ∧
    left.lineage.map (·.2) = left.toList ∧ left.lineage.length = left.count := by
  refine ⟨dump_eq_iff, splitOn_dump left, map_snd_lineage left, ?_⟩
  calc left.lineage.length
      = (left.lineage.map (·.2)).length := (List.length_map _).symm
    _ = left.toList.length := by rw [map_snd_lineage]
    _ = left.count := by simp [toList, count]

end Node

end CanonTree
