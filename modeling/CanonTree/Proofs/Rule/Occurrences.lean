import CanonTree.Proofs.Rule.Assembly
import Mathlib.Data.List.Nodup

/-!
# Children by their places

A rule that takes several children out looks for each of them in what the earlier steps have
left.  Here children are named by where they stand among all children of the node: an
occurrence is a child with its place, so two children that are equal are still two, and
`apartFrom` takes out any number of occurrences at once.  Taking children with different tags
out one after the other comes to the same as taking their occurrences out together, in
whatever order the rule goes about it.
-/

namespace CanonTree.Rule

/-- The nodes with the tag, each with its place among all of them. -/
def occurrences (tag : SharedTag) (nodes : List Node) : List (Node × Nat) :=
  nodes.zipIdx.filter (·.1.is tag)

def firstOccurrence? (tag : SharedTag) (nodes : List Node) : Option (Node × Nat) :=
  (occurrences tag nodes).head?

def lastOccurrence? (tag : SharedTag) (nodes : List Node) : Option (Node × Nat) :=
  (occurrences tag nodes).getLast?

/-- The nodes without the given occurrences, in the order in which they stand. -/
def apartFrom (taken : List (Node × Nat)) (nodes : List Node) : List Node :=
  (nodes.zipIdx.filter (· ∉ taken)).map (·.1)

/-! ## Taking out of a list without repetitions -/

section Nodup

variable {α : Type} [BEq α] [LawfulBEq α] {test : α → Bool} {taken : List α}

/-- Erasing the first element that passes a test is leaving it out where it stands. -/
theorem eraseP_filter_not_mem (htaken : ∀ item ∈ taken, test item = false) :
    ∀ {items : List α}, items.Nodup →
      (items.filter (· ∉ taken)).eraseP test =
        items.filter (· ∉ (items.filter test).head?.toList ++ taken) := by
  intro items hnodup
  induction items with
  | nil => rfl
  | cons item items ih =>
      obtain ⟨hitem, hitems⟩ := List.nodup_cons.mp hnodup
      cases htest : test item with
      | true =>
          have hkept : item ∉ taken := by
            intro hmem
            rw [htaken item hmem] at htest
            cases htest
          rw [List.filter_cons_of_pos (by simpa using hkept), List.eraseP_cons_of_pos htest,
            List.filter_cons_of_pos htest, List.head?_cons, List.filter_cons_of_neg (by simp)]
          apply List.filter_congr
          intro other hother
          have hne : other ≠ item := fun heq => hitem (heq ▸ hother)
          simp [hne]
      | false =>
          have hhead : item ∉ (items.filter test).head?.toList := by
            intro hmem
            have hfirst : item ∈ items.filter test := List.mem_of_head? (Option.mem_toList.mp hmem)
            exact hitem (List.mem_of_mem_filter hfirst)
          have hfilter : (item :: items).filter test = items.filter test :=
            List.filter_cons_of_neg (by simp [htest])
          rw [hfilter]
          by_cases hmem : item ∈ taken
          · have hdropped : ¬item ∉ (items.filter test).head?.toList ++ taken :=
              not_not.mpr (List.mem_append_right _ hmem)
            rw [List.filter_cons, List.filter_cons, if_neg (by simpa using hmem),
              if_neg (mt of_decide_eq_true hdropped), ih hitems]
          · have hkept : item ∉ (items.filter test).head?.toList ++ taken :=
              List.not_mem_append hhead hmem
            rw [List.filter_cons, List.filter_cons, if_pos (by simpa using hmem),
              if_pos (decide_eq_true hkept), List.eraseP_cons_of_neg (by simp [htest]), ih hitems]

/-- The same from the other end. -/
theorem reverse_eraseP_filter_not_mem (htaken : ∀ item ∈ taken, test item = false)
    {items : List α} (hnodup : items.Nodup) :
    ((items.filter (· ∉ taken)).reverse.eraseP test).reverse =
      items.filter (· ∉ (items.filter test).getLast?.toList ++ taken) := by
  have herase := eraseP_filter_not_mem htaken (List.nodup_reverse.mpr hnodup)
  simp only [List.filter_reverse, List.head?_reverse] at herase
  rw [herase, List.reverse_reverse]

end Nodup

/-! ## Taking children out -/

variable {nodes : List Node} {taken : List (Node × Nat)} {tag : SharedTag}

theorem nodup_zipIdx (nodes : List Node) : nodes.zipIdx.Nodup := by
  have hplaces : (nodes.zipIdx.map Prod.snd).Nodup := by
    rw [List.zipIdx_map_snd]
    exact List.nodup_range'
  exact hplaces.of_map Prod.snd

theorem apartFrom_nil (nodes : List Node) : apartFrom [] nodes = nodes := by
  simp [apartFrom]

/-- The nodes with a tag that none of the occurrences has are all left. -/
theorem filter_apartFrom (htaken : ∀ entry ∈ taken, entry.1.is tag = false) :
    (apartFrom taken nodes).filter (·.is tag) = (occurrences tag nodes).map (·.1) := by
  rw [apartFrom, occurrences, List.filter_map, List.filter_filter]
  congr 1
  apply List.filter_congr
  intro entry _
  by_cases hmem : entry ∈ taken
  · simp [htaken entry hmem]
  · simp [hmem]

theorem map_fst_occurrences (tag : SharedTag) (nodes : List Node) :
    (occurrences tag nodes).map (·.1) = nodes.filter (·.is tag) := by
  rw [← filter_apartFrom (List.forall_mem_nil _), apartFrom_nil]

theorem first?_eq_head? (tag : SharedTag) (nodes : List Node) :
    first? tag nodes = (nodes.filter (·.is tag)).head? := by
  rw [first?, List.head?_filter]

theorem first?_eq_firstOccurrence? (tag : SharedTag) (nodes : List Node) :
    first? tag nodes = (firstOccurrence? tag nodes).map (·.1) := by
  rw [first?_eq_head?, ← map_fst_occurrences, List.head?_map, firstOccurrence?]

theorem last?_apartFrom (htaken : ∀ entry ∈ taken, entry.1.is tag = false) :
    last? tag (apartFrom taken nodes) = (lastOccurrence? tag nodes).map (·.1) := by
  rw [last?, first?_eq_head?, List.filter_reverse, List.head?_reverse, filter_apartFrom htaken,
    List.getLast?_map, lastOccurrence?]

theorem withoutFirst_apartFrom (htaken : ∀ entry ∈ taken, entry.1.is tag = false) :
    withoutFirst tag (apartFrom taken nodes) =
      apartFrom ((firstOccurrence? tag nodes).toList ++ taken) nodes := by
  rw [withoutFirst, apartFrom, List.eraseP_map]
  exact congrArg _ (eraseP_filter_not_mem htaken (nodup_zipIdx nodes))

theorem withoutLast_apartFrom (htaken : ∀ entry ∈ taken, entry.1.is tag = false) :
    withoutLast tag (apartFrom taken nodes) =
      apartFrom ((lastOccurrence? tag nodes).toList ++ taken) nodes := by
  rw [withoutLast, withoutFirst, apartFrom, ← List.map_reverse, List.eraseP_map, ← List.map_reverse]
  exact congrArg _ (reverse_eraseP_filter_not_mem htaken (nodup_zipIdx nodes))

theorem withoutFirst_eq_apartFrom (tag : SharedTag) (nodes : List Node) :
    withoutFirst tag nodes = apartFrom (firstOccurrence? tag nodes).toList nodes := by
  have hapart : withoutFirst tag (apartFrom [] nodes) =
      apartFrom ((firstOccurrence? tag nodes).toList ++ []) nodes :=
    withoutFirst_apartFrom (List.forall_mem_nil _)
  rwa [apartFrom_nil, List.append_nil] at hapart

theorem is_of_mem_occurrences {entry : Node × Nat} (hentry : entry ∈ occurrences tag nodes) :
    entry.1.is tag = true :=
  (List.mem_filter.mp hentry).2

/-- An occurrence of one tag is none of another. -/
theorem is_eq_false_of_firstOccurrence? {other : SharedTag} (hne : other ≠ tag) :
    ∀ entry ∈ (firstOccurrence? tag nodes).toList, entry.1.is other = false := by
  intro entry hentry
  apply is_eq_false hne
  exact is_of_mem_occurrences (List.mem_of_head? (Option.mem_toList.mp hentry))

/-- Two children with different tags that are taken out one after the other. -/
theorem withoutFirst_withoutFirst {other : SharedTag} (hne : other ≠ tag) (nodes : List Node) :
    withoutFirst other (withoutFirst tag nodes) =
      apartFrom ((firstOccurrence? other nodes).toList ++ (firstOccurrence? tag nodes).toList)
        nodes := by
  rw [withoutFirst_eq_apartFrom tag, withoutFirst_apartFrom (is_eq_false_of_firstOccurrence? hne)]

end CanonTree.Rule
