import CanonTree.Toml.Reader
import Mathlib.Data.List.Nodup

/-!
# Every name is given once

A document may fill its tables piece by piece, but no piece gives a name that is there
already: a change to a table changes what one name stands for, or adds a name that was
missing.  So the names in a table are distinct at any time, in the tables under construction
as in inline ones, and in all tables of a document that could be read.
-/

namespace CanonTree.Toml

/-- No table under construction gives a name twice. -/
inductive Item.Distinct : Item → Prop where
  | value {value : Value} (hvalue : value.Distinct) : Distinct (.value value)
  | table {provenance : Provenance} {entries : List (String × Item)}
      (hnames : (entries.map Prod.fst).Nodup) (hitems : ∀ entry ∈ entries, Distinct entry.2) :
      Distinct (.table provenance entries)
  | tables {closed : List (List (String × Item))} {last : List (String × Item)}
      (hnames : ∀ entries ∈ closed ++ [last], (entries.map Prod.fst).Nodup)
      (hitems : ∀ entries ∈ closed ++ [last], ∀ entry ∈ entries, Distinct entry.2) :
      Distinct (.tables closed last)

/-- The entries of one table, and all that is below them. -/
structure Entries.Distinct (entries : Entries) : Prop where
  names : (entries.map Prod.fst).Nodup
  items : ∀ entry ∈ entries, entry.2.Distinct

variable {entries result inner last : Entries} {closed : List Entries} {item : Item}
  {provenance : Provenance} {name : String} {value : Value} {path : List String}

theorem Item.distinct_table_iff : (Item.table provenance inner).Distinct ↔ inner.Distinct := by
  constructor
  · rintro (_ | ⟨hnames, hitems⟩)
    exact ⟨hnames, hitems⟩
  · exact fun hinner => .table hinner.names hinner.items

theorem Item.distinct_tables_iff :
    (Item.tables closed last).Distinct ↔ ∀ entries ∈ closed ++ [last], entries.Distinct := by
  constructor
  · rintro (_ | _ | ⟨hnames, hitems⟩) entries hentries
    exact ⟨hnames entries hentries, hitems entries hentries⟩
  · intro htables
    exact .tables (fun entries hentries => (htables entries hentries).names)
      fun entries hentries => (htables entries hentries).items

namespace Entries

theorem distinct_empty : Distinct [] :=
  ⟨List.nodup_nil, nofun⟩

/-! ## Changes of one table -/

/-- A change keeps all names, or adds one that is new. -/
theorem names_update? {change : Option Item → Option Item}
    (hupdate : entries.update? name change = some result) :
    result.map Prod.fst = entries.map Prod.fst ∨
      (name ∉ entries.map Prod.fst ∧ result.map Prod.fst = entries.map Prod.fst ++ [name]) := by
  induction entries generalizing result with
  | nil =>
      obtain ⟨item, -, rfl⟩ := Option.map_eq_some_iff.mp hupdate
      exact .inr ⟨List.not_mem_nil, rfl⟩
  | cons entry rest ih =>
      obtain ⟨other, item⟩ := entry
      rw [update?] at hupdate
      split at hupdate
      · obtain ⟨changed, -, rfl⟩ := Option.map_eq_some_iff.mp hupdate
        exact .inl rfl
      · rename_i hother
        obtain ⟨changed, hchanged, rfl⟩ := Option.map_eq_some_iff.mp hupdate
        obtain hsame | ⟨hnew, hadded⟩ := ih hchanged
        · exact .inl (by simp [hsame])
        · refine .inr ⟨?_, by simp [hadded]⟩
          rw [List.map_cons, List.mem_cons, not_or]
          exact ⟨fun heq => hother heq.symm, hnew⟩

/-- What a name stands for after a change was made by it, or it was there before. -/
theorem items_update? {change : Option Item → Option Item}
    (hupdate : entries.update? name change = some result) :
    ∀ entry ∈ result, entry ∈ entries ∨
      ∃ before, (∀ item ∈ before, ∃ entry ∈ entries, entry.2 = item) ∧
        change before = some entry.2 := by
  induction entries generalizing result with
  | nil =>
      obtain ⟨item, hitem, rfl⟩ := Option.map_eq_some_iff.mp hupdate
      intro entry hentry
      rw [List.mem_singleton] at hentry
      exact .inr ⟨none, nofun, by rw [hentry, hitem]⟩
  | cons first rest ih =>
      obtain ⟨other, item⟩ := first
      rw [update?] at hupdate
      intro entry hentry
      split at hupdate
      · obtain ⟨changed, hchanged, rfl⟩ := Option.map_eq_some_iff.mp hupdate
        obtain rfl | hrest := List.mem_cons.mp hentry
        · exact .inr ⟨some item, by simp, hchanged⟩
        · exact .inl (List.mem_cons_of_mem _ hrest)
      · obtain ⟨changed, hchanged, rfl⟩ := Option.map_eq_some_iff.mp hupdate
        obtain rfl | hrest := List.mem_cons.mp hentry
        · exact .inl List.mem_cons_self
        · obtain hold | ⟨before, hbefore, hmade⟩ := ih hchanged entry hrest
          · exact .inl (List.mem_cons_of_mem _ hold)
          · refine .inr ⟨before, ?_, hmade⟩
            intro item hitem
            obtain ⟨entry, hentry, rfl⟩ := hbefore item hitem
            exact ⟨entry, List.mem_cons_of_mem _ hentry, rfl⟩

/-- The change gives back an item without repeated names if it gets one or none. -/
def Keeps (change : Option Item → Option Item) : Prop :=
  ∀ before after, (∀ item ∈ before, item.Distinct) → change before = some after → after.Distinct

theorem Distinct.update? {change : Option Item → Option Item} (hentries : entries.Distinct)
    (hchange : Keeps change) (hupdate : entries.update? name change = some result) :
    result.Distinct where
  names := by
    obtain hsame | ⟨hnew, hadded⟩ := names_update? hupdate
    · rw [hsame]
      exact hentries.names
    · rw [hadded, ← List.concat_eq_append]
      exact hentries.names.concat hnew
  items := by
    intro entry hentry
    obtain hold | ⟨before, hbefore, hmade⟩ := items_update? hupdate entry hentry
    · exact hentries.items entry hold
    · refine hchange before entry.2 ?_ hmade
      intro item hitem
      obtain ⟨entry, hentry, rfl⟩ := hbefore item hitem
      exact hentries.items entry hentry

/-! ## Changes further down -/

/-- The change of entries keeps their names distinct. -/
def KeepsAll (change : Entries → Option Entries) : Prop :=
  ∀ entries result, entries.Distinct → change entries = some result → result.Distinct

theorem KeepsAll.table {change : Entries → Option Entries} (hchange : KeepsAll change)
    (hinner : inner.Distinct) (hitem : (change inner).map (.table provenance) = some item) :
    item.Distinct := by
  obtain ⟨changed, hchanged, rfl⟩ := Option.map_eq_some_iff.mp hitem
  exact Item.distinct_table_iff.mpr (hchange inner changed hinner hchanged)

/-- Only the last table of an array is changed. -/
theorem KeepsAll.tables {change : Entries → Option Entries} (hchange : KeepsAll change)
    (htables : (Item.tables closed last).Distinct)
    (hitem : (change last).map (.tables closed) = some item) : item.Distinct := by
  rw [Item.distinct_tables_iff, List.forall_mem_append, List.forall_mem_singleton] at htables
  obtain ⟨changed, hchanged, rfl⟩ := Option.map_eq_some_iff.mp hitem
  rw [Item.distinct_tables_iff, List.forall_mem_append, List.forall_mem_singleton]
  exact ⟨htables.1, hchange last changed htables.2 hchanged⟩

theorem keepsAll_assign? (hvalue : value.Distinct) (path : List String) :
    KeepsAll (assign? name value path) := by
  induction path with
  | nil =>
      intro entries result hentries hassign
      refine hentries.update? ?_ hassign
      rintro (_ | item) after - hafter
      · cases hafter
        exact .value hvalue
      · cases hafter
  | cons step path ih =>
      intro entries result hentries hassign
      refine hentries.update? ?_ hassign
      rintro (_ | value | ⟨provenance, inner⟩ | ⟨closed, last⟩) after hbefore hafter
      · exact ih.table distinct_empty hafter
      · cases hafter
      · have hinner := Item.distinct_table_iff.mp (hbefore _ rfl)
        dsimp only at hafter
        split at hafter
        · exact ih.table hinner hafter
        · cases hafter
      · dsimp only at hafter
        split at hafter
        · cases hafter
        · exact ih.tables (hbefore _ rfl) hafter

/-- Headers go down to the table that they open in the same way, whatever they do there. -/
theorem keeps_descend {change : Entries → Option Entries} (hchange : KeepsAll change) :
    Keeps fun
      | none => (change []).map (.table .implied)
      | some (.table provenance inner) => (change inner).map (.table provenance)
      | some (.tables closed last) => (change last).map (.tables closed)
      | some (.value _) => none := by
  rintro (_ | value | ⟨provenance, inner⟩ | ⟨closed, last⟩) after hbefore hafter
  · exact hchange.table distinct_empty hafter
  · cases hafter
  · exact hchange.table (Item.distinct_table_iff.mp (hbefore _ rfl)) hafter
  · exact hchange.tables (hbefore _ rfl) hafter

theorem keepsAll_openTable? (path : List String) : KeepsAll (openTable? path) := by
  induction path with
  | nil => nofun
  | cons step path ih =>
      intro entries result hentries hopen
      cases path with
      | nil =>
          refine hentries.update? ?_ hopen
          rintro (_ | value | ⟨provenance, inner⟩ | ⟨closed, last⟩) after hbefore hafter
          · cases hafter
            exact Item.distinct_table_iff.mpr distinct_empty
          · cases hafter
          · have hinner := Item.distinct_table_iff.mp (hbefore _ rfl)
            cases provenance <;> cases hafter
            exact Item.distinct_table_iff.mpr hinner
          · cases hafter
      | cons next path => exact hentries.update? (keeps_descend ih) hopen

theorem keepsAll_openElement? (path : List String) : KeepsAll (openElement? path) := by
  induction path with
  | nil => nofun
  | cons step path ih =>
      intro entries result hentries hopen
      cases path with
      | nil =>
          refine hentries.update? ?_ hopen
          rintro (_ | value | ⟨provenance, inner⟩ | ⟨closed, last⟩) after hbefore hafter
          · cases hafter
            simp [Item.distinct_tables_iff, distinct_empty]
          · cases hafter
          · cases hafter
          · have htables := Item.distinct_tables_iff.mp (hbefore _ rfl)
            cases hafter
            rw [Item.distinct_tables_iff, List.forall_mem_append, List.forall_mem_singleton]
            exact ⟨htables, distinct_empty⟩
      | cons next path => exact hentries.update? (keeps_descend ih) hopen

theorem KeepsAll.within? {change : Entries → Option Entries} (hchange : KeepsAll change)
    (path : List String) : KeepsAll (within? change path) := by
  induction path with
  | nil => exact hchange
  | cons step path ih =>
      intro entries result hentries hwithin
      refine hentries.update? ?_ hwithin
      rintro (_ | value | ⟨provenance, inner⟩ | ⟨closed, last⟩) after hbefore hafter
      · cases hafter
      · cases hafter
      · exact ih.table (Item.distinct_table_iff.mp (hbefore _ rfl)) hafter
      · exact ih.tables (hbefore _ rfl) hafter

end Entries

/-! ## Finished tables -/

theorem finishEntries_eq_map (entries : Entries) :
    finishEntries entries = entries.map fun entry => (entry.1, entry.2.finish) := by
  induction entries with
  | nil => rfl
  | cons entry rest ih => rw [finishEntries, ih, List.map_cons]

theorem finishTables_eq_map (tables : List Entries) :
    finishTables tables = tables.map fun entries => .table (finishEntries entries) := by
  induction tables with
  | nil => rfl
  | cons entries rest ih => rw [finishTables, ih, List.map_cons]

theorem Value.distinct_finishEntries (hnames : (entries.map Prod.fst).Nodup)
    (hitems : ∀ entry ∈ entries, entry.2.finish.Distinct) :
    (Value.table (finishEntries entries)).Distinct := by
  rw [finishEntries_eq_map]
  refine .table ?_ ?_
  · rw [List.map_map]
    exact hnames
  · rw [List.forall_mem_map]
    exact hitems

theorem Item.Distinct.finish (hitem : item.Distinct) : item.finish.Distinct := by
  induction hitem with
  | value hvalue => exact hvalue
  | table hnames _ ih => exact Value.distinct_finishEntries hnames ih
  | @tables closed last hnames _ ih =>
      have hfinish : (Item.tables closed last).finish =
          .array ((closed ++ [last]).map fun entries => .table (finishEntries entries)) := by
        rw [Item.finish, finishTables_eq_map, List.map_append]
        rfl
      rw [hfinish]
      refine .array ?_
      rw [List.forall_mem_map]
      exact fun entries hentries =>
        Value.distinct_finishEntries (hnames entries hentries) (ih entries hentries)

theorem Entries.Distinct.finish (hentries : entries.Distinct) :
    (Value.table (finishEntries entries)).Distinct :=
  Value.distinct_finishEntries hentries.names
    fun entry hentry => (hentries.items entry hentry).finish

/-! ## Reading -/

/-- A word is no array and no table. -/
theorem readWord?_ne (word : List Char) :
    (∀ elements, readWord? word ≠ some (.array elements)) ∧
      ∀ entries, readWord? word ≠ some (.table entries) := by
  rw [readWord?]
  split_ifs
  · exact ⟨nofun, nofun⟩
  · exact ⟨nofun, nofun⟩
  · exact ⟨nofun, nofun⟩
  · exact ⟨nofun, nofun⟩
  · cases readInteger? word with
    | some value => exact ⟨nofun, nofun⟩
    | none => simp

theorem distinct_of_readWord? {word : List Char} (hread : readWord? word = some value) :
    value.Distinct := by
  apply Value.Distinct.plain
  · rintro elements rfl
    exact (readWord?_ne word).1 elements hread
  · rintro entries rfl
    exact (readWord?_ne word).2 entries hread

/-- A text has no names. -/
theorem distinct_of_map_text {read : Option (List Char × List Char)} {rest : List Char}
    (hread : read.map (fun (text, rest) => (Value.text (String.ofList text), rest)) =
      some (value, rest)) : value.Distinct := by
  obtain ⟨outcome, -, hvalue⟩ := Option.map_eq_some_iff.mp hread
  cases hvalue
  exact .plain nofun nofun

/-- What the readers of values give back in at most `fuel` steps. -/
structure ReadsDistinct (fuel : Nat) : Prop where
  value : ∀ {room source value rest},
    readValue? fuel room source = some (value, rest) → value.Distinct
  elements : ∀ {room source values rest},
    readElements? fuel room source = some (values, rest) → ∀ value ∈ values, value.Distinct
  inline : ∀ {room entries source result rest}, entries.Distinct →
    readInline? fuel room entries source = some (result, rest) → result.Distinct

section Readers

variable {fuel room : Nat} {source rest : List Char} (hfuel : ReadsDistinct fuel)

include hfuel

theorem ReadsDistinct.readValue?
    (hread : readValue? (fuel + 1) room source = some (value, rest)) : value.Distinct := by
  unfold Toml.readValue? at hread
  split at hread
  · exact distinct_of_map_text hread
  · exact distinct_of_map_text hread
  · exact distinct_of_map_text hread
  · exact distinct_of_map_text hread
  · cases room with
    | zero => cases hread
    | succ room =>
        obtain ⟨⟨elements, rest⟩, helements, hvalue⟩ := Option.map_eq_some_iff.mp hread
        cases hvalue
        exact .array (hfuel.elements helements)
  · cases room with
    | zero => cases hread
    | succ room =>
        obtain ⟨⟨entries, rest⟩, hentries, hvalue⟩ := Option.map_eq_some_iff.mp hread
        cases hvalue
        exact (hfuel.inline Entries.distinct_empty hentries).finish
  · obtain ⟨value, hword, hvalue⟩ := Option.map_eq_some_iff.mp hread
    cases hvalue
    exact distinct_of_readWord? hword

theorem ReadsDistinct.readElements? {values : List Value}
    (hread : readElements? (fuel + 1) room source = some (values, rest)) :
    ∀ value ∈ values, value.Distinct := by
  rw [Toml.readElements?] at hread
  split at hread
  · cases hread
  · cases hread
    exact nofun
  · split at hread
    · cases hread
    · rename_i value _ hvalue
      have hfirst := hfuel.value hvalue
      split at hread
      · cases hread
        exact List.forall_mem_singleton.mpr hfirst
      · obtain ⟨⟨others, rest⟩, hothers, hvalues⟩ := Option.map_eq_some_iff.mp hread
        cases hvalues
        exact List.forall_mem_cons.mpr ⟨hfirst, hfuel.elements hothers⟩
      · cases hread

theorem ReadsDistinct.readInline? (hentries : entries.Distinct)
    (hread : readInline? (fuel + 1) room entries source = some (result, rest)) :
    result.Distinct := by
  rw [Toml.readInline?] at hread
  split at hread
  · cases hread
  · cases hread
    exact hentries
  · split at hread
    · cases hread
    · split at hread
      · cases hread
      · rename_i value _ hvalue
        split at hread
        · cases hread
        · rename_i assigned hassigned
          have hassigned := Entries.keepsAll_assign? (hfuel.value hvalue) _ _ _ hentries hassigned
          split at hread
          · cases hread
            exact hassigned
          · exact hfuel.inline hassigned hread
          · cases hread

end Readers

theorem readsDistinct (fuel : Nat) : ReadsDistinct fuel := by
  induction fuel with
  | zero => exact ⟨nofun, nofun, nofun⟩
  | succ fuel ih => exact ⟨ih.readValue?, ih.readElements?, ih.readInline?⟩

theorem distinct_of_readAssignment? {source rest : List Char}
    (hread : readAssignment? source = some (path, name, value, rest)) : value.Distinct := by
  rw [readAssignment?] at hread
  split at hread
  · obtain ⟨⟨value, rest⟩, hvalue, heq⟩ := Option.map_eq_some_iff.mp hread
    cases heq
    exact (readsDistinct _).value hvalue
  · cases hread

/-- A line keeps the names in all tables distinct. -/
theorem Entries.Distinct.readLine? {before after : Progress} {source rest : List Char}
    (hbefore : before.entries.Distinct)
    (hread : readLine? before source = some (after, rest)) : after.entries.Distinct := by
  unfold Toml.readLine? at hread
  split at hread
  · split at hread
    · obtain ⟨entries, hopen, hread⟩ := Option.bind_eq_some_iff.mp hread
      obtain ⟨line, -, hread⟩ := Option.bind_eq_some_iff.mp hread
      cases hread
      exact keepsAll_openElement? _ _ _ hbefore hopen
    · cases hread
  · split at hread
    · obtain ⟨entries, hopen, hread⟩ := Option.bind_eq_some_iff.mp hread
      obtain ⟨line, -, hread⟩ := Option.bind_eq_some_iff.mp hread
      cases hread
      exact keepsAll_openTable? _ _ _ hbefore hopen
    · cases hread
  · split at hread
    · rename_i path name value _ hassignment
      obtain ⟨entries, hwithin, hread⟩ := Option.bind_eq_some_iff.mp hread
      obtain ⟨line, -, hread⟩ := Option.bind_eq_some_iff.mp hread
      cases hread
      have hvalue := distinct_of_readAssignment? hassignment
      exact (keepsAll_assign? hvalue path).within? before.current _ _ hbefore hwithin
    · cases hread

theorem distinct_readDocument? (fuel : Nat) :
    ∀ {progress source result}, progress.entries.Distinct →
      readDocument? fuel progress source = some result → result.Distinct := by
  induction fuel with
  | zero => nofun
  | succ fuel ih =>
      intro progress source result hprogress hread
      rw [readDocument?] at hread
      split at hread
      · cases hread
      · cases hread
        exact hprogress
      · split at hread
        · rename_i after _ hline
          exact ih (hprogress.readLine? hline) hread
        · cases hread

/-- No table of a document that was read gives a name twice. -/
theorem distinct_of_parse? {text : String} {document : List (String × Value)}
    (hparse : parse? text = some document) : (Value.table document).Distinct := by
  obtain ⟨entries, hread, rfl⟩ := Option.map_eq_some_iff.mp hparse
  exact (distinct_readDocument? _ Entries.distinct_empty hread).finish

theorem lawful_reader : reader.Lawful where
  distinct := distinct_of_parse?

end CanonTree.Toml
