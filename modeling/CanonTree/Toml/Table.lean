import CanonTree.Toml.Value

/-!
# Tables under construction

A document fills its tables piece by piece: by headers, by headers of arrays of
tables, and by dotted keys.  Which pieces may come together depends on how a table
came to be there:

* a header opens a table once, but also one that so far only stands above others;
* dotted keys add to tables that dotted keys made; on the way there they pass also
  through those that only stand above others and through the last table of an array;
* a value, and so also a table written inline, is never added to.
-/

namespace CanonTree.Toml

/-- How a table came to be there. -/
inductive Provenance where
  /-- By a header of its own. -/
  | header
  /-- By the header of a table inside it. -/
  | implied
  /-- By a dotted key. -/
  | dotted
deriving DecidableEq, Inhabited

inductive Item where
  | value (value : Value)
  | table (provenance : Provenance) (entries : List (String × Item))
  /-- An array of tables, the last of which is still open. -/
  | tables (closed : List (List (String × Item))) (last : List (String × Item))
deriving Inhabited

abbrev Entries := List (String × Item)

namespace Entries

/-- Changes what one name stands for; the name keeps its place, and a new one comes last. -/
def update? (name : String) (change : Option Item → Option Item) : Entries → Option Entries
  | [] => (change none).map fun item => [(name, item)]
  | (other, item) :: rest =>
      if other = name then (change (some item)).map fun item => (other, item) :: rest
      else (update? name change rest).map ((other, item) :: ·)

/-- Gives a name inside the tables named by `path` a value.  Tables that are not there yet are
made. -/
def assign? (name : String) (value : Value) : List String → Entries → Option Entries
  | [], entries =>
      entries.update? name fun
        | none => some (.value value)
        | some _ => none
  | step :: path, entries =>
      entries.update? step fun
        | none => (assign? name value path []).map (.table .dotted)
        | some (.table provenance inner) =>
            if provenance = .dotted || (provenance = .implied && !path.isEmpty) then
              (assign? name value path inner).map (.table provenance)
            else none
        | some (.tables closed last) =>
            if path.isEmpty then none
            else (assign? name value path last).map (.tables closed)
        | some (.value _) => none

def openTable? : List String → Entries → Option Entries
  | [], _ => none
  | [name], entries =>
      entries.update? name fun
        | none => some (.table .header [])
        | some (.table .implied inner) => some (.table .header inner)
        | some _ => none
  | step :: path, entries =>
      entries.update? step fun
        | none => (openTable? path []).map (.table .implied)
        | some (.table provenance inner) => (openTable? path inner).map (.table provenance)
        | some (.tables closed last) => (openTable? path last).map (.tables closed)
        | some (.value _) => none

/-- Opens one more table of the array of tables that a header names. -/
def openElement? : List String → Entries → Option Entries
  | [], _ => none
  | [name], entries =>
      entries.update? name fun
        | none => some (.tables [] [])
        | some (.tables closed last) => some (.tables (closed ++ [last]) [])
        | some _ => none
  | step :: path, entries =>
      entries.update? step fun
        | none => (openElement? path []).map (.table .implied)
        | some (.table provenance inner) => (openElement? path inner).map (.table provenance)
        | some (.tables closed last) => (openElement? path last).map (.tables closed)
        | some (.value _) => none

def within? (change : Entries → Option Entries) : List String → Entries → Option Entries
  | [], entries => change entries
  | step :: path, entries =>
      entries.update? step fun
        | some (.table provenance inner) =>
            (within? change path inner).map (.table provenance)
        | some (.tables closed last) => (within? change path last).map (.tables closed)
        | _ => none

end Entries

mutual

def Item.finish : Item → Value
  | .value value => value
  | .table _ entries => .table (finishEntries entries)
  | .tables closed last => .array (finishTables closed ++ [.table (finishEntries last)])

def finishEntries : List (String × Item) → List (String × Value)
  | [] => []
  | (name, item) :: rest => (name, item.finish) :: finishEntries rest

def finishTables : List (List (String × Item)) → List Value
  | [] => []
  | entries :: rest => .table (finishEntries entries) :: finishTables rest

end

end CanonTree.Toml
