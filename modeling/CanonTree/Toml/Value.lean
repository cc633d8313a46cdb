/-!
# TOML values

What a TOML document says.  Tables keep their entries in order.  A float keeps its
decimal digits, so that nothing hangs on rounding.

Whoever wants to know what a document says asks a `Reader`, which is a parameter of
everything that is made of documents.  All that is known of it is `Reader.Lawful`.
-/

namespace CanonTree.Toml

/-- The magnitude `mantissa * 10 ^ exponent`. -/
structure Decimal where
  mantissa : Nat
  exponent : Int
deriving DecidableEq, Inhabited

inductive Value where
  | text (content : String)
  | integer (value : Int)
  | float (magnitude : Decimal)
  /-- One of the infinities, or not a number. -/
  | nonFinite
  | boolean (value : Bool)
  /-- A date, a time or both, as it was written. -/
  | datetime (source : String)
  | array (elements : List Value)
  | table (entries : List (String × Value))
deriving Inhabited

/-- No table in the value gives a name twice. -/
inductive Value.Distinct : Value → Prop where
  | plain {value : Value} (harray : ∀ elements, value ≠ .array elements)
      (htable : ∀ entries, value ≠ .table entries) : Distinct value
  | array {elements : List Value} (helements : ∀ element ∈ elements, Distinct element) :
      Distinct (.array elements)
  | table {entries : List (String × Value)} (hnames : (entries.map Prod.fst).Nodup)
      (hvalues : ∀ entry ∈ entries, Distinct entry.2) : Distinct (.table entries)

/-- A reader of documents works in two steps.  It takes a text apart into entries, with numbers as
they are written, and it then visits the values; there it may still fail, also on a value that
nobody asked for. -/
structure Reader where
  /-- The entries of the document that a text stands for. -/
  parse? : String → Option (List (String × Value))
  /-- The value of an entry that nobody asked for can be passed over. -/
  passesOver : Value → Bool

/-- TOML forbids to define a name twice in one table. -/
structure Reader.Lawful (reader : Reader) : Prop where
  distinct : ∀ {text : String} {document : List (String × Value)},
    reader.parse? text = some document → (Value.table document).Distinct

end CanonTree.Toml
