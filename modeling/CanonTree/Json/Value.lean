/-!
# JSON values

A value keeps what a text says: the order of the fields of an object, repeated
fields, and which numbers are plain naturals.  A string whose escapes name an
unpaired surrogate stands for no text; such a string can be passed over but not
read, and is kept as it was written.
-/

namespace CanonTree.Json

/-- What stands between the quotes of a JSON string. -/
inductive Quoted where
  | plain (text : String)
  /-- Names an unpaired surrogate; kept with its escapes. -/
  | broken (source : String)
deriving DecidableEq, Inhabited

inductive Value where
  | null
  | boolean (value : Bool)
  /-- A number without sign, fraction and exponent. -/
  | natural (value : Nat)
  /-- Any other number, as it was written. -/
  | numeral (literal : String)
  | string (content : Quoted)
  | array (elements : List Value)
  | object (fields : List (Quoted × Value))
deriving Inhabited

namespace Value

def text (content : String) : Value :=
  .string (.plain content)

def record (fields : List (String × Value)) : Value :=
  .object (fields.map fun field => (.plain field.1, field.2))

mutual

/-- Number of containers around the innermost value. -/
def nesting : Value → Nat
  | .array elements => nestingAll elements + 1
  | .object fields => nestingFields fields + 1
  | _ => 0

def nestingAll : List Value → Nat
  | [] => 0
  | value :: values => max (nesting value) (nestingAll values)

def nestingFields : List (Quoted × Value) → Nat
  | [] => 0
  | (_, value) :: fields => max (nesting value) (nestingFields fields)

end

end Value

end CanonTree.Json
