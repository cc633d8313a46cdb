import CanonTree.Json.Reader
import CanonTree.Json.Writer

/-!
# JSON forms

A form says how the values of a type are written as JSON and which JSON values are
read back.  Reading takes the number of containers that may still be entered; a
text may nest them only so deep, and a value that is merely passed over has no such
limit.

A structure is written as an object.  It is read from an object, whose fields may
come in any order but not twice, or from an array of its fields in order.  A choice
is written as its name, or, if it carries something, as an object with its name as
the only field.
-/

namespace CanonTree.Json

structure Form (α : Type) where
  write : α → Value
  /-- Reads a value inside which at most the given number of containers is entered. -/
  read? : Nat → Value → Option α

/-- How many containers may stand inside each other in a text. -/
def nestingLimit : Nat := 127

/-- The naturals below this one are the words of 32 bits. -/
def wordBound : Nat := 0x100000000

def longBound : Nat := 0x10000000000000000

namespace Form

variable {α : Type}

def encode (form : Form α) (value : α) : String :=
  (form.write value).render

def decode? (form : Form α) (text : String) : Option α :=
  (Value.parse? text).bind (form.read? nestingLimit)

def natural (bound : Nat) : Form Nat where
  write := .natural
  read?
    | _, .natural value => if value < bound then some value else none
    | _, _ => none

def word : Form UInt32 where
  write value := .natural value.toNat
  read? room value := ((natural wordBound).read? room value).map UInt32.ofNat

def boolean : Form Bool where
  write := .boolean
  read?
    | _, .boolean value => some value
    | _, _ => none

def text : Form String where
  write := .text
  read?
    | _, .string (.plain text) => some text
    | _, _ => none

/-- Values that may be absent, which is written `null`. -/
def nullable (form : Form α) : Form (Option α) where
  write
    | some value => form.write value
    | none => .null
  read?
    | _, .null => some none
    | room, value => (form.read? room value).map some

end Form

/-- The name of a choice and what it carries, with the room inside. -/
def readChoice? (room : Nat) : Value → Option (String × Nat × Option Value)
  | .string (.plain name) => some (name, room, none)
  | .object [(.plain name, content)] =>
      match room with
      | 0 => none
      | room + 1 => some (name, room, some content)
  | _ => none

/-- The name of a choice that carries nothing; `null` may stand for nothing. -/
def readName? (room : Nat) (value : Value) : Option String :=
  match readChoice? room value with
  | some (name, _, none) | some (name, _, some .null) => some name
  | _ => none

def readCarried? (room : Nat) (value : Value) : Option (String × Nat × Value) :=
  match readChoice? room value with
  | some (name, room, some content) => some (name, room, content)
  | _ => none

def carried (name : String) (content : Value) : Value :=
  .record [(name, content)]

def Form.choice {α : Type} (name : α → String) (ofName? : String → Option α) : Form α where
  write value := .text (name value)
  read? room value := (readName? room value).bind ofName?

/-- How strictly a structure is read. -/
structure Strictness where
  /-- A field with an unknown name is an error. -/
  closed : Bool := false
  /-- An array may hold only the first fields. -/
  shortArray : Bool := false

/-- The values of an object's fields in the given order of names.  Names have to be readable,
and a name that is asked for may not come twice. -/
def selectFields? (names : List String) (closed : Bool) (fields : List (Quoted × Value)) :
    Option (List (Option Value)) := do
  let named ← fields.mapM fun
    | (.plain name, value) => some (name, value)
    | (.broken _, _) => none
  if closed && named.any (!names.contains ·.1) then none
  else
    names.mapM fun name =>
      match named.filter (·.1 == name) with
      | [] => some none
      | [(_, value)] => some (some value)
      | _ => none

/-- The values of a structure's fields in the given order of names, with the room inside. -/
def readFieldsOf? (names : List String) (strictness : Strictness) :
    Nat → Value → Option (Nat × List (Option Value))
  | room + 1, .object fields =>
      (selectFields? names strictness.closed fields).map (room, ·)
  | room + 1, .array elements =>
      if elements.length = names.length ||
          (strictness.shortArray && elements.length < names.length) then
        some (room, elements.map some ++
          List.replicate (names.length - elements.length) none)
      else none
  | _, _ => none

def Form.required? {α : Type} (form : Form α) (room : Nat) (field : Option Value) : Option α :=
  field.bind (form.read? room)

/-- Reads a field that may be missing, which is as good as absent. -/
def Form.optional? {α : Type} (form : Form α) (room : Nat) (field : Option Value) :
    Option (Option α) :=
  match field with
  | none => some none
  | some value => form.nullable.read? room value

/-- Reads a field that has a given value when it is missing. -/
def Form.orDefault? {α : Type} (form : Form α) (default : α) (room : Nat)
    (field : Option Value) : Option α :=
  match field with
  | none => some default
  | some value => form.read? room value

end CanonTree.Json
