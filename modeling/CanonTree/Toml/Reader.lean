import CanonTree.Toml.Range
import CanonTree.Toml.Scalar
import CanonTree.Toml.Table
import CanonTree.Toml.Text

/-!
# Reading TOML

A document is read line by line: a header opens a table, and each other line gives
one name in the open table a value.  Arrays and inline tables may run over several
lines, with comments, and may nest only so deep.
-/

namespace CanonTree.Toml

/-- How many arrays and inline tables may stand inside each other, and how many names
one key may have. -/
def nestingLimit : Nat := 80

def afterComment? (source : List Char) : Option (List Char) :=
  match source.dropWhile isTextChar with
  | [] => some []
  | rest => if (afterNewline? rest).isSome then some rest else none

/-- The rest of the document after blanks and a comment up to the line end. -/
def afterLine? (source : List Char) : Option (List Char) :=
  match skipSpace source with
  | [] => some []
  | '#' :: rest => (afterComment? rest).map fun rest => (afterNewline? rest).getD []
  | rest => afterNewline? rest

def skipFiller? : Nat → List Char → Option (List Char)
  | 0, source => some source
  | fuel + 1, source =>
      match skipSpace source with
      | '#' :: rest =>
          match afterComment? rest with
          | some rest => skipFiller? fuel rest
          | none => none
      | rest =>
          match afterNewline? rest with
          | some rest => skipFiller? fuel rest
          | none => some rest

def isBareChar (c : Char) : Bool :=
  c.isAlphanum || c = '_' || c = '-'

def readName? (source : List Char) : Option (String × List Char) :=
  match source with
  | '"' :: rest =>
      (readBasic? (rest.length + 1) rest).map fun (text, rest) => (String.ofList text, rest)
  | '\'' :: rest => (readLiteral? rest).map fun (text, rest) => (String.ofList text, rest)
  | _ =>
      match source.span isBareChar with
      | ([], _) => none
      | (name, rest) => some (String.ofList name, rest)

/-- At most `limit` names set off by points; the last one is apart from the path to it. -/
def readNames? : Nat → List Char → Option (List String × String × List Char)
  | 0, _ => none
  | limit + 1, source =>
      match readName? source with
      | none => none
      | some (name, rest) =>
          match skipSpace rest with
          | '.' :: rest =>
              (readNames? limit (skipSpace rest)).map fun (path, last, rest) =>
                (name :: path, last, rest)
          | rest => some ([], name, rest)

/-- A key: the path to its last name, that name, and the rest. -/
def readKey? (source : List Char) : Option (List String × String × List Char) :=
  readNames? nestingLimit source

/-- The key of an entry in an inline table, and the rest from its value on.  Line ends and
comments may stand on both sides of the equals sign. -/
def readField? (source : List Char) : Option (List String × String × List Char) :=
  match readKey? source with
  | none => none
  | some (path, name, rest) =>
      match skipFiller? rest.length rest with
      | some ('=' :: rest) =>
          (skipFiller? rest.length rest).map fun rest => (path, name, rest)
      | _ => none

mutual

/-- A value inside which at most `room` containers may nest, in at most `fuel` steps. -/
def readValue? : Nat → Nat → List Char → Option (Value × List Char)
  | 0, _, _ => none
  | fuel + 1, room, source =>
      match source with
      | '"' :: '"' :: '"' :: rest =>
          (readMultiline? '"' rest).map fun (text, rest) => (.text (String.ofList text), rest)
      | '"' :: rest =>
          (readBasic? (rest.length + 1) rest).map fun (text, rest) =>
            (.text (String.ofList text), rest)
      | '\'' :: '\'' :: '\'' :: rest =>
          (readMultiline? '\'' rest).map fun (text, rest) => (.text (String.ofList text), rest)
      | '\'' :: rest =>
          (readLiteral? rest).map fun (text, rest) => (.text (String.ofList text), rest)
      | '[' :: rest =>
          match room with
          | 0 => none
          | room + 1 =>
              (readElements? fuel room rest).map fun (elements, rest) => (.array elements, rest)
      | '\x7b' :: rest =>
          match room with
          | 0 => none
          | room + 1 =>
              (readInline? fuel room [] rest).map fun (entries, rest) =>
                (.table (finishEntries entries), rest)
      | _ =>
          let (word, rest) := splitWord source
          (readWord? word).map fun value => (value, rest)

/-- The elements of an array and its closing bracket; the last one may have a comma. -/
def readElements? : Nat → Nat → List Char → Option (List Value × List Char)
  | 0, _, _ => none
  | fuel + 1, room, source =>
      match skipFiller? source.length source with
      | none => none
      | some (']' :: rest) => some ([], rest)
      | some source =>
          match readValue? fuel room source with
          | none => none
          | some (value, rest) =>
              match skipFiller? rest.length rest with
              | some (']' :: rest) => some ([value], rest)
              | some (',' :: rest) =>
                  (readElements? fuel room rest).map fun (values, rest) =>
                    (value :: values, rest)
              | _ => none

/-- The entries of an inline table and its closing brace; the last one may have a comma. -/
def readInline? : Nat → Nat → Entries → List Char → Option (Entries × List Char)
  | 0, _, _, _ => none
  | fuel + 1, room, entries, source =>
      match skipFiller? source.length source with
      | none => none
      | some ('\x7d' :: rest) => some (entries, rest)
      | some source =>
          match readField? source with
          | none => none
          | some (path, name, source) =>
              match readValue? fuel room source with
              | none => none
              | some (value, rest) =>
                  match entries.assign? name value path with
                  | none => none
                  | some entries =>
                      match skipFiller? rest.length rest with
                      | some ('\x7d' :: rest) => some (entries, rest)
                      | some (',' :: rest) => readInline? fuel room entries rest
                      | _ => none

end

def readAssignment? (source : List Char) :
    Option (List String × String × Value × List Char) :=
  match readKey? source with
  | some (path, name, '=' :: rest) =>
      (readValue? (2 * rest.length + 2) nestingLimit (skipSpace rest)).map
        fun (value, rest) => (path, name, value, rest)
  | _ => none

/-- What a document has said so far: the open table and all entries. -/
structure Progress where
  /-- The names in the last header. -/
  current : List String := []
  entries : Entries := []
deriving Inhabited

/-- Takes one line, after its blanks, into account, and gives the rest after it. -/
def readLine? (progress : Progress) (source : List Char) : Option (Progress × List Char) :=
  match source with
  | '[' :: '[' :: rest =>
      match readKey? (skipSpace rest) with
      | some (path, name, ']' :: ']' :: rest) => do
          let entries ← progress.entries.openElement? (path ++ [name])
          let rest ← afterLine? rest
          return (⟨path ++ [name], entries⟩, rest)
      | _ => none
  | '[' :: rest =>
      match readKey? (skipSpace rest) with
      | some (path, name, ']' :: rest) => do
          let entries ← progress.entries.openTable? (path ++ [name])
          let rest ← afterLine? rest
          return (⟨path ++ [name], entries⟩, rest)
      | _ => none
  | _ =>
      match readAssignment? source with
      | some (path, name, value, rest) => do
          let entries ← progress.entries.within? (·.assign? name value path) progress.current
          let rest ← afterLine? rest
          return (⟨progress.current, entries⟩, rest)
      | none => none

def readDocument? : Nat → Progress → List Char → Option Entries
  | 0, _, _ => none
  | fuel + 1, progress, source =>
      match skipFiller? source.length source with
      | none => none
      | some [] => some progress.entries
      | some source =>
          match readLine? progress source with
          | some (progress, rest) => readDocument? fuel progress rest
          | none => none

/-- The entries of the document that a text stands for.  A byte-order mark may come first. -/
def parse? (text : String) : Option (List (String × Value)) :=
  let source := match text.toList with
    | '\uFEFF' :: rest => rest
    | source => source
  (readDocument? (source.length + 1) {} source).map finishEntries

def reader : Reader :=
  ⟨parse?, Value.isRepresentable⟩

end CanonTree.Toml
