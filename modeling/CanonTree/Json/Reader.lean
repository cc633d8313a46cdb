import CanonTree.Json.Value
import CanonTree.Text.Digit

/-!
# Reading JSON

A text is read from left to right, one value and nothing else but blanks.  Readers
take the characters that are left and give back what they read with the rest.
-/

namespace CanonTree.Json

/-- Space, tab and the two line ends. -/
def isBlank (c : Char) : Bool :=
  c = ' ' || c = '\n' || c = '\t' || c = '\r'

def skipBlanks (source : List Char) : List Char :=
  source.dropWhile isBlank

def letterEscape? : Char → Option Char
  | '"' => some '"'
  | '\\' => some '\\'
  | '/' => some '/'
  | 'b' => some '\x08'
  | 'f' => some '\x0c'
  | 'n' => some '\n'
  | 'r' => some '\r'
  | 't' => some '\t'
  | _ => none

/-- A piece of a string: a character, or a code unit named by an escape. -/
inductive Piece where
  | char (c : Char)
  | unit (value : Nat)
deriving DecidableEq, Inhabited

/-- The pieces up to the closing quote.  Controls have to be escaped. -/
def readPieces? : List Char → Option (List Piece × List Char)
  | [] => none
  | '"' :: rest => some ([], rest)
  | '\\' :: 'u' :: a :: b :: c :: d :: rest =>
      match Text.hexValue? [a, b, c, d], readPieces? rest with
      | some unit, some (pieces, rest) => some (.unit unit :: pieces, rest)
      | _, _ => none
  | '\\' :: letter :: rest =>
      match letterEscape? letter, readPieces? rest with
      | some c, some (pieces, rest) => some (.char c :: pieces, rest)
      | _, _ => none
  | c :: rest =>
      if c.toNat < 0x20 || c = '\\' then none
      else (readPieces? rest).map fun (pieces, rest) => (.char c :: pieces, rest)

def isHighSurrogate (unit : Nat) : Bool :=
  0xD800 ≤ unit && unit < 0xDC00

def isLowSurrogate (unit : Nat) : Bool :=
  0xDC00 ≤ unit && unit < 0xE000

/-- The characters that the pieces stand for, a pair of surrogates being one. -/
def joinPieces? : List Piece → Option (List Char)
  | [] => some []
  | .char c :: rest => (joinPieces? rest).map (c :: ·)
  | .unit high :: .unit low :: rest =>
      if isHighSurrogate high && isLowSurrogate low then
        (joinPieces? rest).map
          (Char.ofNat ((high - 0xD800) * 0x400 + (low - 0xDC00) + 0x10000) :: ·)
      else if isHighSurrogate high || isLowSurrogate high then none
      else (joinPieces? (.unit low :: rest)).map (Char.ofNat high :: ·)
  | .unit unit :: rest =>
      if isHighSurrogate unit || isLowSurrogate unit then none
      else (joinPieces? rest).map (Char.ofNat unit :: ·)

def readString? (source : List Char) : Option (Quoted × List Char) :=
  match readPieces? source with
  | none => none
  | some (pieces, rest) =>
      match joinPieces? pieces with
      | some text => some (.plain (String.ofList text), rest)
      | none =>
          some (.broken (String.ofList (source.take (source.length - rest.length - 1))), rest)

def readDigits? (source : List Char) : Option (List Char × List Char) :=
  match source.span Char.isDigit with
  | ([], _) => none
  | (digits, rest) => some (digits, rest)

/-- The integer part of a number: no zero stands before another digit. -/
def readInteger? : List Char → Option (List Char × List Char)
  | '0' :: rest => some (['0'], rest)
  | source => readDigits? source

def readFraction? : List Char → Option (List Char × List Char)
  | '.' :: rest => (readDigits? rest).map fun (digits, rest) => ('.' :: digits, rest)
  | source => some ([], source)

def readExponent? : List Char → Option (List Char × List Char)
  | mark :: rest =>
      if mark = 'e' || mark = 'E' then
        match rest with
        | sign :: digits =>
            if sign = '+' || sign = '-' then
              (readDigits? digits).map fun (digits, rest) => (mark :: sign :: digits, rest)
            else (readDigits? rest).map fun (digits, rest) => (mark :: digits, rest)
        | [] => none
      else some ([], mark :: rest)
  | [] => some ([], [])

def readNumber? (source : List Char) : Option (Value × List Char) :=
  let (sign, unsigned) := match source with
    | '-' :: rest => (['-'], rest)
    | _ => ([], source)
  match readInteger? unsigned with
  | none => none
  | some (integer, rest) =>
      match readFraction? rest with
      | none => none
      | some (fraction, rest) =>
          match readExponent? rest with
          | none => none
          | some (exponent, rest) =>
              if sign.isEmpty && fraction.isEmpty && exponent.isEmpty then
                some (.natural (Text.digitsValue 10 integer), rest)
              else
                some (.numeral (String.ofList (sign ++ integer ++ fraction ++ exponent)), rest)

mutual

/-- A value after any blanks, in at most `fuel` steps. -/
def readValue? : Nat → List Char → Option (Value × List Char)
  | 0, _ => none
  | fuel + 1, source =>
      match skipBlanks source with
      | 'n' :: 'u' :: 'l' :: 'l' :: rest => some (.null, rest)
      | 't' :: 'r' :: 'u' :: 'e' :: rest => some (.boolean true, rest)
      | 'f' :: 'a' :: 'l' :: 's' :: 'e' :: rest => some (.boolean false, rest)
      | '"' :: rest => (readString? rest).map fun (content, rest) => (.string content, rest)
      | '[' :: rest =>
          match skipBlanks rest with
          | ']' :: rest => some (.array [], rest)
          | rest => (readElements? fuel rest).map fun (elements, rest) => (.array elements, rest)
      | '\x7b' :: rest =>
          match skipBlanks rest with
          | '\x7d' :: rest => some (.object [], rest)
          | rest => (readFields? fuel rest).map fun (fields, rest) => (.object fields, rest)
      | rest => readNumber? rest

def readElements? : Nat → List Char → Option (List Value × List Char)
  | 0, _ => none
  | fuel + 1, source =>
      match readValue? fuel source with
      | none => none
      | some (value, rest) =>
          match skipBlanks rest with
          | ']' :: rest => some ([value], rest)
          | ',' :: rest =>
              (readElements? fuel rest).map fun (values, rest) => (value :: values, rest)
          | _ => none

def readFields? : Nat → List Char → Option (List (Quoted × Value) × List Char)
  | 0, _ => none
  | fuel + 1, source =>
      match skipBlanks source with
      | '"' :: rest =>
          match readString? rest with
          | none => none
          | some (name, rest) =>
              match skipBlanks rest with
              | ':' :: rest =>
                  match readValue? fuel rest with
                  | none => none
                  | some (value, rest) =>
                      match skipBlanks rest with
                      | '\x7d' :: rest => some ([(name, value)], rest)
                      | ',' :: rest =>
                          (readFields? fuel rest).map fun (fields, rest) =>
                            ((name, value) :: fields, rest)
                      | _ => none
              | _ => none
      | _ => none

end

/-- The value that a whole text stands for.  Every step but the last of each container takes a
character, so twice their number is enough. -/
def Value.parse? (text : String) : Option Value :=
  match readValue? (2 * text.length + 2) text.toList with
  | some (value, rest) => if (skipBlanks rest).isEmpty then some value else none
  | none => none

end CanonTree.Json
