import CanonTree.Text.Digit
import CanonTree.Toml.Value

/-!
# Numbers, dates and words

The values that stand in a document without quotes or brackets.  Each reader takes
a whole word, that is, all characters up to the next one that no such value has.
-/

namespace CanonTree.Toml

open Text

/-- The characters that numbers, dates and truth values are made of. -/
def isWordChar (c : Char) : Bool :=
  c.isAlphanum || c = '+' || c = '-' || c = '_' || c = '.' || c = ':'

/-- One or more digits without the underscores that may stand between two of them. -/
def ungroup? (isDigit : Char → Bool) : List Char → Option (List Char)
  | [] => none
  | [c] => if isDigit c then some [c] else none
  | c :: '_' :: rest => if isDigit c then (ungroup? isDigit rest).map (c :: ·) else none
  | c :: rest => if isDigit c then (ungroup? isDigit rest).map (c :: ·) else none

/-- The digits of a decimal number: no zero stands before another digit. -/
def decimalDigits? (source : List Char) : Option (List Char) :=
  match ungroup? Char.isDigit source with
  | some ('0' :: _ :: _) => none
  | digits => digits

/-- A sign, true for minus, and what follows it. -/
def splitSign : List Char → Bool × List Char
  | '+' :: rest => (false, rest)
  | '-' :: rest => (true, rest)
  | source => (false, source)

/-- A whole number in one of four bases; only decimal ones may have a sign. -/
def readInteger? (word : List Char) : Option Int :=
  match word with
  | '0' :: 'x' :: digits => (ungroup? isHexDigit digits).map fun ds => (digitsValue 16 ds : Int)
  | '0' :: 'o' :: digits => (ungroup? isOctalDigit digits).map fun ds => (digitsValue 8 ds : Int)
  | '0' :: 'b' :: digits =>
      (ungroup? isBinaryDigit digits).map fun ds => (digitsValue 2 ds : Int)
  | _ =>
      let (negative, digits) := splitSign word
      (decimalDigits? digits).map fun ds =>
        if negative then -(digitsValue 10 ds : Int) else (digitsValue 10 ds : Int)

def isGroupChar (c : Char) : Bool :=
  c.isDigit || c = '_'

def readExponent? (source : List Char) : Option Int :=
  let (negative, digits) := splitSign source
  (ungroup? Char.isDigit digits).map fun ds =>
    if negative then -(digitsValue 10 ds : Int) else (digitsValue 10 ds : Int)

/-- A decimal number with a fraction, an exponent or both. -/
def readFloat? (word : List Char) : Option Decimal :=
  let (whole, rest) := (splitSign word).2.span isGroupChar
  match decimalDigits? whole with
  | none => none
  | some whole =>
      match rest with
      | '.' :: rest =>
          let (fraction, rest) := rest.span isGroupChar
          match ungroup? Char.isDigit fraction with
          | none => none
          | some fraction =>
              let mantissa := digitsValue 10 (whole ++ fraction)
              match rest with
              | [] => some ⟨mantissa, -(fraction.length : Int)⟩
              | mark :: rest =>
                  if mark = 'e' || mark = 'E' then
                    (readExponent? rest).map fun exponent =>
                      ⟨mantissa, exponent - fraction.length⟩
                  else none
      | mark :: rest =>
          if mark = 'e' || mark = 'E' then
            (readExponent? rest).map fun exponent => ⟨digitsValue 10 whole, exponent⟩
          else none
      | [] => none

/-- An infinity or not a number, with any sign. -/
def isNonFinite (word : List Char) : Bool :=
  let word := (splitSign word).2
  word = ['i', 'n', 'f'] || word = ['n', 'a', 'n']

/-- Every fourth year is a leap year, but of the full centuries only every fourth. -/
def isLeapYear (year : Nat) : Bool :=
  year % 4 = 0 && (year % 100 ≠ 0 || year % 400 = 0)

def daysInMonth (year month : Nat) : Nat :=
  if month = 2 then (if isLeapYear year then 29 else 28)
  else if month = 4 || month = 6 || month = 9 || month = 11 then 30
  else 31

def twoDigits? (a b : Char) : Option Nat :=
  if a.isDigit && b.isDigit then some (digitsValue 10 [a, b]) else none

/-- What follows a valid date, as in `1979-05-27`. -/
def afterDate? : List Char → Option (List Char)
  | y :: y' :: y'' :: y''' :: '-' :: m :: m' :: '-' :: d :: d' :: rest =>
      match twoDigits? y y', twoDigits? y'' y''', twoDigits? m m', twoDigits? d d' with
      | some century, some year, some month, some day =>
          if 1 ≤ month && month ≤ 12 && 1 ≤ day &&
              day ≤ daysInMonth (century * 100 + year) month then some rest
          else none
      | _, _, _, _ => none
  | _ => none

def afterFraction? : List Char → Option (List Char)
  | '.' :: rest =>
      match rest.span Char.isDigit with
      | ([], _) => none
      | (_, rest) => some rest
  | source => some source

/-- What follows a valid time; seconds may be missing, and there is a sixtieth one. -/
def afterTime? : List Char → Option (List Char)
  | h :: h' :: ':' :: m :: m' :: rest =>
      match twoDigits? h h', twoDigits? m m' with
      | some hour, some minute =>
          if hour ≤ 23 && minute ≤ 59 then
            match rest with
            | ':' :: s :: s' :: rest =>
                match twoDigits? s s' with
                | some second => if second ≤ 60 then afterFraction? rest else none
                | none => none
            | _ => some rest
          else none
      | _, _ => none
  | _ => none

def isOffset : List Char → Bool
  | [] => true
  | [zulu] => zulu = 'Z' || zulu = 'z'
  | [sign, h, h', ':', m, m'] =>
      (sign = '+' || sign = '-') &&
        match twoDigits? h h', twoDigits? m m' with
        | some hour, some minute => hour ≤ 23 && minute ≤ 59
        | _, _ => false
  | _ => false

def isDatetime (word : List Char) : Bool :=
  match afterDate? word with
  | some [] => true
  | some (delimiter :: time) =>
      (delimiter = 'T' || delimiter = 't' || delimiter = ' ') &&
        match afterTime? time with
        | some offset => isOffset offset
        | none => false
  | none => afterTime? word = some []

def readWord? (word : List Char) : Option Value :=
  if word = ['t', 'r', 'u', 'e'] then some (.boolean true)
  else if word = ['f', 'a', 'l', 's', 'e'] then some (.boolean false)
  else if isNonFinite word then some .nonFinite
  else if isDatetime word then some (.datetime (String.ofList word))
  else
    match readInteger? word with
    | some value => some (.integer value)
    | none => (readFloat? word).map .float

/-- The word at the start of the text and the rest.  A date may be set off from a time by one
space. -/
def splitWord (source : List Char) : List Char × List Char :=
  match source.span isWordChar with
  | (word, ' ' :: c :: rest) =>
      if afterDate? word = some [] && c.isDigit then
        let (time, rest) := (c :: rest).span isWordChar
        (word ++ ' ' :: time, rest)
      else (word, ' ' :: c :: rest)
  | (word, rest) => (word, rest)

end CanonTree.Toml
