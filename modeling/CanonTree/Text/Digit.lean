/-!
# Digits

The values of digits and of rows of digits, in any base up to 16.
-/

namespace CanonTree.Text

/-- The value of a digit; letters of either case follow the ten figures. -/
def digitValue (c : Char) : Nat :=
  if c.isDigit then c.toNat - '0'.toNat
  else if 'a' ≤ c ∧ c ≤ 'z' then c.toNat - 'a'.toNat + 10
  else c.toNat - 'A'.toNat + 10

def isBinaryDigit (c : Char) : Bool :=
  c = '0' || c = '1'

def isOctalDigit (c : Char) : Bool :=
  '0' ≤ c && c ≤ '7'

def isHexDigit (c : Char) : Bool :=
  c.isDigit || ('a' ≤ c && c ≤ 'f') || ('A' ≤ c && c ≤ 'F')

def digitsValue (base : Nat) (digits : List Char) : Nat :=
  digits.foldl (fun value digit => value * base + digitValue digit) 0

def hexValue? (digits : List Char) : Option Nat :=
  if digits.all isHexDigit then some (digitsValue 16 digits) else none

end CanonTree.Text
