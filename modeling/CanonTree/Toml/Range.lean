import CanonTree.Toml.Value

/-!
# Numbers that can be represented

A number is turned into an integer of 128 bits or into a double when it is visited, and
not every number that can be written fits one of them.
-/

namespace CanonTree.Toml

/-- The least magnitude that is nearer to infinity than to the greatest double. -/
def Decimal.overflowBound : Nat := Nat.pow 2 1024 - Nat.pow 2 970

/-- The magnitude rounds to infinity.  Only magnitudes near the bound, which lies between
`10 ^ 308` and `10 ^ 309`, have to be computed. -/
def Decimal.overflows (decimal : Decimal) : Bool :=
  let digits := (Nat.toDigits 10 decimal.mantissa).length
  if decimal.mantissa = 0 then false
  else if digits + decimal.exponent ≤ 308 then false
  else if digits + decimal.exponent > 310 then true
  else if decimal.exponent < 0 then
    Decimal.overflowBound * Nat.pow 10 decimal.exponent.natAbs ≤ decimal.mantissa
  else Decimal.overflowBound ≤ decimal.mantissa * Nat.pow 10 decimal.exponent.natAbs

namespace Value

/-- Least integer that can be represented, in 128 bits with a sign. -/
def minInteger : Int := -Int.ofNat (Nat.pow 2 127)

/-- Greatest integer that can be represented, in 128 bits without a sign. -/
def maxInteger : Int := Int.ofNat (Nat.pow 2 128 - 1)

mutual

def isRepresentable : Value → Bool
  | .integer value => minInteger ≤ value && value ≤ maxInteger
  | .float magnitude => !magnitude.overflows
  | .array elements => areRepresentable elements
  | .table entries => entriesRepresentable entries
  | _ => true

def areRepresentable : List Value → Bool
  | [] => true
  | value :: values => isRepresentable value && areRepresentable values

def entriesRepresentable : List (String × Value) → Bool
  | [] => true
  | (_, value) :: entries => isRepresentable value && entriesRepresentable entries

end

end Value

end CanonTree.Toml
