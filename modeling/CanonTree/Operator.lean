/-!
# Operators

Operators are a field of expression nodes and not tags.  Each operator belongs to
one class, so that an analysis of, say, comparisons need not list them.  Prefix
and postfix forms of one symbol are different operators; only the prefix form is
found by its symbol.
-/

namespace CanonTree

inductive OperatorClass where
  | arithmetic
  | comparison
  | logical
  | bitwise
  /-- Reference identity. -/
  | identity
  /-- Membership in a container. -/
  | membership
  /-- Runtime type tests and conversions. -/
  | typeTest
  /-- Null coalescing. -/
  | coalesce
deriving DecidableEq, Ord, Inhabited

def OperatorClass.all : List OperatorClass :=
  [.arithmetic, .comparison, .logical, .bitwise, .identity, .membership, .typeTest, .coalesce]

def OperatorClass.variant : OperatorClass → String
  | .arithmetic => "Arithmetic"
  | .comparison => "Comparison"
  | .logical => "Logical"
  | .bitwise => "Bitwise"
  | .identity => "Identity"
  | .membership => "Membership"
  | .typeTest => "TypeTest"
  | .coalesce => "Coalesce"

inductive BinaryOperator where
  | or
  | and
  | bitOr
  /-- Bitwise exclusive or. -/
  | bitXor
  /-- Bitwise and. -/
  | bitAnd
  | eq
  | ne
  /-- Equality without conversion. -/
  | eqStrict
  /-- Inequality without conversion. -/
  | neStrict
  | lt
  | le
  | gt
  | ge
  /-- Membership test. -/
  | inside
  /-- Runtime type test. -/
  | instanceOf
  /-- Shift right that keeps the sign. -/
  | shr
  /-- Shift right that fills with zeros. -/
  | shrLogical
  | shl
  | add
  | sub
  | mul
  /-- Matrix multiplication. -/
  | matMul
  | div
  /-- Division rounded down. -/
  | floorDiv
  | rem
  | pow
  /-- First operand unless it is null. -/
  | coalesce
  /-- Checked conversion. -/
  | convert
  | notInside
  /-- Reference identity. -/
  | sameAs
  | notSameAs
deriving DecidableEq, Ord, Inhabited

namespace BinaryOperator

def all : List BinaryOperator :=
  [.or, .and, .bitOr, .bitXor, .bitAnd, .eq, .ne, .eqStrict, .neStrict, .lt, .le, .gt, .ge,
   .inside, .instanceOf, .shr, .shrLogical, .shl, .add, .sub, .mul, .matMul, .div, .floorDiv,
   .rem, .pow, .coalesce, .convert, .notInside, .sameAs, .notSameAs]

def symbol : BinaryOperator → String
  | .or => "||"
  | .and => "&&"
  | .bitOr => "|"
  | .bitXor => "^"
  | .bitAnd => "&"
  | .eq => "=="
  | .ne => "!="
  | .eqStrict => "==="
  | .neStrict => "!=="
  | .lt => "<"
  | .le => "<="
  | .gt => ">"
  | .ge => ">="
  | .inside => "in"
  | .instanceOf => "instanceof"
  | .shr => ">>"
  | .shrLogical => ">>>"
  | .shl => "<<"
  | .add => "+"
  | .sub => "-"
  | .mul => "*"
  | .matMul => "@"
  | .div => "/"
  | .floorDiv => "//"
  | .rem => "%"
  | .pow => "**"
  | .coalesce => "??"
  | .convert => "as"
  | .notInside => "not in"
  | .sameAs => "is"
  | .notSameAs => "is not"

def variant : BinaryOperator → String
  | .or => "Or"
  | .and => "And"
  | .bitOr => "BwOr"
  | .bitXor => "BwXor"
  | .bitAnd => "BwAnd"
  | .eq => "Eq"
  | .ne => "Neq"
  | .eqStrict => "EqId"
  | .neStrict => "NeqId"
  | .lt => "Lt"
  | .le => "Le"
  | .gt => "Gt"
  | .ge => "Ge"
  | .inside => "In"
  | .instanceOf => "Instanceof"
  | .shr => "Shr"
  | .shrLogical => "ShrLogical"
  | .shl => "Shl"
  | .add => "Add"
  | .sub => "Sub"
  | .mul => "Mul"
  | .matMul => "MulMat"
  | .div => "Div"
  | .floorDiv => "IDiv"
  | .rem => "Mod"
  | .pow => "Pow"
  | .coalesce => "Coalesce"
  | .convert => "As"
  | .notInside => "NotIn"
  | .sameAs => "Is"
  | .notSameAs => "IsNot"

def ofSymbol? (symbol : String) : Option BinaryOperator :=
  all.find? (·.symbol == symbol)

def ofVariant? (variant : String) : Option BinaryOperator :=
  all.find? (·.variant == variant)

def group : BinaryOperator → OperatorClass
  | .add | .sub | .mul | .matMul | .div | .floorDiv | .rem | .pow => .arithmetic
  | .eq | .ne | .lt | .le | .gt | .ge => .comparison
  | .or | .and => .logical
  | .bitOr | .bitXor | .bitAnd | .shr | .shrLogical | .shl => .bitwise
  | .eqStrict | .neStrict | .sameAs | .notSameAs => .identity
  | .inside | .notInside => .membership
  | .instanceOf | .convert => .typeTest
  | .coalesce => .coalesce

/-- The operands may change places. -/
def isCommutative : BinaryOperator → Bool
  | .add | .mul | .eq | .ne | .eqStrict | .neStrict | .bitOr | .bitXor | .bitAnd => true
  | _ => false

/-- The right operand may be skipped when the program runs. -/
def isShortCircuit : BinaryOperator → Bool
  | .or | .and | .coalesce => true
  | _ => false

end BinaryOperator

inductive UnaryOperator where
  /-- Numeric identity. -/
  | plus
  | minus
  | not
  /-- Bitwise complement. -/
  | bitNot
  | preIncrement
  | preDecrement
  | postIncrement
  | postDecrement
  | typeOf
  | void
deriving DecidableEq, Ord, Inhabited

namespace UnaryOperator

def all : List UnaryOperator :=
  [.plus, .minus, .not, .bitNot, .preIncrement, .preDecrement, .postIncrement, .postDecrement,
   .typeOf, .void]

def symbol : UnaryOperator → String
  | .plus => "+"
  | .minus => "-"
  | .not => "!"
  | .bitNot => "~"
  | .preIncrement => "++"
  | .preDecrement => "--"
  | .postIncrement => "++"
  | .postDecrement => "--"
  | .typeOf => "typeof"
  | .void => "void"

def variant : UnaryOperator → String
  | .plus => "Plus"
  | .minus => "Minus"
  | .not => "Not"
  | .bitNot => "BwNot"
  | .preIncrement => "PreIncrement"
  | .preDecrement => "PreDecrement"
  | .postIncrement => "PostIncrement"
  | .postDecrement => "PostDecrement"
  | .typeOf => "TypeOf"
  | .void => "Void"

def comesFirst : UnaryOperator → Bool
  | .postIncrement | .postDecrement => false
  | _ => true

/-- The operator that is written before its operand with the given symbol. -/
def ofSymbol? (symbol : String) : Option UnaryOperator :=
  all.find? fun operator => operator.comesFirst && operator.symbol == symbol

def ofVariant? (variant : String) : Option UnaryOperator :=
  all.find? (·.variant == variant)

def group : UnaryOperator → OperatorClass
  | .plus | .minus | .preIncrement | .preDecrement | .postIncrement | .postDecrement => .arithmetic
  | .not | .void => .logical
  | .bitNot => .bitwise
  | .typeOf => .typeTest

end UnaryOperator

inductive Operator where
  | binary (operator : BinaryOperator)
  | unary (operator : UnaryOperator)
deriving DecidableEq, Ord, Inhabited

namespace Operator

def group : Operator → OperatorClass
  | .binary operator => operator.group
  | .unary operator => operator.group

def symbol : Operator → String
  | .binary operator => operator.symbol
  | .unary operator => operator.symbol

/-- Number of operands, as a variant name. -/
def arityVariant : Operator → String
  | .binary _ => "Binary"
  | .unary _ => "Unary"

/-- Variant name of the operator among those with as many operands. -/
def variant : Operator → String
  | .binary operator => operator.variant
  | .unary operator => operator.variant

/-- Both variant names in nested form, as in `Binary(Add)`. -/
def nested (operator : Operator) : String :=
  operator.arityVariant ++ "(" ++ operator.variant ++ ")"

end Operator

end CanonTree
