import CanonTree.Tag.Flags

/-!
# ECMAScript vocabulary

Every construct of this language that is not shared is raw: it has no canonical
tags of its own.
-/

namespace CanonTree

/-- ECMAScript surface constructs, eliminated by normalization. -/
inductive EcmaRawTag where
  /-- `let a = 1, b;`, with one `ITEM` child for each declarator. -/
  | variableList
  /-- Template literal before its parts are classified. -/
  | templateString
  /-- `...expr` in an argument or literal. -/
  | spread
  /-- `export default` of an expression or declaration. -/
  | exportDefault
  /-- `a += b` and its kin, with the operator in the operator field. -/
  | compoundAssign
  /-- `a?.b` -/
  | optionalChain
deriving DecidableEq, Ord, Inhabited

def EcmaRawTag.all : List EcmaRawTag :=
  [.variableList, .templateString, .spread, .exportDefault, .compoundAssign, .optionalChain]

def EcmaRawTag.name : EcmaRawTag → String
  | .variableList => "RAW_VARIABLE_LIST"
  | .templateString => "RAW_TEMPLATE_STRING"
  | .spread => "RAW_SPREAD"
  | .exportDefault => "RAW_EXPORT_DEFAULT"
  | .compoundAssign => "RAW_COMPOUND_ASSIGN"
  | .optionalChain => "RAW_OPTIONAL_CHAIN"

def EcmaRawTag.variant : EcmaRawTag → String
  | .variableList => "VariableList"
  | .templateString => "TemplateString"
  | .spread => "Spread"
  | .exportDefault => "ExportDefault"
  | .compoundAssign => "CompoundAssign"
  | .optionalChain => "OptionalChain"

def EcmaRawTag.ofName? (name : String) : Option EcmaRawTag :=
  EcmaRawTag.all.find? (·.name == name)

def EcmaRawTag.ofVariant? (variant : String) : Option EcmaRawTag :=
  EcmaRawTag.all.find? (·.variant == variant)

def EcmaRawTag.flags (_ : EcmaRawTag) : Flags :=
  Flags.surface

end CanonTree
