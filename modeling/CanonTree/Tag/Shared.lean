import CanonTree.Tag.Flags

/-!
# The shared vocabulary

The tags that every reader of a canonical tree has to understand, whatever the
source language.  Operators are not tags: a `BINARY` or `UNARY` node carries its
operator in a field of its own, so the vocabulary does not grow with them.

Each tag has an upper-case name, used in dumps, messages and look-ups, and a
variant name, used where a tag is written as data.
-/

namespace CanonTree

inductive SharedTag where
  /-- Absence of any construct. -/
  | none
  /-- Placeholder that is dropped, with all it holds, when a tree is normalized. -/
  | discarded
  | special
  | list
  | declList
  /-- Root of one compilation unit. -/
  | fileRoot
  | fold
  /-- Language region embedded in a host file. -/
  | lang
  | copyOf
  | ident
  | props
  | modifier
  | modifiers
  | expr
  | exprList
  | init
  | block
  /-- Wraps a single statement where a block is expected; opens no scope. -/
  | blockWrap
  | blockConditional
  | condition
  | part
  | item
  | call
  | dynamicCall
  | argument
  | arguments
  | newExpr
  | assign
  | ternary
  | binary
  | unary
  | literal
  | parenthesized
  | chain
  | unresolvedId
  | returnStmt
  | continueStmt
  | passStmt
  | breakStmt
  | throwStmt
  | deleteStmt
  | ifStmt
  | tryStmt
  | tryResource
  | catchClause
  | finallyClause
  | complete
  | caseClause
  | caseItem
  | label
  | extendsClause
  | implementsClause
  | templateParsed
  | templateText
  | superRef
  | thisRef
  | importDecl
  | importItem
  | exportDecl
  | aliasName
  | source
  | type
  | typeParameters
  | typeArguments
  | typeExpr
  | typeConstraint
  | typeUnion
  | typeIntersection
  | typeCast
  | members
  /-- Binds the name in its text, or the names of its `NAME` children. -/
  | decl
  | key
  | arrayAccessor
  | builtinCall
  | defaultMark
  | fromClause
  | declareStmt
  | namespaceDecl
  | debugStmt
  | assertStmt
  | packageName
  | arrayDims
  | arrayDim
  | value
  | asyncMark
  | ellipsis
  | awaitExpr
  | yieldExpr
  | start
  | stop
  | step
  | index
  | forOf
  | forIn
  | forInit
  | forCondition
  | forUpdate
deriving DecidableEq, Ord, Inhabited

def SharedTag.all : List SharedTag :=
  [.none, .discarded, .special, .list, .declList, .fileRoot, .fold, .lang, .copyOf, .ident,
   .props, .modifier, .modifiers, .expr, .exprList, .init, .block, .blockWrap,
   .blockConditional, .condition, .part, .item, .call, .dynamicCall, .argument, .arguments,
   .newExpr, .assign, .ternary, .binary, .unary, .literal, .parenthesized, .chain,
   .unresolvedId, .returnStmt, .continueStmt, .passStmt, .breakStmt, .throwStmt, .deleteStmt,
   .ifStmt, .tryStmt, .tryResource, .catchClause, .finallyClause, .complete, .caseClause,
   .caseItem, .label, .extendsClause, .implementsClause, .templateParsed, .templateText,
   .superRef, .thisRef, .importDecl, .importItem, .exportDecl, .aliasName, .source, .type,
   .typeParameters, .typeArguments, .typeExpr, .typeConstraint, .typeUnion, .typeIntersection,
   .typeCast, .members, .decl, .key, .arrayAccessor, .builtinCall, .defaultMark, .fromClause,
   .declareStmt, .namespaceDecl, .debugStmt, .assertStmt, .packageName, .arrayDims, .arrayDim,
   .value, .asyncMark, .ellipsis, .awaitExpr, .yieldExpr, .start, .stop, .step, .index, .forOf,
   .forIn, .forInit, .forCondition, .forUpdate]

def SharedTag.name : SharedTag → String
  | .none => "NONE"
  | .discarded => "DISCARDED"
  | .special => "SPECIAL"
  | .list => "LIST"
  | .declList => "DECL_LIST"
  | .fileRoot => "FILE_ROOT"
  | .fold => "FOLD"
  | .lang => "LANG"
  | .copyOf => "COPY_OF"
  | .ident => "NAME"
  | .props => "PROPS"
  | .modifier => "MODIFIER"
  | .modifiers => "MODIFIERS"
  | .expr => "EXPR"
  | .exprList => "EXPR_LIST"
  | .init => "INIT"
  | .block => "BLOCK"
  | .blockWrap => "BLOCK_WRAP"
  | .blockConditional => "BLOCK_CONDITIONAL"
  | .condition => "CONDITION"
  | .part => "PART"
  | .item => "ITEM"
  | .call => "CALL"
  | .dynamicCall => "DYNAMIC_CALL"
  | .argument => "ARGUMENT"
  | .arguments => "ARGUMENTS"
  | .newExpr => "NEW"
  | .assign => "ASSIGN"
  | .ternary => "TERNARY"
  | .binary => "BINARY"
  | .unary => "UNARY"
  | .literal => "LITERAL"
  | .parenthesized => "PARENTHESIZED"
  | .chain => "CHAIN"
  | .unresolvedId => "UNRESOLVED_ID"
  | .returnStmt => "RETURN"
  | .continueStmt => "CONTINUE"
  | .passStmt => "PASS"
  | .breakStmt => "BREAK"
  | .throwStmt => "THROW"
  | .deleteStmt => "DELETE"
  | .ifStmt => "IF"
  | .tryStmt => "TRY"
  | .tryResource => "TRY_RESOURCE"
  | .catchClause => "CATCH"
  | .finallyClause => "FINALLY"
  | .complete => "COMPLETE"
  | .caseClause => "CASE"
  | .caseItem => "CASE_ITEM"
  | .label => "LABEL"
  | .extendsClause => "EXTENDS"
  | .implementsClause => "IMPLEMENTS"
  | .templateParsed => "TEMPLATE_PARSED"
  | .templateText => "TEMPLATE_TEXT"
  | .superRef => "SUPER"
  | .thisRef => "THIS"
  | .importDecl => "IMPORT"
  | .importItem => "IMPORT_ITEM"
  | .exportDecl => "EXPORT"
  | .aliasName => "ALIAS"
  | .source => "SOURCE"
  | .type => "TYPE"
  | .typeParameters => "TYPE_PARAMETERS"
  | .typeArguments => "TYPE_ARGUMENTS"
  | .typeExpr => "TYPE_EXPR"
  | .typeConstraint => "TYPE_CONSTRAINT"
  | .typeUnion => "TYPE_UNION"
  | .typeIntersection => "TYPE_INTERSECTION"
  | .typeCast => "TYPE_CAST"
  | .members => "MEMBERS"
  | .decl => "DECL"
  | .key => "KEY"
  | .arrayAccessor => "ARRAY_ACCESSOR"
  | .builtinCall => "BUILTIN_CALL"
  | .defaultMark => "DEFAULT"
  | .fromClause => "FROM"
  | .declareStmt => "DECLARE"
  | .namespaceDecl => "NAMESPACE"
  | .debugStmt => "DEBUG"
  | .assertStmt => "ASSERT"
  | .packageName => "PACKAGE_NAME"
  | .arrayDims => "ARRAY_DIMS"
  | .arrayDim => "ARRAY_DIM"
  | .value => "VALUE"
  | .asyncMark => "ASYNC"
  | .ellipsis => "ELLIPSIS"
  | .awaitExpr => "AWAIT"
  | .yieldExpr => "YIELD"
  | .start => "START"
  | .stop => "STOP"
  | .step => "STEP"
  | .index => "INDEX"
  | .forOf => "FOR_OF"
  | .forIn => "FOR_IN"
  | .forInit => "FOR_INIT"
  | .forCondition => "FOR_CONDITION"
  | .forUpdate => "FOR_UPDATE"

def SharedTag.variant : SharedTag → String
  | .none => "None"
  | .discarded => "Discarded"
  | .special => "Special"
  | .list => "List"
  | .declList => "DeclList"
  | .fileRoot => "FileRoot"
  | .fold => "Fold"
  | .lang => "Lang"
  | .copyOf => "CopyOf"
  | .ident => "Name"
  | .props => "Props"
  | .modifier => "Modifier"
  | .modifiers => "Modifiers"
  | .expr => "Expr"
  | .exprList => "ExprList"
  | .init => "Init"
  | .block => "Block"
  | .blockWrap => "BlockWrap"
  | .blockConditional => "BlockConditional"
  | .condition => "Condition"
  | .part => "Part"
  | .item => "Item"
  | .call => "Call"
  | .dynamicCall => "DynamicCall"
  | .argument => "Argument"
  | .arguments => "Arguments"
  | .newExpr => "New"
  | .assign => "Assign"
  | .ternary => "Ternary"
  | .binary => "Binary"
  | .unary => "Unary"
  | .literal => "Literal"
  | .parenthesized => "Parenthesized"
  | .chain => "Chain"
  | .unresolvedId => "UnresolvedId"
  | .returnStmt => "Return"
  | .continueStmt => "Continue"
  | .passStmt => "Pass"
  | .breakStmt => "Break"
  | .throwStmt => "Throw"
  | .deleteStmt => "Delete"
  | .ifStmt => "If"
  | .tryStmt => "Try"
  | .tryResource => "TryResource"
  | .catchClause => "Catch"
  | .finallyClause => "Finally"
  | .complete => "Complete"
  | .caseClause => "Case"
  | .caseItem => "CaseItem"
  | .label => "Label"
  | .extendsClause => "Extends"
  | .implementsClause => "Implements"
  | .templateParsed => "TemplateParsed"
  | .templateText => "TemplateText"
  | .superRef => "Super"
  | .thisRef => "This"
  | .importDecl => "Import"
  | .importItem => "ImportItem"
  | .exportDecl => "Export"
  | .aliasName => "Alias"
  | .source => "Source"
  | .type => "Type"
  | .typeParameters => "TypeParameters"
  | .typeArguments => "TypeArguments"
  | .typeExpr => "TypeExpr"
  | .typeConstraint => "TypeConstraint"
  | .typeUnion => "TypeUnion"
  | .typeIntersection => "TypeIntersection"
  | .typeCast => "TypeCast"
  | .members => "Members"
  | .decl => "Decl"
  | .key => "Key"
  | .arrayAccessor => "ArrayAccessor"
  | .builtinCall => "BuiltinCall"
  | .defaultMark => "Default"
  | .fromClause => "From"
  | .declareStmt => "Declare"
  | .namespaceDecl => "Namespace"
  | .debugStmt => "Debug"
  | .assertStmt => "Assert"
  | .packageName => "PackageName"
  | .arrayDims => "ArrayDims"
  | .arrayDim => "ArrayDim"
  | .value => "Value"
  | .asyncMark => "Async"
  | .ellipsis => "Ellipsis"
  | .awaitExpr => "Await"
  | .yieldExpr => "Yield"
  | .start => "Start"
  | .stop => "Stop"
  | .step => "Step"
  | .index => "Index"
  | .forOf => "ForOf"
  | .forIn => "ForIn"
  | .forInit => "ForInit"
  | .forCondition => "ForCondition"
  | .forUpdate => "ForUpdate"

def SharedTag.ofName? (name : String) : Option SharedTag :=
  SharedTag.all.find? (·.name == name)

def SharedTag.ofVariant? (variant : String) : Option SharedTag :=
  SharedTag.all.find? (·.variant == variant)

/-- Structural role of a shared tag.  Each tag has at most one role. -/
def SharedTag.flags : SharedTag → Flags
  | .fileRoot | .lang | .block | .blockConditional | .condition => Flags.opensScope
  | .decl => Flags.declares
  | .discarded => Flags.isDropped
  | _ => Flags.empty

/-- The shared tags that open a scope, in declaration order. -/
def SharedTag.scoped : List SharedTag :=
  SharedTag.all.filter (·.flags.ownScope)

end CanonTree
