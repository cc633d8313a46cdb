import CanonTree.Config.Basic
import CanonTree.Json.Form
import CanonTree.Node.Basic

/-!
# The JSON forms of trees

Tags, operators, spans, scope identifiers, bindings, settings and whole trees as
JSON.  A tag or operator is written as the path to its variant, a scope identifier
as the index and version of its slot.
-/

namespace CanonTree

open Json

def Language.form : Form Language :=
  .choice Language.variant Language.ofVariant?

def SharedTag.form : Form SharedTag :=
  .choice SharedTag.variant SharedTag.ofVariant?

def JavaTag.form : Form JavaTag :=
  .choice JavaTag.variant JavaTag.ofVariant?

def JavaRawTag.form : Form JavaRawTag :=
  .choice JavaRawTag.variant JavaRawTag.ofVariant?

def EcmaRawTag.form : Form EcmaRawTag :=
  .choice EcmaRawTag.variant EcmaRawTag.ofVariant?

def RawTag.form : Form RawTag where
  write
    | .java tag => carried "Java" (JavaRawTag.form.write tag)
    | .ecma tag => carried "Ecma" (EcmaRawTag.form.write tag)
  read? room value :=
    match readCarried? room value with
    | some ("Java", room, content) => (JavaRawTag.form.read? room content).map .java
    | some ("Ecma", room, content) => (EcmaRawTag.form.read? room content).map .ecma
    | _ => none

def Tag.form : Form Tag where
  write
    | .shared tag => carried "Std" (SharedTag.form.write tag)
    | .java tag => carried "Java" (JavaTag.form.write tag)
    | .raw tag => carried "Raw" (RawTag.form.write tag)
  read? room value :=
    match readCarried? room value with
    | some ("Std", room, content) => (SharedTag.form.read? room content).map .shared
    | some ("Java", room, content) => (JavaTag.form.read? room content).map .java
    | some ("Raw", room, content) => (RawTag.form.read? room content).map .raw
    | _ => none

def BinaryOperator.form : Form BinaryOperator :=
  .choice BinaryOperator.variant BinaryOperator.ofVariant?

def UnaryOperator.form : Form UnaryOperator :=
  .choice UnaryOperator.variant UnaryOperator.ofVariant?

def Operator.form : Form Operator where
  write
    | .binary operator => carried "Binary" (BinaryOperator.form.write operator)
    | .unary operator => carried "Unary" (UnaryOperator.form.write operator)
  read? room value :=
    match readCarried? room value with
    | some ("Binary", room, content) => (BinaryOperator.form.read? room content).map .binary
    | some ("Unary", room, content) => (UnaryOperator.form.read? room content).map .unary
    | _ => none

def Span.form : Form Span where
  write span :=
    .record [("start", Form.word.write span.start), ("end", Form.word.write span.stop),
      ("line", Form.word.write span.line), ("column", Form.word.write span.column)]
  read? room value :=
    match readFieldsOf? ["start", "end", "line", "column"] {} room value with
    | some (room, [start, stop, line, column]) => do
        let start ← Form.word.required? room start
        let stop ← Form.word.required? room stop
        let line ← Form.word.required? room line
        let column ← Form.word.required? room column
        return ⟨start, stop, line, column⟩
    | _ => none

def ScopeId.nullIndex : Nat := wordBound - 1

/-- Identifiers by the index and version of their slot.  A version is odd while the slot is in
use, and an even one is read as the next odd one. -/
def ScopeId.form : Form ScopeId where
  write
    | .null => .record [("idx", .natural nullIndex), ("version", .natural 1)]
    | .slot index age => .record [("idx", .natural index), ("version", .natural (2 * age + 1))]
  read? room value :=
    match readFieldsOf? ["idx", "version"] {} room value with
    | some (room, [index, version]) => do
        let index ← (Form.natural wordBound).required? room index
        let version ← (Form.natural wordBound).required? room version
        return if index = nullIndex then .null else .slot index (version / 2)
    | _ => none

def Binding.form : Form Binding where
  write binding :=
    .record [("name", Form.text.write binding.name), ("op", Tag.form.write binding.tag),
      ("span", Span.form.write binding.span), ("node", .natural binding.node)]
  read? room value :=
    match readFieldsOf? ["name", "op", "span", "node"] {} room value with
    | some (room, [name, tag, span, node]) => do
        let name ← Form.text.required? room name
        let tag ← Tag.form.required? room tag
        let span ← Span.form.required? room span
        let node ← (Form.natural longBound).required? room node
        return ⟨name, tag, span, node⟩
    | _ => none

/-- Settings; those that are missing keep their default, and no others may be there. -/
def Config.form : Form Config where
  write config :=
    .record [("max_depth", .natural config.maxDepth),
      ("bind_scopes", .boolean config.bindScopes), ("threads", .natural config.threads)]
  read? room value :=
    match readFieldsOf? ["max_depth", "bind_scopes", "threads"] ⟨true, true⟩ room value with
    | some (room, [maxDepth, bindScopes, threads]) => do
        let defaults : Config := {}
        let maxDepth ← (Form.natural longBound).orDefault? defaults.maxDepth room maxDepth
        let bindScopes ← Form.boolean.orDefault? defaults.bindScopes room bindScopes
        let threads ← (Form.natural longBound).orDefault? defaults.threads room threads
        return ⟨maxDepth, bindScopes, threads⟩
    | _ => none

namespace Node

mutual

def toJson : Node → Value
  | ⟨tag, span, text, operator, children, scope⟩ =>
      .record [("op", Tag.form.write tag), ("span", Span.form.write span),
        ("text", Form.text.nullable.write text),
        ("operator", Operator.form.nullable.write operator),
        ("children", .array (toJsonAll children)),
        ("scope", ScopeId.form.nullable.write scope)]

def toJsonAll : List Node → List Value
  | [] => []
  | node :: nodes => toJson node :: toJsonAll nodes

end

/-- The names of a node's fields, in the order in which they are written. -/
def fieldNames : List String :=
  ["op", "span", "text", "operator", "children", "scope"]

/-- The tree that a JSON value stands for.  Each level takes the object of the node and the
array of its children. -/
def ofJson? : Nat → Value → Option Node
  | room + 2, value =>
      match readFieldsOf? fieldNames {} (room + 2) value with
      | some (inside, [tag, span, text, operator, some (.array children), scope]) => do
          let tag ← Tag.form.required? inside tag
          let span ← Span.form.required? inside span
          let text ← Form.text.optional? inside text
          let operator ← Operator.form.optional? inside operator
          let children ← children.mapM (ofJson? room)
          let scope ← ScopeId.form.optional? inside scope
          return ⟨tag, span, text, operator, children, scope⟩
      | _ => none
  | _, _ => none

def form : Form Node where
  write := toJson
  read? := ofJson?

end Node

end CanonTree
