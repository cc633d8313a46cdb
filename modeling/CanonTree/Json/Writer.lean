import CanonTree.Json.Value

/-!
# Writing JSON

A value is written without any blanks.  In strings only quotes, backslashes and
controls are escaped, the latter by a letter where there is one.
-/

namespace CanonTree.Json

def escape (c : Char) : List Char :=
  if c = '"' then ['\\', '"']
  else if c = '\\' then ['\\', '\\']
  else if c = '\x08' then ['\\', 'b']
  else if c = '\x0c' then ['\\', 'f']
  else if c = '\n' then ['\\', 'n']
  else if c = '\r' then ['\\', 'r']
  else if c = '\t' then ['\\', 't']
  else if c.toNat < 0x20 then
    ['\\', 'u', '0', '0', Nat.digitChar (c.toNat / 16), Nat.digitChar (c.toNat % 16)]
  else [c]

def Quoted.render : Quoted → String
  | .plain text => "\"" ++ String.ofList (text.toList.flatMap escape) ++ "\""
  | .broken source => "\"" ++ source ++ "\""

namespace Value

mutual

def render : Value → String
  | .null => "null"
  | .boolean value => if value then "true" else "false"
  | .natural value => toString value
  | .numeral literal => literal
  | .string content => content.render
  | .array elements => "[" ++ ",".intercalate (renderAll elements) ++ "]"
  | .object fields => "\x7b" ++ ",".intercalate (renderFields fields) ++ "\x7d"

def renderAll : List Value → List String
  | [] => []
  | value :: values => render value :: renderAll values

def renderFields : List (Quoted × Value) → List String
  | [] => []
  | (name, value) :: fields => (name.render ++ ":" ++ render value) :: renderFields fields

end

end Value

end CanonTree.Json
