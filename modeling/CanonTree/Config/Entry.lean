import CanonTree.Config.Basic
import CanonTree.Toml.Value

/-!
# Settings from an entry of a document

Settings stand in the `normalizer` entry of a TOML document.  It is a table of
settings by name, or an array of settings in order; missing settings keep their
default.  Other entries are nobody's business, but the reader of the document has
to be able to pass over them.
-/

namespace CanonTree

inductive ConfigError where
  /-- There is no such file. -/
  | missingFile
  /-- The file is not UTF-8. -/
  | notText
  /-- The document with the given name is no TOML, or does not hold settings. -/
  | unparsable (file : String)
  /-- No tree could be accepted. -/
  | zeroDepth
deriving DecidableEq, Inhabited

/-- The wording of an error.  What is wrong with a document is left to the reader of it. -/
def ConfigError.message : ConfigError → String
  | .missingFile => "I/O error: No such file or directory (os error 2)"
  | .notText => "I/O error: stream did not contain valid UTF-8"
  | .unparsable file => "Failed to parse configuration '" ++ file ++ "': "
  | .zeroDepth => "Invalid configuration: max_depth must be at least 1"

namespace Config

def validate (config : Config) : Except ConfigError Config :=
  if config.isValid then .ok config else .error .zeroDepth

/-- The numbers that a setting can have lie below this one. -/
def numberBound : Nat := 0x10000000000000000

def readNumber? : Toml.Value → Option Nat
  | .integer value =>
      if 0 ≤ value && value < Int.ofNat numberBound then some value.toNat else none
  | _ => none

def readBool? : Toml.Value → Option Bool
  | .boolean value => some value
  | _ => none

def assign? (config : Config) (name : String) (value : Toml.Value) : Option Config :=
  if name = "max_depth" then
    (readNumber? value).map fun number => { config with maxDepth := number }
  else if name = "bind_scopes" then
    (readBool? value).map fun flag => { config with bindScopes := flag }
  else if name = "threads" then
    (readNumber? value).map fun number => { config with threads := number }
  else none

def settingNames : List String :=
  ["max_depth", "bind_scopes", "threads"]

def assignAll? (config : Config) : List (String × Toml.Value) → Option Config
  | [] => some config
  | (name, value) :: rest =>
      match config.assign? name value with
      | some config => config.assignAll? rest
      | none => none

/-- The settings that a value of the `normalizer` entry stands for.  Elements of an array
beyond the last setting are passed over. -/
def ofValue? : Toml.Value → Option Config
  | .table entries => ({} : Config).assignAll? entries
  | .array elements => ({} : Config).assignAll? (settingNames.zip elements)
  | _ => none

def ofEntries? (reader : Toml.Reader) (entries : List (String × Toml.Value)) : Option Config :=
  let (own, others) := entries.partition (·.1 = "normalizer")
  if others.all (reader.passesOver ·.2) then
    match own with
    | [] => some {}
    | (_, value) :: _ => ofValue? value
  else none

/-- The settings in a document, which is called `file` in errors. -/
def parse (reader : Toml.Reader) (file source : String) : Except ConfigError Config :=
  match (reader.parse? source).bind (ofEntries? reader) with
  | some config => config.validate
  | none => .error (.unparsable file)

/-- The settings in a document that is no file. -/
def ofText (reader : Toml.Reader) (source : String) : Except ConfigError Config :=
  parse reader "<string>" source

end Config

end CanonTree
