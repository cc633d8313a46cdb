import CanonTree.Config.Entry
import CanonTree.Toml.Reader

/-!
# Settings from documents

Where settings come from: a text, a file, or a file that the environment names.
-/

namespace CanonTree.Config

def ofToml (source : String) : Except ConfigError Config :=
  ofText Toml.reader source

/-- The settings in a file with the given name and content, or no content if it is missing. -/
def ofFile (file : String) (content : Option ByteArray) : Except ConfigError Config :=
  match content with
  | none => .error .missingFile
  | some bytes =>
      match String.fromUTF8? bytes with
      | none => .error .notText
      | some source => parse Toml.reader file source

def ofEnvironment (file : Option (String × Option ByteArray)) : Except ConfigError Config :=
  match file with
  | none => .ok {}
  | some (name, content) => ofFile name content

end CanonTree.Config
