/-!
# Source languages

The languages whose surface constructs have a raw vocabulary and rules of their
own.
-/

namespace CanonTree

/-- Source languages with a raw vocabulary. -/
inductive Language where
  | java
  /-- JavaScript and its module dialects. -/
  | ecma
deriving DecidableEq, Ord, Inhabited

def Language.all : List Language :=
  [.java, .ecma]

def Language.name : Language → String
  | .java => "java"
  | .ecma => "ecmascript"

/-- Variant name of a language, used where it is written as data. -/
def Language.variant : Language → String
  | .java => "Java"
  | .ecma => "Ecma"

def Language.ofName? (name : String) : Option Language :=
  Language.all.find? (·.name == name)

def Language.ofVariant? (variant : String) : Option Language :=
  Language.all.find? (·.variant == variant)

def Language.ofExtension? (extension : String) : Option Language :=
  if extension == "java" then some .java
  else if ["js", "mjs", "cjs", "jsx"].contains extension then some .ecma
  else none

end CanonTree
