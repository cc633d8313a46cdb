import CanonTree.Language
import CanonTree.Tag.Shared
import CanonTree.Tag.Java
import CanonTree.Tag.Ecma

/-!
# Node tags

A node carries one tag out of three vocabularies: the shared one, the canonical
tags of a language, or the raw tags.  Raw tags are grouped by language, so that
whoever reduces a raw node can first ask for the owner and then decide by cases on
the raw tags of that language alone.
-/

namespace CanonTree

inductive RawTag where
  | java (tag : JavaRawTag)
  | ecma (tag : EcmaRawTag)
deriving DecidableEq, Ord, Inhabited

namespace RawTag

def all : List RawTag :=
  JavaRawTag.all.map .java ++ EcmaRawTag.all.map .ecma

def owner : RawTag → Language
  | .java _ => .java
  | .ecma _ => .ecma

def ofLanguage (language : Language) : List RawTag :=
  all.filter (·.owner == language)

def flags : RawTag → Flags
  | .java tag => tag.flags
  | .ecma tag => tag.flags

def name : RawTag → String
  | .java tag => tag.name
  | .ecma tag => tag.name

def directive? : RawTag → Option JavaTag
  | .java tag => tag.directive?
  | .ecma _ => none

/-- Where the tag stands among the vocabularies: the language, then the variant. -/
def path : RawTag → List String
  | .java tag => ["Java", tag.variant]
  | .ecma tag => ["Ecma", tag.variant]

end RawTag

inductive Tag where
  | shared (tag : SharedTag)
  /-- A Java tag that stays in canonical trees. -/
  | java (tag : JavaTag)
  /-- A surface tag, absent from canonical trees. -/
  | raw (tag : RawTag)
deriving DecidableEq, Ord, Inhabited

namespace Tag

instance : Coe SharedTag Tag := ⟨.shared⟩

instance : Coe JavaTag Tag := ⟨.java⟩

def all : List Tag :=
  SharedTag.all.map .shared ++ JavaTag.all.map .java ++ RawTag.all.map .raw

def flags : Tag → Flags
  | .shared tag => tag.flags
  | .java tag => tag.flags
  | .raw tag => tag.flags

/-- Upper-case name; the name of a raw tag starts with `RAW_`. -/
def name : Tag → String
  | .shared tag => tag.name
  | .java tag => tag.name
  | .raw tag => tag.name

def language? : Tag → Option Language
  | .shared _ => none
  | .java _ => some .java
  | .raw tag => some tag.owner

/-- The tag must not stand in a canonical tree. -/
def isRaw (tag : Tag) : Bool := tag.flags.raw

def hasOwnScope (tag : Tag) : Bool := tag.flags.ownScope

def isDecl (tag : Tag) : Bool := tag.flags.decl

def isDiscarded (tag : Tag) : Bool := tag.flags.discarded

def raw? : Tag → Option RawTag
  | .raw tag => some tag
  | _ => none

def canonical : List Tag :=
  all.filter (!·.isRaw)

/-- The tag with the given upper-case name, in whichever vocabulary. -/
def ofName? (name : String) : Option Tag :=
  all.find? (·.name == name)

/-- Where the tag stands among the vocabularies, outermost first. -/
def path : Tag → List String
  | .shared tag => ["Std", tag.variant]
  | .java tag => ["Java", tag.variant]
  | .raw tag => "Raw" :: tag.path

/-- The path in nested form, as in `Raw(Java(TypeCast))`. -/
def nested (tag : Tag) : String :=
  match tag.path.reverse with
  | [] => ""
  | variant :: groups => groups.foldl (fun inner group => group ++ "(" ++ inner ++ ")") variant

end Tag

end CanonTree
