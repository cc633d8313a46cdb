/-!
# Structural roles of tags

What a tag means for the shape of a tree, apart from which tag it is: whether it
stands for a surface construct, opens a scope, binds a name or is dropped.  A reader that
only needs the role looks at the flags and not at the tag.
-/

namespace CanonTree

structure Flags where
  /-- A surface construct of one language, absent from canonical trees. -/
  raw : Bool
  /-- Nodes with this tag open a lexical scope. -/
  ownScope : Bool
  /-- Nodes with this tag bind names in the enclosing scope. -/
  decl : Bool
  /-- Nodes with this tag are dropped from the tree. -/
  discarded : Bool
deriving DecidableEq, Inhabited

namespace Flags

def empty : Flags := ⟨false, false, false, false⟩

def surface : Flags := ⟨true, false, false, false⟩

def opensScope : Flags := ⟨false, true, false, false⟩

def declares : Flags := ⟨false, false, true, false⟩

def isDropped : Flags := ⟨false, false, false, true⟩

/-- The flags with their names, lowest bit first. -/
def named (flags : Flags) : List (String × Bool) :=
  [("RAW", flags.raw), ("OWN_SCOPE", flags.ownScope), ("DECL", flags.decl),
    ("DISCARDED", flags.discarded)]

def names (flags : Flags) : List String :=
  (flags.named.filter (·.2)).map (·.1)

/-- The flags as one number, the first one being its lowest bit. -/
def bits (flags : Flags) : Nat :=
  flags.named.foldr (fun flag rest => flag.2.toNat + 2 * rest) 0

end Flags

end CanonTree
