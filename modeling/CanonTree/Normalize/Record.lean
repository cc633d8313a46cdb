import CanonTree.Normalize.Stats
import CanonTree.Rule.Error
import CanonTree.Scope.Basic

/-!
# Log records

Each step of normalization that is worth telling leaves a record.  A record is the
step itself, as data; its level, the part of the library that it comes from and
its wording are read off it.
-/

namespace CanonTree

inductive Level where
  | trace
  | debug
  | warn
deriving DecidableEq, Inhabited

def Level.name : Level → String
  | .trace => "TRACE"
  | .debug => "DEBUG"
  | .warn => "WARN"

/-- The part of the library that a record comes from. -/
inductive Origin where
  | scopes
  | normalizer
  | batch
deriving DecidableEq, Inhabited

/-- One step that was taken. -/
inductive Record where
  | openedScope (id : ScopeId) (tag : Tag) (span : Span) (parent : Option ScopeId)
  /-- A discarded subtree was dropped. -/
  | dropping (span : Span)
  /-- A raw node was handed to its rule. -/
  | reducing (tag : RawTag) (span : Span)
  | binding (name : String) (span : Span)
  | normalized (language : Language) (stats : Stats)
  | batchStarted (trees : Nat) (language : Language) (workers : Nat)
  | treeFailed (index : Nat) (error : NormalizeError)
deriving DecidableEq, Inhabited

namespace Record

def level : Record → Level
  | .openedScope .. | .dropping .. | .reducing .. | .binding .. => .trace
  | .normalized .. | .batchStarted .. => .debug
  | .treeFailed .. => .warn

def origin : Record → Origin
  | .openedScope .. => .scopes
  | .dropping .. | .reducing .. | .binding .. | .normalized .. => .normalizer
  | .batchStarted .. | .treeFailed .. => .batch

def message : Record → String
  | .openedScope id tag span parent =>
      "opened scope " ++ id.label ++ " for " ++ tag.name ++ " at " ++ span.position ++
        " (parent " ++ ScopeId.labelOption parent ++ ")"
  | .dropping span => "dropping discarded subtree at " ++ span.position
  | .reducing tag span => "rewriting " ++ tag.name ++ " at " ++ span.position
  | .binding name span => "binding `" ++ name ++ "` at " ++ span.position
  | .normalized language stats =>
      "normalized " ++ language.name ++ " tree: " ++ toString stats.visited ++
        " nodes visited, " ++ toString stats.reduced ++ " rewritten, " ++
        toString stats.discarded ++ " discarded, " ++ toString stats.scopes ++ " scopes, " ++
        toString stats.bindings ++ " bindings"
  | .batchStarted trees language workers =>
      "normalizing " ++ toString trees ++ " " ++ language.name ++ " trees on " ++
        toString workers ++ " workers"
  | .treeFailed index error =>
      "tree #" ++ toString index ++ " failed to normalize: " ++ error.message

end Record

end CanonTree
